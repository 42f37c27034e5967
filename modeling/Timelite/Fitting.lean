import Timelite.Interrupting
import Timelite.Poisoning

/-!
Capacities over runs. `Fits` says what may be asked of the two files: no write
or truncation goes past a capacity, every manifest is accepted as it is written
and every segment header is read back as the segment it announces. The writers
are walked once from the states that their triples give.
-/
namespace Timelite.Fitting
open ByteFile Program Durable Codec CodecLaws Backend BackendLaws Layout FrameLaws HeaderWalk Links SegmentLaws SlotLaws
  WalLaws Contents Images Crashes Databases Calls Appending Checkpointing Relocation Retaining Expiring Opening Cursor
  Seeking Reader Retention BatchApi Creating Atomicity Aggregating System Refinement Soundness Interrupting Poisoning

section Requests

/-- The file holds a chain of so many segments from the root to the end, and `tail` is the place of the last. -/
def Describes (store : Store) (root count dataEnd tail : Nat) : Prop :=
  ∃ segments, Chained store root dataEnd segments ∧ dataEnd = root + extent segments ∧ count = segments.length ∧
    tail = linkTo root segments segments.length

/-- A complete piece of the database. What a manifest gives of its chain and what a header gives of its frames is read
back as it is, so nothing is lost in the casts of the encoders. -/
inductive Written (store : Store) : (offset : Nat) → Bytes → Prop where
  | retention (revision count dataEnd last time tail root phase : Nat)
      (accepted : retentionManifest (encodeRetention revision count dataEnd last time tail root phase)
        (store.content .database).length = true)
      (exact : slotManifest (revision % 2) (encodeRetention revision count dataEnd last time tail root phase)
          (store.content .database).length =
        some ⟨false, count, dataEnd, last, time, tail, true, ⟨revision, root, phase, true⟩⟩)
      (describes : Describes store root count dataEnd tail) :
      Written store (slotOffset revision) (encodeRetention revision count dataEnd last time tail root phase)
  | install (generation dataEnd last time tail : Nat)
      (accepted : checkManifest (encodeManifest generation dataEnd last time tail) (store.content .database).length =
        some (generation, dataEnd, last))
      (exact : slotManifest (generation % 2) (encodeManifest generation dataEnd last time tail)
          (store.content .database).length =
        some ⟨false, generation, dataEnd, last, time, tail, true, ⟨generation, 160, 0, false⟩⟩)
      (describes : Describes store 160 generation dataEnd tail) :
      Written store (slotOffset generation) (encodeManifest generation dataEnd last time tail)
  | header (offset previous skip : Nat) (segment : Segment) (room : offset + segment.size ≤ databaseCapacity)
      (source : ∃ file place, Holds (store.content file) place (frames segment.first segment.batches))
      (accepted : ∀ after limit, after.content .database =
          writeAt (store.content .database) offset (segment.header previous skip) → offset + segment.size ≤ limit →
        on (readSegment .database offset limit) after = (.ok (segment.info previous skip), after)) :
      Written store offset (segment.header previous skip)
  | frame (offset sequence : Nat) (batch : Batch) : Written store offset (frame sequence batch.records)

/-- What the library may ask of the files of a pair. -/
def Fits : Call → Store → Prop
  | .write .wal offset bytes, _ => offset + bytes.length ≤ walCapacity ∧ ∃ sequence, ∃ batch : Batch,
      bytes = frameBody sequence batch.records ∨ bytes = frameCommit sequence batch.records
  | .write .database offset bytes, store => offset + bytes.length ≤ databaseCapacity ∧ Written store offset bytes
  | .truncate .wal size, _ => size ≤ walCapacity
  | .truncate .database size, _ => size ≤ databaseCapacity
  | _, _ => True

/-- The sizes of both images. -/
def Within (d w : Bytes) : Prop := d.length ≤ databaseCapacity ∧ w.length ≤ walCapacity

variable {store : Store} {offset : Nat} {bytes : Bytes}

theorem fits_quiet {call : Call} (quiet : changes call = false) : Fits call store := by
  cases call with
  | write file offset bytes => cases quiet
  | truncate file size => cases quiet
  | «open» file => trivial
  | create file => trivial
  | lock file => trivial
  | identity => trivial
  | read file offset length => trivial
  | size file => trivial
  | sync file => trivial
  | provision file => trivial
  | close file => trivial

theorem within_write_database {d w : Bytes} (within : Within d w) (room : offset + bytes.length ≤ databaseCapacity)
    (count : Nat) : Within (writeAt d offset (bytes.take count)) w := by
  have bound := write_bound d offset (bytes.take count)
  have short : (bytes.take count).length ≤ bytes.length := List.length_take_le' count bytes
  have old := within.1
  exact ⟨by omega, within.2⟩

theorem within_write_wal {d w : Bytes} (within : Within d w) (room : offset + bytes.length ≤ walCapacity)
    (count : Nat) : Within d (writeAt w offset (bytes.take count)) := by
  have bound := write_bound w offset (bytes.take count)
  have short : (bytes.take count).length ≤ bytes.length := List.length_take_le' count bytes
  have old := within.2
  exact ⟨within.1, by omega⟩

-- Requests that change nothing, served or failed.
theorem quiet_within {call : Call} (quiet : changes call = false) (safe : Safe Within store) :
    Safe Within (device.serve call store).2 ∧
      ∀ reply middle, device.fault call store reply middle → Safe Within middle := by
  have alone : ∀ request ∈ [call], changes request = false := fun request among => List.mem_singleton.mp among ▸ quiet
  constructor
  · have served : Issues device (.ask call fun _ => .done () : Prog Reply Unit) store [call] none _ := .serve (.stop _ _)
    rw [unchanged served alone]
    exact safe
  · intro reply middle fault
    have failed : Issues device (.ask call fun _ => .done () : Prog Reply Unit) store [call] none middle :=
      .fail fault (.stop _ _)
    rw [unchanged failed alone]
    exact safe

/-- A request that fits leaves no image larger than its capacity, served, failed or cut by a crash. -/
theorem fits_within {call : Call} (fits : Fits call store) (safe : Safe Within store) :
    Safe Within (device.serve call store).2 ∧
      ∀ reply middle, device.fault call store reply middle → Safe Within middle := by
  have there : ∀ file, (store.disk? file).isSome = true := fun file => by
    cases file with
    | database => exact safe.database
    | wal => exact safe.wal
  cases call with
  | write file offset bytes =>
      cases file with
      | database =>
          have within := fun d w survives => within_write_database (safe.images d w survives) fits.1
          refine Does.first (safe_write_database safe (fun w survives => ?_) fun w count survives _ => ?_)
          · have whole := within _ w ⟨survives_content _, survives⟩ bytes.length
            rwa [List.take_length] at whole
          · exact within _ w ⟨survives_content _, survives⟩ count
      | wal =>
          refine Does.first (safe_write_wal safe fun d count survives => ?_)
          exact within_write_wal (safe.images d _ ⟨survives, survives_content _⟩) fits.1 count
  | truncate file size =>
      cases file with
      | database =>
          refine Does.first (safe_truncate_database safe fun w survives => ⟨?_, ?_⟩)
          · rw [resize_length]
            exact fits
          · exact (safe.images _ w ⟨survives_content _, survives⟩).2
      | wal =>
          refine Does.first (safe_truncate_wal safe fun d survives => ⟨?_, ?_⟩)
          · exact (safe.images d _ ⟨survives, survives_content _⟩).1
          · rw [resize_length]
            exact fits
  | create file =>
      constructor
      · simp only [device, Backend.serve, there, if_true]
        exact safe
      · intro reply middle fault
        cases fault with
        | before call store code known => exact safe
        | create file store code fresh known =>
            have absent := there file
            rw [fresh] at absent
            cases absent
  | sync file => exact Does.first (runs_sync file safe (safe.sync file))
  | provision file => exact Does.first (runs_provision file safe (safe.sync file))
  | «open» file => exact quiet_within rfl safe
  | lock file => exact quiet_within rfl safe
  | identity => exact quiet_within rfl safe
  | read file offset length => exact quiet_within rfl safe
  | size file => exact quiet_within rfl safe
  | close file => exact quiet_within rfl safe

end Requests

section Rules
variable {α β : Type} {safe : Store → Prop} {store middle : Store} {db : Batches}

/-- Whatever fails, every request of the function fits the files as they are when it is made. -/
def Fitted (program : Io α) (store : Store) : Prop := Sanctions device Fits program store

theorem fitted_reads {program : Io α} (reads : Reads program) : Fitted program store :=
  reads.observes.sanctions fun _ _ quiet => fits_quiet (quiet_request quiet)

theorem fitted_pure (value : α) : Fitted (pure value) store := fitted_reads (reads_pure value)

theorem fitted_bind {first : Io α} {next : α → Io β} {value : α} (runs : Runs safe first store value middle)
    (front : Fitted first store) (rest : Fitted (next value) middle) : Fitted (first >>= next) store := by
  refine Does.sanctions runs front ?_ rest
  rintro result state ⟨code, rfl⟩
  exact sanctions_done

theorem fitted_after {first : Io α} {next : α → Io β} {value : α} (reads : Reads first)
    (ran : on first store = (.ok value, store)) (rest : Fitted (next value) store) : Fitted (first >>= next) store :=
  @fitted_bind _ _ Anywhere _ _ _ _ _ (reads.runs trivial ran) (fitted_reads reads) rest

theorem fitted_perform {call : Call} (fits : Fits call store) : Fitted (Io.perform call) store := by
  refine sanctions_ask fits (fun reply middle fault => ?_) ?_
  · cases reply <;> exact sanctions_done
  · cases (device.serve call store).1 <;> exact sanctions_done

-- Where the rest fits whatever the first part has done.
theorem fitted_seq {first : Io α} {next : α → Io β} (front : Fitted first store)
    (rest : ∀ value middle, Fitted (next value) middle) : Fitted (first >>= next) store := by
  refine sanctions_bind front fun result middle execution => ?_
  cases result with
  | error error => exact sanctions_done
  | ok value => exact rest value middle

theorem fitted_then {first : Io α} {next : α → Io β} (front : Fitted first store) (rest : ∀ value, Reads (next value)) :
    Fitted (first >>= next) store := fitted_seq front fun value _ => fitted_reads (rest value)

theorem fitted_write {file : File} {offset : Nat} {bytes : Bytes} (fits : Fits (.write file offset bytes) store) :
    Fitted (writeExact file offset bytes) store :=
  fitted_then (fitted_perform fits) fun _ => reads_require _ _

theorem fitted_write_bind {file : File} {offset : Nat} {bytes : Bytes} {next : Unit → Io β}
    (fits : Fits (.write file offset bytes) store) (rest : Fitted (next ()) (store.update file (.write offset bytes))) :
    Fitted (writeExact file offset bytes >>= next) store :=
  @fitted_bind _ _ Anywhere _ _ _ _ _ (runs_write file offset bytes trivial trivial fun _ _ => trivial)
    (fitted_write fits) rest

theorem fitted_truncate_bind {file : File} {size : Nat} {next : Unit → Io β} (fits : Fits (.truncate file size) store)
    (rest : Fitted (next ()) (store.update file (.truncate size))) : Fitted (fileTruncate file size >>= next) store :=
  @fitted_bind _ _ Anywhere _ _ _ _ _ (runs_truncate file size trivial trivial) (fitted_perform fits) rest

theorem fitted_sync (file : File) : Fitted (fileSync file) store := fitted_perform trivial

theorem fitted_sync_bind {file : File} {next : Unit → Io β} (rest : Fitted (next ()) (store.sync file)) :
    Fitted (fileSync file >>= next) store :=
  @fitted_bind _ _ Anywhere _ _ _ _ _ (runs_sync file trivial trivial) (fitted_sync file) rest

theorem sanctions_attempt {step : Io α} {next : α → Op β} (front : Fitted step store)
    (rest : ∀ value middle, Sanctions device Fits (next value) middle) :
    Sanctions device Fits (attempt db step next) store := by
  refine sanctions_bind front fun result middle execution => ?_
  cases result with
  | error error => exact sanctions_done
  | ok value => exact rest value middle

/-- A step that reads leaves the files for the rest of the call. -/
theorem sanctions_reads {step : Io α} {next : α → Op β} {value : α} (reads : Reads step)
    (ran : on step store = (.ok value, store)) (rest : Sanctions device Fits (next value) store) :
    Sanctions device Fits (attempt db step next) store := by
  refine sanctions_bind (fitted_reads reads) fun result middle execution => ?_
  obtain ⟨rfl, results⟩ := reads_exec reads execution
  rcases results result rfl with same | ⟨code, rfl⟩
  · rw [ran] at same
    subst same
    exact rest
  · exact sanctions_done

-- What reads and fails is not followed by a request.
theorem fitted_fails {first : Io α} {next : α → Io β} {error : Error} (reads : Reads first)
    (ran : on first store = (.error error, store)) : Fitted (first >>= next) store := by
  refine sanctions_bind (fitted_reads reads) fun result middle execution => ?_
  obtain ⟨rfl, results⟩ := reads_exec reads execution
  rcases results result rfl with same | ⟨code, rfl⟩
  · rw [ran] at same
    subst same
    exact sanctions_done
  · exact sanctions_done

end Rules

section Pieces
variable {store : Store} {content : Content} {m : Manifests} {revision root phase : Nat}

theorem slot_room (revision : Nat) (bytes : Bytes) (size : bytes.length = 64) :
    slotOffset revision + bytes.length ≤ databaseCapacity := by
  rcases slot_offset_cases revision with even | odd
  · rw [even, size]
    decide
  · rw [odd, size]
    decide

/-- A retention manifest of a content that is in the file. -/
theorem retained_fits (able : Retainable content revision root phase)
    (held : Holds (store.content .database) root (chain root [] content.segments))
    (fits : root + extent content.segments ≤ (store.content .database).length) :
    Fits (.write .database (slotOffset revision) (retainedBytes content revision root phase)) store := by
  have exact := retained_accepted able fits
  obtain ⟨_, ⟨accepted, _⟩ | ⟨g, d, l, _, plain⟩⟩ := slot_cases exact
  · exact ⟨slot_room _ _ retained_bytes_length, .retention _ _ _ _ _ _ _ _ accepted exact
      ⟨_, ⟨held, able.low, Nat.le_refl _, able.capacity⟩, rfl, rfl, rfl⟩⟩
  · cases congrArg (fun m => m.state.enabled) plain

theorem frame_fits {offset sequence : Nat} {batch : Batch} (room : offset + batch.size ≤ databaseCapacity) :
    Fits (.write .database offset (frame sequence batch.records)) store := by
  have size : (frame sequence batch.records).length = batch.size := frame_length _ _
  exact ⟨by rw [size]; exact room, .frame offset sequence batch⟩

/-- The header of a segment behind a chain, with the links of that place. -/
theorem header_fits {before : List Segment} {segment : Segment} (above : 160 ≤ root) (few : before.length + 1 < 16777216)
    (room : root + extent before + segment.size ≤ databaseCapacity)
    (source : ∃ file place, Holds (store.content file) place (frames segment.first segment.batches)) :
    Fits (.write .database (root + extent before) (segment.header (linkTo root before before.length)
      (linkTo root before (before.length + 1 - lowBit (before.length + 1))))) store := by
  have low := low_bit_pos (n := before.length + 1) (by omega) (by omega)
  have size : segment.size = segment.headerSize + segment.body := rfl
  have large : root + extent before < 4294967296 := by
    simp only [databaseCapacity] at room
    omega
  refine ⟨by rw [Segment.header_length]; omega, .header _ _ _ segment room source fun after limit written fits => ?_⟩
  refine read_header ?_ fits large (linked_of_le above (Nat.le_refl _)) (linked_of_le above (by omega))
  rw [written]
  exact holds_write _ _ _

end Pieces

section Copying
variable {store : Store} {limit : Nat}

theorem copy_frames_fitted {fuel position destination sequence : Nat} {batches : List Batch}
    (held : Holds (store.content .database) position (frames sequence batches))
    (whole : limit = position + framesSize batches) (enough : framesSize batches ≤ fuel)
    (below : destination + framesSize batches ≤ databaseCapacity)
    (apart : position + framesSize batches ≤ destination ∨ destination + framesSize batches ≤ position)
    (bounded : sequence + batches.length ≤ 18446744073709551616) :
    Fitted (copyFrames limit fuel position destination (sequence % 18446744073709551616)) store := by
  induction batches generalizing store fuel position destination sequence with
  | nil =>
      cases fuel with
      | zero => exact fitted_pure _
      | succ fuel =>
          rw [copyFrames, if_neg (by simp [whole])]
          exact fitted_pure _
  | cons batch rest ih =>
      have least := batch.size_ge
      rw [frames_size_cons] at whole enough below apart
      rw [List.length_cons] at bounded
      obtain ⟨fuel, rfl⟩ : ∃ k, fuel = k + 1 := ⟨fuel - 1, by omega⟩
      rw [frames_cons, holds_append, frame_length] at held
      have small : sequence % 18446744073709551616 = sequence := Nat.mod_eq_of_lt (by omega)
      have room : position + batch.size ≤ limit := by omega
      have read := complete_frame held.1 room (by omega)
      have size : (frame sequence batch.records).length = batch.size := frame_length _ _
      have back : Holds (store.content .database) (position + batch.size) (frames (sequence + 1) rest) := held.2
      have later := back.write destination (frame sequence batch.records) (by rw [frames_length, size]; omega)
      rw [copyFrames, if_pos (by omega), small]
      refine fitted_after (reads_complete (reads_readFrame _ _ _ _)) read
        (fitted_write_bind (frame_fits (by omega)) ?_)
      have tail := @ih (store.update .database (.write destination (frame sequence batch.records))) fuel
        (position + batch.size) (destination + batch.size) (sequence + 1)
        (by rw [content_update_same]; exact later) (by omega) (by omega) (by omega) (by omega) (by omega)
      rw [frame_of_length]
      rw [← next64_mod, small] at tail
      exact tail

theorem copy_segment_fitted {root offset previous skip : Nat} {kept : List Segment} {segment : Segment}
    {info : SegmentInfo} {copy : Copy} (held : Holds (store.content .database) offset (segment.image previous skip))
    (header : info.headerSize = segment.headerSize) (body : info.body = segment.body)
    (first : info.first = segment.first)
    (copying : Copying root kept copy) (few : kept.length + 1 < 16777216) (above : 160 ≤ root)
    (below : root + extent kept + segment.size ≤ databaseCapacity)
    (apart : offset + segment.size ≤ root + extent kept ∨ root + extent kept + segment.size ≤ offset) :
    Fitted (copySegment offset info copy) store := by
  have size : segment.size = segment.headerSize + segment.body := rfl
  have body' : segment.body = framesSize segment.batches := rfl
  have headerLength := segment.header_length
  have parts := (holds_append _ _ _ _).mp held
  rw [headerLength] at parts
  have read := on_read_holds parts.1 (headerLength previous skip)
  have newHeader := relink_header segment previous skip (linkTo root kept kept.length)
    (linkTo root kept (kept.length + 1 - lowBit (kept.length + 1)))
  have later := parts.2.write (root + extent kept) (segment.header (linkTo root kept kept.length)
    (linkTo root kept (kept.length + 1 - lowBit (kept.length + 1))))
    (by rw [frames_length, headerLength]; omega)
  have bounded := segment.bounded
  have counted := segment.length_pos
  have small : segment.first % 18446744073709551616 = segment.first := Nat.mod_eq_of_lt (by omega)
  unfold copySegment
  simp only [header, body, first, copying.destination, copying.previous, copying.count]
  rw [levels_skip copying.levels few]
  refine fitted_after (reads_read_exact _ _ _) read ?_
  rw [newHeader]
  refine fitted_write_bind (header_fits above few below ⟨.database, _, parts.2⟩) ?_
  have frames := @copy_frames_fitted (store.update .database (.write (root + extent kept) (segment.header
      (linkTo root kept kept.length) (linkTo root kept (kept.length + 1 - lowBit (kept.length + 1))))))
    (offset + segment.headerSize + segment.body) segment.body (offset + segment.headerSize)
    (root + extent kept + segment.headerSize) segment.first segment.batches
    (by rw [content_update_same]; exact later) rfl (Nat.le_refl _) (by omega) (by omega) bounded
  rw [small] at frames
  exact fitted_then frames fun _ => reads_bind (reads_require _ _) fun _ => reads_pure _

theorem copy_loop_fitted {root target cutoff fuel : Nat} {filter : Bool} {done rest kept : List Segment} {copy : Copy}
    (chained : Chained store root limit (done ++ rest)) (whole : limit = root + extent (done ++ rest))
    (enough : extent rest ≤ fuel) (copying : Copying target kept copy) (few : kept.length ≤ done.length)
    (above : 160 ≤ target) (below : target + extent kept + extent (copied filter cutoff rest) ≤ databaseCapacity)
    (apart : limit ≤ target ∨ target + extent kept + extent (copied filter cutoff rest) ≤ root) :
    Fitted (copyLoop limit filter cutoff fuel (root + extent done) copy) store := by
  induction rest generalizing store done kept copy fuel with
  | nil =>
      rw [List.append_nil] at whole
      cases fuel with
      | zero => exact fitted_pure _
      | succ fuel =>
          rw [copyLoop, if_neg (by omega)]
          exact fitted_pure _
  | cons segment rest ih =>
      have least := segment.size_ge
      have count := chained.count_lt
      have joined : done ++ segment :: rest = (done ++ [segment]) ++ rest := by simp
      have sized : extent (done ++ segment :: rest) = extent done + (segment.size + extent rest) := by simp
      have longer : (done ++ [segment]).length = done.length + 1 := by simp
      rw [List.length_append, List.length_cons] at count
      rw [extent_cons] at enough
      obtain ⟨fuel, rfl⟩ : ∃ k, fuel = k + 1 := ⟨fuel - 1, by omega⟩
      have expiry := copy_expires filter (chained_expires chained cutoff)
      have place : root + extent done + segment.headerSize + segment.body = root + extent (done ++ [segment]) := by
        simp only [extent_append, extent_cons, extent_nil, Segment.size]
        omega
      rw [copyLoop, if_pos (by omega)]
      refine fitted_after (reads_readSegment _ _ _) chained.read (fitted_after (reads_copyExpires _ _ _ _) expiry ?_)
      rw [info_at_header, info_at_body, place]
      cases gone : dropped filter cutoff segment with
      | true =>
          have same : copied filter cutoff (segment :: rest) = copied filter cutoff rest := by simp [copied, gone]
          rw [same] at below apart
          rw [copyUnless, if_pos rfl]
          exact fitted_after (reads_pure _) rfl (ih (by rw [← joined]; exact chained) (by rw [← joined]; exact whole)
            (by omega) copying (by omega) below apart)
      | false =>
          have split : copied filter cutoff (segment :: rest) = segment :: copied filter cutoff rest := by
            simp [copied, gone]
          rw [split, extent_cons] at below apart
          have held := chained.segment_held
          obtain ⟨middle, copy₁, run₁, copying₁, _, database₁⟩ := copy_segment (bears_anywhere target databaseCapacity)
            trivial held (info_at_header root (done ++ segment :: rest) done.length segment) rfl rfl rfl copying (by omega)
            (by omega) (by omega) (by omega)
          have chained₁ : Chained middle root limit (done ++ segment :: rest) :=
            chained_write chained (by rw [copyImage, Segment.image_length]; omega) database₁
          have grown : extent (kept ++ [segment]) = extent kept + segment.size := by simp
          have more : (kept ++ [segment]).length = kept.length + 1 := by simp
          rw [copyUnless, if_neg (by simp)]
          exact fitted_bind run₁ (copy_segment_fitted held rfl rfl rfl copying (by omega) above (by omega) (by omega))
            (ih (by rw [← joined]; exact chained₁) (by rw [← joined]; exact whole) (by omega) copying₁ (by omega)
              (by omega) (by omega))

/-- Whatever a copy keeps fits where it is copied to. -/
theorem copy_segments_fitted {root target cutoff : Nat} {filter : Bool} {segments : List Segment}
    (chained : Chained store root limit segments) (whole : limit = root + extent segments) (above : 160 ≤ target)
    (below : target + extent (copied filter cutoff segments) ≤ databaseCapacity)
    (apart : limit ≤ target ∨ target + extent (copied filter cutoff segments) ≤ root) :
    Fitted (copySegments root limit target filter cutoff) store := by
  have chained' : Chained store root limit ([] ++ segments) := chained
  have loop := @copy_loop_fitted store limit root target cutoff (limit - root) filter [] segments [] _ chained' whole
    (by omega) (copying_start target) (Nat.le_refl _) above (by simpa using below) (by simpa using apart)
  obtain ⟨after, copy, runs, _⟩ := copy_loop (bears_anywhere target databaseCapacity) trivial chained' whole
    (show extent segments ≤ limit - root by omega) (copying_start target) (Nat.le_refl _) (Nat.le_refl _)
    (by simpa using below) (by simpa using apart)
  exact fitted_bind runs loop (fitted_sync_bind (fitted_pure _))

end Copying

section Retentions
variable {store : Store} {db : Batches} {identity : Bytes} {content : Content} {m : Manifests} {cutoff : Nat}

theorem publish_fitted {state : RetentionState} {root phase : Nat}
    (able : Retainable content (state.revision + 1) root phase)
    (held : Holds (store.content .database) root (chain root [] content.segments))
    (fits : root + extent content.segments ≤ (store.content .database).length) :
    Fitted (publishRetention state content.segments.length (root + extent content.segments) content.installed
      content.installedTime (linkTo root content.segments content.segments.length) root phase) store := by
  have bound := able.revision
  unfold publishRetention
  rw [if_neg (by omega)]
  exact fitted_write_bind (retained_fits able held fits) (fitted_sync_bind (fitted_pure _))

theorem back_fitted (synced : Synced store) (wide : identity.length = 16)
    (kept : Kept False (store.content .database) identity content m) (able : m.state.revision + 2 ≤ uint64Max) :
    Fitted (copyBack m.state m.generation m.dataEnd m.last content.installedTime
      (linkTo m.state.root content.segments content.segments.length)) store := by
  have place := kept.bounded.place
  have root := kept.bounded.low
  have room := content.room
  have extentEq := kept.installed.extent
  have whole := copied_none 0 content.segments
  unfold copyBack
  by_cases two : m.state.phase = 2
  · rw [if_pos two] at place ⊢
    obtain ⟨first, copy, _, _, kept₁, held₁, length₁⟩ := @copy_stage False (fun _ _ => True) store identity content m
      160 0 false synced wide kept (fun _ _ => trivial) (Nat.le_refl 160) kept.long (.inr (by rw [whole]; omega))
    rw [whole] at copy held₁ length₁
    have able' : Retainable content (m.state.revision + 1) 160 3 :=
      ⟨by omega, by omega, by omega, by omega, room, rfl⟩
    have move : Fitted (copySegments m.state.root m.dataEnd 160 false 0) store :=
      copy_segments_fitted kept.installed.chained extentEq (Nat.le_refl _) (by rw [whole]; exact room)
        (.inr (by rw [whole]; omega))
    refine fitted_bind copy move ?_
    rw [kept.installed.generation, kept.installed.last]
    exact fitted_then (publish_fitted able' held₁ length₁) fun _ => reads_pure _
  · rw [if_neg two]
    exact fitted_pure _

/-- The recovery of an interrupted retention. -/
theorem finish_fitted (synced : Synced store) (wide : identity.length = 16)
    (kept : Kept False (store.content .database) identity content m) (busy : m.state.phase ≠ 0)
    (able : m.state.revision + 2 ≤ uint64Max) :
    Fitted (finishRetention m.state m.generation m.dataEnd m.last content.installedTime
      (linkTo m.state.root content.segments content.segments.length)) store := by
  have room := content.room
  have longer := cut_length_ge content
  obtain ⟨first, m', back, _, _, kept₁, root, _, _, low, high⟩ := @back_runs False (fun _ _ => True) store identity content
    m synced wide kept busy able (fun no => no.elim) fun _ _ => trivial
  have extentEq := kept₁.installed.extent
  rw [root] at extentEq
  have able' : Retainable content (m'.state.revision + 1) 160 0 :=
    ⟨by omega, by omega, by omega, by omega, room, rfl⟩
  have cut : cutLength content ≤ databaseCapacity := by
    unfold cutLength
    split
    · decide
    · exact room
  unfold finishRetention
  rw [kept.installed.generation, kept.installed.last] at back ⊢
  refine fitted_after (reads_require _ _) (by rw [on_require, if_pos (by omega)]) (fitted_bind back ?_ ?_)
  · have fitted := back_fitted synced wide kept able
    rwa [kept.installed.generation, kept.installed.last] at fitted
  · refine fitted_truncate_bind cut (fitted_sync_bind (fitted_then (publish_fitted able' ?_ ?_) fun _ => reads_pure _))
    · have fits : m'.dataEnd ≤ cutLength content := extentEq.trans_le longer
      have held := (kept₁.resize wide fits).installed.held
      rw [root] at held
      rw [content_sync, content_update_same]
      exact held
    · rw [content_sync, content_update_same]
      exact Nat.le_trans longer (Nat.le_of_eq (resize_length _ _).symm)

/-- The three phases of an expiration. -/
theorem relocate_fitted (synced : Synced store) (wide : identity.length = 16)
    (kept : Kept False (store.content .database) identity content m) (root : m.state.root = 160)
    (room : content.dataEnd + extent (content.kept cutoff) ≤ databaseCapacity) (bound : m.state.revision + 5 ≤ uint64Max)
    (phase : m.state.phase = 0) (tracks : Tracks db content) (revision : db.revision = m.state.revision)
    (retention : db.retention = m.state.enabled) :
    Fitted (relocate db (content.kept cutoff).length cutoff) store := by
  have extentEq := kept.installed.extent
  have held := kept.installed.held
  have whole := content.room
  have sized : extent (content.kept cutoff) ≤ extent content.segments := extent_filter _ _
  have fits := kept.bounded.size
  rw [root] at extentEq held
  rw [extentEq] at fits
  have able₁ : Retainable content (m.state.revision + 1) 160 1 :=
    ⟨by omega, by omega, by omega, by omega, whole, rfl⟩
  obtain ⟨first, publish₁, synced₁, _, _, stored₁, _⟩ := @publish_stage False (fun _ _ => True) store identity content m
    content 160 1 synced wide kept (installed_retained kept.installed.pair held able₁) fits able₁ fun _ _ _ => trivial
  obtain ⟨second, copy, synced₂, _, kept₂, held₂, length₂⟩ := @copy_stage False (fun _ _ => True) first identity content
    _ content.dataEnd cutoff true synced₁ wide (stored_kept stored₁) (fun _ _ => trivial)
    (by simp only [Content.dataEnd]; omega) stored₁.fits (.inl (Nat.le_refl _))
  have chained := stored₁.installed.chained
  rw [copied_kept] at copy held₂ length₂
  have able₂ : Retainable (content.expire cutoff) (m.state.revision + 1 + 1) content.dataEnd 2 := by
    refine ⟨by omega, by omega, by omega, ?_, room, ?_⟩
    · simp only [Content.dataEnd]
      omega
    · change extent (content.kept cutoff) ≤ content.dataEnd - 160
      simp only [Content.dataEnd]
      omega
  obtain ⟨third, publish₂, synced₃, _, _, stored₃, _⟩ := @publish_stage False (fun _ _ => True) second identity content _
    (content.expire cutoff) content.dataEnd 2 synced₂ wide kept₂
    (installed_retained kept₂.installed.pair held₂ able₂) length₂ able₂ fun _ _ _ => trivial
  have state : (⟨m.state.revision, 160, 0, m.state.enabled⟩ : RetentionState) = m.state := by
    rw [← root, ← phase]
  unfold relocate
  rw [revision, retention, state, tracks.generation, tracks.dataEnd, tracks.installed, tracks.installedTime,
    tracks.lastSegment]
  have freeze : Fitted _ store := publish_fitted able₁ held fits
  have move : Fitted (copySegments 160 content.dataEnd content.dataEnd true cutoff) first :=
    copy_segments_fitted chained rfl (by simp only [Content.dataEnd]; omega) (by rw [copied_kept]; exact room)
      (.inl (Nat.le_refl _))
  have switch := @publish_fitted second (content.expire cutoff) ⟨m.state.revision + 1, 160, 1, true⟩ content.dataEnd 2
    able₂ held₂ length₂
  have finish := finish_fitted synced₃ wide (stored_kept stored₃) (by simp [retained]) (by simp only [retained]; omega)
  exact fitted_bind publish₁ freeze (fitted_bind copy move (fitted_bind publish₂ switch finish))

end Retentions

section Calls
variable {store : Store} {db : Batches} {identity : Bytes} {content : Content} {m : Manifests} {scratchSize : Nat}

theorem append_fitted (serving : Serving store db identity content m) (records : List Record) :
    Sanctions device Fits (batchesAppend db records scratchSize) store := by
  rw [append_cases serving]
  cases refusal : appendRefusal content records scratchSize with
  | some error => exact sanctions_done
  | none =>
      obtain ⟨batch, rfl, accepted⟩ := accepted_of_none refusal
      have space := accepted.space
      have place := serving.tracks.walEnd
      simp only [Batch.size] at space
      refine sanctions_attempt ?_ fun _ _ => sanctions_done
      unfold writeFrame
      refine fitted_write_bind ⟨?_, _, batch, .inl rfl⟩
        (fitted_sync_bind (fitted_write_bind ⟨?_, _, batch, .inr rfl⟩ (fitted_sync _)))
      · rw [frame_body_length]
        omega
      · rw [frame_body_length, frame_commit_length]
        omega

theorem install_frames_fitted {limit destination fuel offset sequence : Nat} {batches : List Batch}
    (held : Holds (store.content .wal) offset (frames (sequence + 1) batches)) (start : 32 ≤ offset)
    (whole : limit = offset + framesSize batches) (enough : framesSize batches ≤ fuel)
    (below : destination + (offset - 32) + framesSize batches ≤ databaseCapacity)
    (small : sequence + batches.length < 18446744073709551616) :
    Fitted (installFrames limit destination fuel offset sequence) store := by
  induction batches generalizing store fuel offset sequence with
  | nil =>
      cases fuel with
      | zero => exact fitted_pure _
      | succ fuel =>
          rw [installFrames, if_neg (by simp [whole])]
          exact fitted_pure _
  | cons batch rest ih =>
      have least := batch.size_ge
      rw [frames_size_cons] at whole enough below
      rw [List.length_cons] at small
      obtain ⟨fuel, rfl⟩ : ∃ k, fuel = k + 1 := ⟨fuel - 1, by omega⟩
      rw [frames_cons, holds_append, frame_length] at held
      have read := complete_frame held.1 (show offset + batch.size ≤ limit by omega) (by omega)
      have step : batch.size = 64 + batch.records.length * 20 := rfl
      rw [installFrames, if_pos (by omega), next64_eq (by omega)]
      refine fitted_after (reads_complete (reads_readFrame _ _ _ _)) read (fitted_write_bind (frame_fits (by omega)) ?_)
      rw [frame_of_length]
      refine ih ?_ (by omega) (by omega) (by omega) (by omega) (by omega)
      rw [content_update_database, step]
      exact held.2

/-- The manifest of a checkpoint, behind its segment. -/
theorem new_manifest_fits (some : content.pending ≠ [])
    (space : content.dataEnd + (64 + framesSize content.pending) ≤ databaseCapacity)
    (installed : Installed (store.content .database) identity (content.checkpoint some space) (nextManifests content m))
    (plain : m.state.enabled = false → m.state.revision = content.segments.length) (more : m.state.revision < uint64Max)
    (fits : newEnd content ≤ (store.content .database).length) :
    Fits (.write .database (slotOffset (m.state.revision + 1)) (newManifest content m)) store := by
  have exact := new_manifest_accepted some plain more space fits
  have describes : Describes store 160 (content.segments.length + 1) (newEnd content) content.dataEnd :=
    ⟨_, installed.chained, installed.extent, installed.generation, installed.tail rfl⟩
  refine ⟨slot_room _ _ new_manifest_length, ?_⟩
  obtain ⟨_, ⟨accepted, shape⟩ | ⟨g, d, l, accepted, shape⟩⟩ := slot_cases exact
  · have enabled : m.state.enabled = true := congrArg (fun m => m.state.enabled) shape
    simp only [newManifest, nextManifests, enabled, if_true] at exact accepted ⊢
    exact .retention _ _ _ _ _ _ _ _ accepted exact describes
  · have disabled : m.state.enabled = false := congrArg (fun m => m.state.enabled) shape
    have revision := plain disabled
    have fields : (content.segments.length + 1, newEnd content, content.high) = (g, d, l) :=
      congrArg (fun m => (m.generation, m.dataEnd, m.last)) shape
    rw [← fields] at accepted
    simp only [newManifest, nextManifests, disabled, revision, Bool.false_eq_true, if_false] at exact accepted ⊢
    exact .install _ _ _ _ _ accepted exact describes

theorem install_fitted (serving : Serving store db identity content m) (modern : m.legacy = false)
    (some : content.pending ≠ []) (more : m.state.revision ≠ uint64Max)
    (space : content.dataEnd + (64 + framesSize content.pending) ≤ databaseCapacity) {poisoned : Batches}
    (tracks : Tracks poisoned content) (revision : poisoned.revision = m.state.revision)
    (retention : poisoned.retention = m.state.enabled) :
    Fitted (installSegment poisoned (skipLink content)) store := by
  have count := serving.chained.count_lt
  have numbered := content.numbered
  simp only [uint64Max] at numbered
  have body : content.walEnd - 32 = framesSize content.pending := by
    simp only [Content.walEnd]
    omega
  obtain ⟨middle, after, header, copied, _, database⟩ :=
    write_segment (bears_anywhere content.dataEnd _) trivial tracks some serving.frames_held
  have installed := installed_checkpoint serving.installed serving.wide serving.current serving.root some space
  have room := @with_segment_holds store content m some
  rw [withSegment, upgraded_modern modern, ← database] at installed room
  have front : Fits (.write .database poisoned.dataEnd (encodeSegment (poisoned.installed + 1) poisoned.sequence
      (poisoned.walEnd - 32) poisoned.walMinimum poisoned.walMaximum poisoned.lastSegment (skipLink content)
      poisoned.walOrdered)) store := by
    rw [install_header tracks some, tracks.dataEnd]
    refine header_fits (Nat.le_refl _) (by omega) ?_ ⟨.wal, 32, serving.frames_held⟩
    rw [content.pending_segment_size some]
    exact space
  have frames : Fitted (installFrames poisoned.walEnd (poisoned.dataEnd + 64) (poisoned.walEnd - 32) 32
      poisoned.installed) middle := by
    have same : middle.content .wal = store.content .wal := by
      have written : _ = middle := congrArg Prod.snd ((on_write_exact _ _ _ _).symm.trans header.on_eq)
      rw [← written, content_update_database]
    rw [tracks.walEnd, tracks.dataEnd, tracks.installed, body]
    have held : Holds (middle.content .wal) 32 (frames (content.installed + 1) content.pending) := by
      rw [same]
      exact serving.frames_held
    exact install_frames_fitted held (Nat.le_refl _) rfl (Nat.le_refl _) (by omega) (by omega)
  have manifest : checkpointManifest poisoned (poisoned.dataEnd + 64 + (poisoned.walEnd - 32)) poisoned.sequence =
      newManifest content m := by
    rw [tracks.walEnd, body, checkpointManifest, newManifest, retention, revision, tracks.generation, tracks.sequence,
      tracks.lastTime, tracks.dataEnd]
    rfl
  have publish := @new_manifest_fits (after.sync .database) identity content m some space
    (by rw [content_sync]; exact installed) (plain_revision serving) (revision_bound serving more)
    (by rw [content_sync]; exact room)
  unfold installSegment
  refine fitted_bind header (fitted_write front) (fitted_bind copied frames ?_)
  refine fitted_after (reads_require _ _) (by rw [on_require, if_pos rfl]) (fitted_sync_bind ?_)
  rw [manifest, revision]
  exact fitted_write_bind publish (fitted_sync_bind (fitted_pure _))

theorem reclaim_fitted : Fitted reclaimWal store :=
  fitted_truncate_bind (by decide : 32 ≤ walCapacity) (fitted_sync _)

theorem checkpoint_fitted (serving : Serving store db identity content m) (modern : m.legacy = false) :
    Sanctions device Fits (batchesCheckpoint db scratchSize) store := by
  cases refusal : checkpointRefusal content m scratchSize with
  | some error =>
      rw [checkpoint_refused serving refusal]
      exact sanctions_done
  | none =>
      by_cases some : content.pending = []
      · rw [checkpoint_nothing serving refusal some]
        exact sanctions_done
      obtain ⟨large, more, space⟩ := checkpoint_bounds refusal some
      have tracks := serving.tracks
      have body : content.walEnd - 32 = framesSize content.pending := by
        simp only [Content.walEnd]
        omega
      have modern' : db.legacy = false := serving.legacy.trans modern
      unfold batchesCheckpoint
      rw [serving.read_arguments, if_neg (by omega)]
      simp only
      rw [if_neg (by rw [tracks.walEnd, wal_end_fresh]; exact some), if_neg (by rw [serving.revision]; exact more),
        if_neg (by rw [tracks.walEnd, body, tracks.dataEnd]; omega)]
      refine sanctions_reads (reads_checkpointLinks db) (checkpoint_links serving) ?_
      simp only [upgradeLegacy, modern', Bool.false_eq_true, if_false]
      refine sanctions_reads (reads_pure ()) rfl (sanctions_attempt ?_ fun _ _ =>
        sanctions_attempt reclaim_fitted fun _ _ => sanctions_done)
      exact install_fitted serving modern some more space { tracks with } serving.revision serving.retention

theorem expire_fitted {cutoff : Nat} (serving : Serving store db identity content m)
    (kept : Kept False (store.content .database) identity content m) :
    Sanctions device Fits (batchesExpireBefore db cutoff scratchSize) store := by
  have tracks := serving.tracks
  have room := content.room
  unfold batchesExpireBefore
  rw [serving.read_arguments]
  by_cases small : scratchSize < batchScratch
  · rw [if_pos small]
    exact sanctions_done
  rw [if_neg small]
  refine sanctions_reads (reads_surveySegments _ _ _ _ _) (survey_kept serving) ?_
  by_cases all : (surveyOf content cutoff).segments = db.generation
  · rw [if_pos all]
    exact sanctions_done
  rw [if_neg all]
  by_cases full : (surveyOf content cutoff).bytes > databaseCapacity - db.dataEnd
  · rw [if_pos full]
    exact sanctions_done
  rw [if_neg full]
  by_cases top : db.revision > uint64Max - 5
  · rw [if_pos top]
    exact sanctions_done
  rw [if_neg top]
  rw [tracks.generation] at all
  rw [tracks.dataEnd] at full
  rw [serving.revision] at top
  simp only [surveyOf] at all full
  refine sanctions_attempt ?_ fun _ _ => sanctions_attempt (fitted_reads (reads_checkSegments _ _ _ _ _ _ _)) fun _ _ =>
    sanctions_attempt (fitted_reads (reads_relocateCursor _ _ _)) fun _ _ => sanctions_done
  refine relocate_fitted serving.synced serving.wide kept serving.root
    (by simp only [Content.dataEnd] at *; omega) (by simp only [uint64Max] at *; omega) serving.phase { tracks with }
    serving.revision serving.retention

end Calls

section Opening
variable {store : Store} {db : Batches} {identity : Bytes} {content : Content} {m : Manifests} {mode : OpenMode}
  {scratchSize : Nat}

theorem recover_fitted {v : Validated} {size : Nat} (read : Read content m size v) (wide : identity.length = 16)
    (stored : Stored (store.content .database) identity content m)
    (able : m.state.phase ≠ 0 → m.state.revision + 2 ≤ uint64Max) : Fitted (recoverPair v) store := by
  have fits := content.fits
  have finish : Fitted (finishPair v) ((store.sync .database).sync .wal) := by
    unfold finishPair
    rw [read_manifests read, read_checked read]
    by_cases idle : m.state.phase = 0
    · rw [if_neg (not_not.mpr idle)]
      exact fitted_pure _
    · rw [if_pos idle]
      refine finish_fitted (synced_of_syncs store) wide ?_ idle (able idle)
      rw [content_sync, content_sync]
      exact stored_kept stored
  unfold recoverPair
  refine @fitted_bind _ _ Anywhere _ _ _ _ _ (runs_provision _ trivial trivial) (fitted_perform trivial)
    (@fitted_bind _ _ Anywhere _ _ _ _ _ (runs_provision _ trivial trivial) (fitted_perform trivial) ?_)
  refine fitted_seq finish fun finished middle => ?_
  rw [read_wal_offset read]
  split
  · exact fitted_truncate_bind fits (fitted_sync_bind (fitted_pure _))
  · exact fitted_pure _

/-- What open does behind the acquisition of a pair that holds a content. -/
theorem recovery_fitted (wide : identity.length = 16) (held : Held identity content (store.content .database))
    (replays : Replays False identity content (store.content .wal)) :
    Fitted (do let v ← validatePair; recoverPair v : Io Batches) store := by
  obtain ⟨m, stored, slack, bound⟩ := held
  have found := selected_chosen stored.current
  rcases replays_cases replays with clean | ⟨tail, logged, stuck⟩
  · obtain ⟨v, ran, read⟩ := validate_replays wide stored.installed found slack clean
    refine fitted_after reads_validatePair ran (recover_fitted read wide stored fun busy => ?_)
    have phases := (selected_bounds stored.current).phase
    have room := bound busy
    omega
  · exact fitted_fails reads_validatePair (validate_stuck wide stored.installed found logged stuck)

theorem sanctions_close {α : Type} {file : File} {next : Reply (.close file) → Prog Reply α}
    (rest : ∀ reply middle, Sanctions device Fits (next reply) middle) :
    Sanctions device Fits (.ask (.close file) next) store :=
  sanctions_ask trivial (fun reply middle _ => rest reply middle) (rest _ _)

theorem release_fitted (owned : Owned) : Sanctions device Fits (release owned) store := by
  obtain ⟨database, wal⟩ := owned
  cases database <;> cases wal
  · exact sanctions_done
  · exact sanctions_close fun _ _ => sanctions_done
  · exact sanctions_close fun _ _ => sanctions_done
  · exact sanctions_close fun _ _ => sanctions_close fun _ _ => sanctions_done

theorem fail_open_fitted (owned : Owned) (error : Error) : Sanctions device Fits (failOpen db owned error) store :=
  sanctions_bind (release_fitted owned) fun _ _ _ => sanctions_done

-- Both files exist: a request for one of them is answered, or fails otherwise.
theorem acquire_fitted {P : Bytes → Bytes → Prop} (safe : Safe P store) : Sanctions device Fits (acquire mode) store := by
  have served : ∀ file, device.serve (.open file) store = (.ok (), store) := open_served safe
  unfold acquire
  split
  · unfold createPair
    refine sanctions_ask trivial (fun reply middle fault => ?_) (by rw [served]; exact sanctions_done)
    cases fault with
    | before call store code known =>
        simp only [ne_eq, known.1, not_false_eq_true, if_true]
        exact sanctions_done
  · refine sanctions_ask trivial (fun reply middle fault => ?_) (by rw [served]; exact sanctions_done)
    cases fault with
    | before call store code known =>
        simp only [known.1, false_and, if_false]
        exact sanctions_done

theorem companion_fitted : Sanctions device Fits openCompanion store := by
  have front : Fitted (do fileLock .database; let _ ← pairHeader .database databaseMagic : Io Unit) store :=
    fitted_reads (reads_bind (reads_lock _) fun _ => reads_bind (reads_pairHeader _ _) fun _ => reads_pure _)
  refine sanctions_bind front fun result middle _ => ?_
  cases result with
  | error error => exact sanctions_done
  | ok value =>
      refine sanctions_ask trivial (fun reply last _ => ?_) ?_
      · cases reply <;> exact sanctions_done
      · cases (device.serve (.open .wal) middle).1 <;> exact sanctions_done

theorem open_fitted {P : Bytes → Bytes → Prop} (safe : Safe P store) (wide : identity.length = 16)
    (held : Held identity content (store.content .database))
    (replays : Replays False identity content (store.content .wal)) :
    Sanctions device Fits (batchesOpen db mode scratchSize) store := by
  by_cases closed : db.database = false ∧ db.wal = false
  case neg =>
    rw [open_held (by simpa [or_iff_not_imp_left] using closed)]
    exact sanctions_done
  by_cases small : scratchSize < batchScratch
  · rw [open_small closed small]
    exact sanctions_done
  rw [open_acquires closed (Nat.le_of_not_lt small)]
  by_cases create : mode = .createNew
  · subst create
    refine Does.sanctions (acquire_new safe) (acquire_fitted safe) ?_ (fail_open_fitted _ _)
    rintro ⟨result, owned⟩ state ⟨error, failed⟩
    simp only at failed
    subst failed
    exact fail_open_fitted _ _
  · refine Does.sanctions (acquire_does safe create) (acquire_fitted safe) ?_ ?_
    · rintro ⟨result, owned⟩ state ⟨error, failed⟩
      simp only at failed
      subst failed
      exact fail_open_fitted _ _
    simp only [Bool.false_eq_true, if_false]
    obtain ⟨m, stored, _⟩ := held
    refine Does.sanctions (companion_does safe (pair_header stored.installed.pair (by decide) wide)) companion_fitted ?_
      (sanctions_bind (recovery_fitted wide ⟨m, stored, by assumption⟩ replays) fun result middle _ => ?_)
    · rintro ⟨result, owned⟩ state ⟨error, failed⟩
      simp only at failed
      subst failed
      exact fail_open_fitted _ _
    · cases result with
      | error error => exact fail_open_fitted _ _
      | ok handle => exact sanctions_done

end Opening

section Runs
variable {host host' : Host} {identity : Bytes} {act : Act}

/-- The four differences of the handle's fields do not wrap, and what is cast to `uint32_t` is small enough. -/
structure Measured (db : Batches) : Prop where
  walEnd : 32 ≤ db.walEnd ∧ db.walEnd ≤ walCapacity
  dataEnd : 160 ≤ db.dataEnd ∧ db.dataEnd ≤ databaseCapacity
  sequence : db.installed ≤ db.sequence ∧ sub64 db.sequence db.installed = db.sequence - db.installed
  body : db.walEnd - 32 < 4294967296
  tail : db.lastSegment < 4294967296
  generation : db.generation + 1 < 4294967296

theorem tracks_measured {db : Batches} {content : Content} (tracks : Tracks db content) : Measured db := by
  have fits := content.fits
  have room := content.room
  have numbered := content.numbered
  have least := extent_ge content.segments
  have below : db.lastSegment ≤ 160 + extent content.segments := by
    rw [tracks.lastSegment]
    by_cases none : content.segments.length = 0
    · rw [none]
      exact Nat.zero_le _
    · exact Nat.le_of_lt (link_lt (Nat.le_refl _) none)
  have high : content.high = content.installed + content.pending.length := rfl
  refine ⟨?_, ?_, ?_, ?_, ?_, ?_⟩
  · rw [tracks.walEnd]
    exact ⟨Nat.le_add_right _ _, fits⟩
  · rw [tracks.dataEnd]
    exact ⟨Nat.le_add_right _ _, room⟩
  · rw [tracks.sequence, tracks.installed]
    exact ⟨by omega, sub64_eq (by omega) (by omega)⟩
  · rw [tracks.walEnd]
    simp only [walCapacity] at fits
    simp only [Content.walEnd]
    omega
  · simp only [databaseCapacity] at room
    omega
  · rw [tracks.generation]
    simp only [databaseCapacity] at room
    omega

theorem measured_init : Measured batchesInit := by
  refine ⟨?_, ?_, ?_, ?_, ?_, ?_⟩ <;> decide

theorem answering_fitted {α : Type} {answer : α → Answer} {call : Op α} {store : Store}
    (fitted : Sanctions device Fits call store) : Sanctions device Fits (answering answer call) store :=
  sanctions_bind fitted fun _ _ _ => sanctions_done

theorem observes_fitted {α : Type} {answer : α → Answer} {call : Op α} {failed : Except Error α × Batches → Prop}
    {store : Store} (observes : Observes device failed call) : Sanctions device Fits (answering answer call) store :=
  answering_fitted (observes.sanctions fun _ _ quiet => fits_quiet (quiet_request quiet))

theorem sanctions_ite {α : Type} {condition : Prop} [Decidable condition] {yes no : Op α} {store : Store}
    (first : Sanctions device Fits yes store) (second : Sanctions device Fits no store) :
    Sanctions device Fits (if condition then yes else no : Op α) store := by
  split
  · exact first
  · exact second

theorem close_fitted (db : Batches) (store : Store) : Sanctions device Fits (batchesClose db) store := by
  unfold batchesClose
  refine sanctions_ite sanctions_done (sanctions_ite (sanctions_close fun reply middle => ?_) (sanctions_ite
    (sanctions_close fun reply middle => ?_) sanctions_done))
  · cases reply with
    | ok value =>
        refine sanctions_ite (sanctions_close fun reply _ => ?_) sanctions_done
        cases reply <;> exact sanctions_done
    | error code =>
        refine sanctions_ite (sanctions_close fun reply _ => ?_) sanctions_done
        cases reply <;> exact sanctions_done
  · cases reply <;> exact sanctions_done

/-- Every call on a host that holds a content makes requests that fit only. -/
theorem sound_fitted {φ : Content → Prop} (sound : Sound φ identity host) :
    Sanctions device Fits (act.perform host.db) host.store := by
  by_cases close : act = .close
  · subst close
    exact answering_fitted (close_fitted _ _)
  cases sound with
  | down unready wide safe =>
      by_cases reopen : ∃ mode scratchSize, act = .openPair mode scratchSize
      · obtain ⟨mode, scratchSize, rfl⟩ := reopen
        obtain ⟨content, _, held, replays⟩ := safe.content
        exact answering_fitted (open_fitted safe wide held replays)
      · obtain ⟨error, call⟩ := unready_refused unready close fun mode scratchSize same => reopen ⟨mode, scratchSize, same⟩
        rw [call]
        exact sanctions_done
  | live v holds live =>
      have serving := live.settled.serving
      have modern := (selected_bounds live.stored.current).modern
      cases act with
      | openPair mode scratchSize =>
          refine answering_fitted ?_
          rw [open_held (.inl live.settled.tracks.database)]
          exact sanctions_done
      | close => exact absurd rfl close
      | append records scratchSize => exact answering_fitted (append_fitted serving records)
      | checkpoint scratchSize => exact answering_fitted (checkpoint_fitted serving modern)
      | expireBefore cutoff scratchSize => exact answering_fitted (expire_fitted serving (stored_kept live.stored))
      | next capacity scratchSize => exact observes_fitted (observes_next _ _ _)
      | nextRange range capacity scratchSize => exact observes_fitted (observes_next_range _ _ _ _)
      | seek from_us scratchSize => exact observes_fitted (observes_seek _ _ _)
      | aggregateRange range scratchSize => exact observes_fitted (observes_aggregate _ _ _)
      | rewind => exact sanctions_done
      | getStatus => exact sanctions_done

section Poison
variable {α β : Type} {db : Batches} {scratchSize : Nat}

/-- If the call poisons its handle, the handle stays measured. -/
def Marks (result : Except Error α × Batches) : Prop := result.2.failed = true → Measured result.2

theorem marks_refuse {error : Error} (measured : Measured db) : Prog.Every Marks (refuse db error : Op α) :=
  fun _ => measured

theorem marks_attempt {step : Io α} {next : α → Op β} {holds : α → Prop} (measured : Measured db)
    (every : Prog.Every (fun result => ∀ value, result = .ok value → holds value) step)
    (rest : ∀ value, holds value → Prog.Every Marks (next value)) : Prog.Every Marks (attempt db step next) := by
  refine every_bind every fun result found => ?_
  cases result with
  | error error => exact marks_refuse measured
  | ok value => exact rest value (found value rfl)

theorem every_any (step : Io α) : Prog.Every (fun result => ∀ value, result = .ok value → True) step :=
  every_mono (every_true step) fun _ _ _ _ => trivial

theorem marks_append (records : List Record) (measured : Measured db) :
    Prog.Every Marks (batchesAppend db records scratchSize) := by
  unfold batchesAppend
  split
  · exact marks_refuse measured
  split
  · exact marks_refuse measured
  split
  · exact marks_refuse measured
  split
  · exact marks_refuse measured
  split
  · exact marks_refuse measured
  split
  · exact marks_refuse measured
  exact marks_attempt { measured with } (every_any _) fun _ _ sound => (by cases sound)

theorem every_next {first : Io α} {next : α → Io β} {holds : β → Prop}
    (rest : ∀ value, Prog.Every (fun result => ∀ value, result = .ok value → holds value) (next value)) :
    Prog.Every (fun result => ∀ value, result = .ok value → holds value) (first >>= next : Io β) := by
  refine every_bind (every_true first) fun result _ => ?_
  cases result with
  | error error => exact fun _ same => by cases same
  | ok value => exact rest value

-- The source checks the sequence it has reached before it publishes.
theorem every_install (skip : Nat) :
    Prog.Every (fun result => ∀ sequence, result = .ok sequence → sequence = db.sequence) (installSegment db skip) := by
  unfold installSegment
  refine every_next fun _ => every_next fun sequence => ?_
  by_cases same : sequence = db.sequence
  · exact every_next fun _ => every_next fun _ => every_next fun _ => every_next fun _ result found => by
      cases found
      exact same
  · rw [Io.require, if_neg same]
    exact fun _ found => by cases found

theorem installed_measured (measured : Measured db) (few : db.generation + 2 < 4294967296)
    (space : ¬ db.walEnd - 32 + 64 > databaseCapacity - db.dataEnd) (priorMax : Nat) :
    Measured (installedHandle db priorMax db.sequence) where
  walEnd := measured.walEnd
  dataEnd := by
    have data := measured.dataEnd
    simp only [installedHandle]
    omega
  sequence := by
    simp only [installedHandle, sub64]
    omega
  body := measured.body
  tail := by
    have data := measured.dataEnd.2
    simp only [databaseCapacity] at data
    simp only [installedHandle]
    omega
  generation := few

theorem marks_checkpoint (measured : Measured db) (few : db.generation + 2 < 4294967296) :
    Prog.Every Marks (batchesCheckpoint db scratchSize) := by
  unfold batchesCheckpoint
  split
  · exact marks_refuse measured
  split
  · exact fun _ => measured
  split
  · exact marks_refuse measured
  split
  · exact marks_refuse measured
  rename_i space
  refine marks_attempt measured (every_any _) fun _ _ => marks_attempt { measured with } (every_any _) fun _ _ =>
    marks_attempt { measured with } (every_install _) fun sequence same => marks_attempt ?_ (every_any _) fun _ _ sound =>
      (by cases sound)
  rw [show sequence = db.sequence from same]
  have flags : Measured { db with failed := true, legacy := false } := { measured with }
  exact installed_measured flags few space _

theorem marks_expire (cutoff : Nat) (measured : Measured db) :
    Prog.Every Marks (batchesExpireBefore db cutoff scratchSize) := by
  unfold batchesExpireBefore
  split
  · exact marks_refuse measured
  -- What the survey is does not matter.
  generalize surveySegments db.dataEnd cutoff (db.dataEnd - 160) 160 ⟨0, 0, 0⟩ = step
  refine marks_attempt measured (every_any step) fun survey _ => ?_
  split
  · exact fun _ => measured
  split
  · exact marks_refuse measured
  split
  · exact marks_refuse measured
  exact marks_attempt { measured with } (every_any _) fun _ _ => marks_attempt { measured with } (every_any _) fun _ _ =>
    marks_attempt { measured with } (every_any _) fun _ _ sound => (by cases sound)

end Poison

theorem marks_answering {α : Type} {answer : α → Answer} {call : Op α} (every : Prog.Every Marks call) :
    Prog.Every Marks (answering answer call) := every_bind every fun _ marks => marks

-- A failure that poisons the handle comes from one of the three writers.
theorem poisoned_measured {v : View} {result : Except Error Answer}
    (live : Live host.store host.db identity v.content v.m v.position) (close : act ≠ .close)
    (execution : Exec device (act.perform host.db) host.store (some (result, host'.db)) host'.store)
    (failed : host'.db.failed = true) : Measured host'.db := by
  have measured := tracks_measured live.settled.tracks
  have count := live.settled.serving.chained.count_lt
  have few : host.db.generation + 2 < 4294967296 := by
    rw [live.settled.tracks.generation]
    omega
  by_cases reading : Poisoning.ReadOnly act = true
  · obtain ⟨requests, issued⟩ := exec_issues device execution
    obtain ⟨same, _⟩ := read_only_gentle reading issued
    rw [same, live.settled.ready] at failed
    cases failed
  cases act with
  | append records scratchSize => exact (marks_answering (marks_append records measured)).exec execution _ rfl failed
  | checkpoint scratchSize => exact (marks_answering (marks_checkpoint measured few)).exec execution _ rfl failed
  | expireBefore cutoff scratchSize => exact (marks_answering (marks_expire cutoff measured)).exec execution _ rfl failed
  | openPair mode scratchSize =>
      have refused := @open_held host.db mode scratchSize (.inl live.settled.tracks.database)
      rw [Act.perform, refused] at execution
      exact (marks_answering (marks_refuse measured)).exec execution _ rfl failed
  | close => exact absurd rfl close
  | next capacity scratchSize => exact absurd rfl reading
  | nextRange range capacity scratchSize => exact absurd rfl reading
  | seek from_us scratchSize => exact absurd rfl reading
  | aggregateRange range scratchSize => exact absurd rfl reading
  | rewind => exact absurd rfl reading
  | getStatus => exact absurd rfl reading

theorem returned_measured {result : Except Error Answer} (sound : Sound Honest identity host)
    (measured : Measured host.db)
    (execution : Exec device (act.perform host.db) host.store (some (result, host'.db)) host'.store) :
    Measured host'.db := by
  by_cases close : act = .close
  · subst close
    obtain ⟨inner, inside, shape⟩ := exec_answering execution
    cases inner with
    | none => cases shape
    | some value =>
        have handle : host'.db = value.2 := congrArg Prod.snd (Option.some.inj shape)
        rw [handle]
        rcases (quits_close host.db host.store _ _ inside).2 value rfl with fresh | ⟨kept, _⟩
        · rw [fresh]
          exact measured_init
        · rw [kept]
          exact measured
  cases returned_cases sound (fun _ honest => honest) (fun _ honest _ _ => honest_effect honest) execution with
  | answered v v' holds holds' live answers live' => exact tracks_measured live'.settled.tracks
  | failed v code holds live refused same => exact same ▸ measured
  | poisoned v code holds live refused unready safe => exact poisoned_measured live close execution unready
  | closed same => exact absurd same close
  | opened v mode scratchSize reopened unready holds start success live => exact tracks_measured live.settled.tracks
  | refused error unready refusal same safe => exact same ▸ measured

/-- What holds of every host that a run reaches. -/
structure Confined (identity : Bytes) (host : Host) : Prop where
  sound : Sound Honest identity host
  within : Safe Within host.store
  measured : Measured host.db

theorem Confined.exec {outcome : Option (Except Error Answer × Batches)} {store : Store}
    (confined : Confined identity host) (execution : Exec device (act.perform host.db) host.store outcome store) :
    Safe Within store :=
  exec_sanctions (fun _ _ fits safe => fits_within fits safe) (sound_fitted confined.sound) confined.within execution

theorem confined_step {event : Event} (confined : Confined identity host) (step : Step host event host') :
    Confined identity host' := by
  have sound := step_sound confined.sound (fun _ honest => honest) (fun _ honest _ _ => honest_effect honest) step
  cases step with
  | @returned act result db store execution =>
      exact ⟨sound, confined.exec execution,
        @returned_measured host ⟨store, db⟩ identity act result confined.sound confined.measured execution⟩
  | restarted execution => exact ⟨sound, confined.exec execution, measured_init⟩
  | crashed execution survives => exact ⟨sound, booted_safe (confined.exec execution) survives, measured_init⟩

theorem confined_run {events : List Event} (confined : Confined identity host) (run : Run host events host') :
    Confined identity host' := by
  induction run with
  | start => exact confined
  | step before after ih => exact confined_step ih after

theorem created_confined (created : Created host) : ∃ identity, Confined identity host := by
  obtain ⟨identity, live, database⟩ := created_bare created
  have wide := live.settled.wide
  have wal := live.settled.serving.wal_length
  refine ⟨identity, .live ⟨.empty, createdManifests, 1⟩ honest_empty live, safe_synced live.settled.synced ⟨?_, ?_⟩,
    tracks_measured live.settled.tracks⟩
  · rw [database, created_length wide]
    decide
  · rw [wal]
    exact Content.empty.fits

end Runs

/-- In every state that a created pair reaches the fields of the handle are in range and no file or image that a crash
can leave is larger than its capacity. The same holds wherever the next call stops, and each of its requests fits. -/
theorem capacity_kept {start host : Host} {events : List Event} (created : Created start) (run : Run start events host) :
    Measured host.db ∧ Safe Within host.store ∧ ∀ act : Act,
      (∀ outcome store, Exec device (act.perform host.db) host.store outcome store → Safe Within store) ∧
      ∀ request store, Asked device (act.perform host.db) host.store request store → Fits request store := by
  obtain ⟨identity, confined⟩ := created_confined created
  have reached := confined_run confined run
  exact ⟨reached.measured, reached.within, fun act => ⟨fun outcome store execution => reached.exec execution,
    sound_fitted reached.sound⟩⟩

/-- An expiration has dropped one of two segments and a checkpoint has installed the pending batch behind the other. -/
def relaid : Host := layered.calls [.expireBefore 100 batchScratch, .checkpoint batchScratch]

theorem capacity_kept_relaid : (relaid.db.generation, relaid.db.revision, relaid.db.dataEnd) = (2, 7, 456) ∧
    Measured relaid.db ∧ Safe Within relaid.store ∧ ∀ act : Act,
      (∀ outcome store, Exec device (act.perform relaid.db) relaid.store outcome store → Safe Within store) ∧
      ∀ request store, Asked device (act.perform relaid.db) relaid.store request store → Fits request store :=
  ⟨by decide +kernel, capacity_kept fresh_created (calls_run (calls_run (.start _) _).choose_spec _).choose_spec⟩

end Timelite.Fitting
