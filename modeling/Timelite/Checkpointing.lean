import Timelite.Appending

/-!
Checkpoint: the links of the new segment, the segment written behind the data,
the manifest in the other slot, and the reclaimed WAL. Undisturbed the content
changes from `A` to `A.checkpoint`; `Guards` lists the image pairs that appear on
the way.
-/
namespace Timelite.Checkpointing
open ByteFile Program Durable Codec CodecLaws Backend BackendLaws Layout FrameLaws HeaderWalk Links SegmentLaws
  SlotLaws WalLaws Contents Images Crashes Databases Calls Appending Reader BatchApi Spans

section Preparing
variable {store : Store} {db : Batches} {identity : Bytes} {content : Content} {m : Manifests}

-- The prior maximum the new span is compared with.
def priorTime (retention : Bool) (content : Content) : Nat :=
  if retention = true ∧ content.segments.length ≠ 0 then
    (content.segments.getLast?.map Segment.maximum).getD 0
  else content.installedTime

def skipLink (content : Content) : Nat :=
  linkTo 160 content.segments (content.segments.length + 1 - lowBit (content.segments.length + 1))

theorem reads_checkpointLinks (db : Batches) : Reads (checkpointLinks db) := by
  have skip : Reads (skipOffset db) :=
    reads_ite (reads_bind (reads_segmentAt _ _ _ _) fun _ => reads_pure _) (reads_pure _)
  exact reads_bind skip fun _ =>
    reads_ite (reads_bind (reads_readSegment _ _ _) fun _ => reads_pure _) (reads_pure _)

theorem skip_offset (serving : Serving store db identity content m) :
    on (skipOffset db) store = (.ok (skipLink content), store) := by
  have chained := serving.chained
  have count := chained.count_lt
  have tracks := serving.tracks
  have low := low_bit_pos (n := content.segments.length + 1) (by omega) (by omega)
  simp only [skipOffset, tracks.generation, tracks.dataEnd, tracks.lastSegment, skipLink]
  by_cases first : content.segments.length + 1 - lowBit (content.segments.length + 1) = 0
  · rw [if_neg (by simpa using first), first]
    rfl
  · obtain ⟨k, shape⟩ := Nat.exists_eq_succ_of_ne_zero first
    have inside : k < content.segments.length := by omega
    have found : content.segments[k]? = some content.segments[k] := List.getElem?_eq_getElem inside
    rw [if_pos first, shape, Nat.succ_eq_add_one, on_bind_ok (segment_at chained found)]
    rfl

theorem checkpoint_links (serving : Serving store db identity content m) :
    on (checkpointLinks db) store =
      (.ok (skipLink content, priorTime m.state.enabled content), store) := by
  have chained := serving.chained
  have tracks := serving.tracks
  rw [checkpointLinks, on_bind_ok (skip_offset serving), tracks.generation, tracks.dataEnd,
    tracks.lastSegment, serving.retention, tracks.installedTime]
  unfold priorTime
  by_cases retained : m.state.enabled = true ∧ content.segments.length ≠ 0
  · rw [if_pos retained, if_pos retained]
    obtain ⟨k, shape⟩ := Nat.exists_eq_succ_of_ne_zero retained.2
    have inside : k < content.segments.length := by omega
    have found : content.segments[k]? = some content.segments[k] := List.getElem?_eq_getElem inside
    have last : content.segments.getLast? = some content.segments[k] := by
      rw [List.getLast?_eq_getElem?, shape, Nat.succ_sub_one]
      exact found
    rw [shape, Nat.succ_eq_add_one, on_bind_ok (chained.read_nth found), last]
    rfl
  · rw [if_neg retained, if_neg retained]
    rfl

-- The two ways of writing the new span start agree.
theorem span_unordered (segments : List Segment)
    (last : ∀ segment, segments.getLast? = some segment → segment.ordered = false) :
    spanStart segments = segments.length + 1 := by
  rcases List.eq_nil_or_concat segments with none | ⟨front, segment, shape⟩
  · subst none
    rfl
  · rw [List.concat_eq_append] at shape
    subst shape
    have loose := last segment (by simp)
    rw [span_start_snoc, List.length_append, List.length_singleton, loose]
    simp

theorem span_checkpoint (installed : Installed (store.content .database) identity content m)
    (some : content.pending ≠ []) :
    spanStart (content.segments ++ [content.pendingSegment some]) =
      if rising (timesOf content.pending) = false then content.segments.length + 2
      else if firstOf (timesOf content.pending) < priorTime m.state.enabled content then
        content.segments.length + 1
      else spanStart content.segments := by
  rw [span_start_snoc, Content.pending_segment_wide, Content.pending_segment_ordered]
  cases sorted : rising (timesOf content.pending) with
  | false => simp
  | true =>
      have least : (content.pendingSegment some).minimum = firstOf (timesOf content.pending) :=
        rising_least sorted
      simp only [if_true, Bool.not_true, Bool.false_eq_true, if_false, least, reduceCtorEq]
      cases shape : content.segments.getLast? with
      | none =>
          have empty : content.segments = [] := List.getLast?_eq_none_iff.mp shape
          simp [empty, spanStart, spanFrom]
      | some final =>
          have time := installed.time
          simp only [statedTime, shape] at time
          cases order : final.ordered with
          | false =>
              rw [span_unordered content.segments fun segment found => by
                rw [shape] at found
                exact Option.some.inj found ▸ order]
              simp
          | true =>
              have wide : final.wide = true := by
                have kind : final.kind = .span := by simpa [Segment.ordered] using order
                simp [Segment.wide, kind]
              have prior : priorMaximum content.segments = priorTime m.state.enabled content := by
                have occupied : content.segments.length ≠ 0 := by
                  intro zero
                  rw [List.length_eq_zero_iff.mp zero] at shape
                  cases shape
                simp only [priorMaximum, priorTime, shape, Option.map_some, Option.getD_some, wide, if_true]
                cases enabled : m.state.enabled with
                | true => simp [occupied]
                | false =>
                    rw [order, enabled, if_pos ⟨rfl, rfl⟩] at time
                    simp [time]
              rw [prior]

end Preparing

section Installing
variable {P Q : Bytes → Bytes → Prop} {store : Store} {db : Batches} {identity : Bytes} {content : Content}
  {m : Manifests}

-- Frame after frame, the WAL body arrives at its place behind the header.
theorem install_frames {safe : Store → Prop} {limit destination fuel offset sequence low high : Nat}
    {batches : List Batch} (bears : Bears safe low high) (kept : safe store)
    (held : Holds (store.content .wal) offset (frames (sequence + 1) batches)) (start : 32 ≤ offset)
    (whole : limit = offset + framesSize batches) (enough : framesSize batches ≤ fuel)
    (above : low ≤ destination + (offset - 32))
    (below : destination + (offset - 32) + framesSize batches ≤ high)
    (small : sequence + batches.length < 18446744073709551616) :
    ∃ after, Runs safe (installFrames limit destination fuel offset sequence) store
        (sequence + batches.length) after ∧ after.wal = store.wal ∧
      after.content .database = writeAt (store.content .database) (destination + (offset - 32))
        (frames (sequence + 1) batches) := by
  induction batches generalizing store fuel offset sequence with
  | nil =>
      refine ⟨store, ?_, rfl, by simp⟩
      cases fuel with
      | zero => exact runs_pure kept _
      | succ fuel =>
          rw [installFrames, if_neg (by simp [whole])]
          exact runs_pure kept _
  | cons batch rest ih =>
      have least := batch.size_ge
      rw [frames_size_cons] at whole enough below
      rw [List.length_cons] at small
      obtain ⟨fuel, rfl⟩ : ∃ k, fuel = k + 1 := ⟨fuel - 1, by omega⟩
      rw [frames_cons, holds_append, frame_length] at held
      have room : offset + batch.size ≤ limit := by omega
      have read := complete_frame held.1 room (by omega)
      have next : next64 sequence = sequence + 1 := next64_eq (by omega)
      have size : (frame (sequence + 1) batch.records).length = batch.size := by simp [Batch.size]
      have write := bears store (destination + (offset - 32)) (frame (sequence + 1) batch.records) kept above
        (by rw [size]; omega)
      generalize middleEq : store.update .database
        (.write (destination + (offset - 32)) (frame (sequence + 1) batch.records)) = middle at write
      have walSame : middle.wal = store.wal := by rw [← middleEq]; rfl
      have wal : middle.content .wal = store.content .wal := by rw [← middleEq, content_update_database]
      have shift : destination + (offset + batch.size - 32) = destination + (offset - 32) + batch.size := by
        omega
      have step : batch.size = 64 + batch.records.length * 20 := rfl
      have later : Holds (middle.content .wal) (offset + batch.size) (frames (sequence + 1 + 1) rest) := by
        rw [wal, step]
        exact held.2
      obtain ⟨after, runs, walAfter, database⟩ := ih write.safe_after later (by omega) (by omega)
        (show framesSize rest ≤ fuel by omega) (by omega) (by omega) (by omega)
      refine ⟨after, ?_, walAfter.trans walSame, ?_⟩
      · have count : sequence + (batch :: rest).length = sequence + 1 + rest.length := by
          rw [List.length_cons]
          omega
        rw [installFrames, if_pos (by omega), next, count]
        refine runs_bind ((reads_complete (reads_readFrame _ _ _ _)).runs kept read) (runs_bind write ?_)
        rw [frame_of_length]
        exact runs
      · rw [database, ← middleEq, content_update_same, shift]
        have joined := write_write (store.content .database) (destination + (offset - 32))
          (frame (sequence + 1) batch.records) (frames (sequence + 1 + 1) rest)
          (by intro none; rw [none] at size; simp at size; omega)
        rw [size] at joined
        exact joined

/-- The segment a checkpoint installs, with its links. -/
def installImage (content : Content) (some : content.pending ≠ []) : Bytes :=
  (content.pendingSegment some).image (linkTo 160 content.segments content.segments.length) (skipLink content)

theorem install_image_length (some : content.pending ≠ []) :
    (installImage content some).length = 64 + framesSize content.pending := by
  rw [installImage, Segment.image_length, Content.pending_segment_size]

theorem install_header (tracks : Tracks db content) (some : content.pending ≠ []) (skip : Nat) :
    encodeSegment (db.installed + 1) db.sequence (db.walEnd - 32) db.walMinimum db.walMaximum db.lastSegment
        skip db.walOrdered =
      (content.pendingSegment some).header (linkTo 160 content.segments content.segments.length) skip := by
  obtain ⟨_, least, greatest⟩ := tracks.walSpan some
  have body : content.walEnd - 32 = framesSize content.pending := by
    simp only [Content.walEnd]
    omega
  rw [Segment.header, if_pos (content.pending_segment_wide some), content.pending_segment_last,
    content.pending_segment_ordered, tracks.installed, tracks.sequence, tracks.walEnd, body, least, greatest,
    tracks.lastSegment, tracks.walOrdered]
  rfl

-- Header and frames together write the image of the segment in one piece.
theorem write_segment {safe : Store → Prop} (bears : Bears safe content.dataEnd
      (content.dataEnd + 64 + framesSize content.pending))
    (kept : safe store) (tracks : Tracks db content) (some : content.pending ≠ [])
    (held : Holds (store.content .wal) 32 (frames (content.installed + 1) content.pending)) :
    ∃ middle after,
      Runs safe (writeExact .database db.dataEnd
        (encodeSegment (db.installed + 1) db.sequence (db.walEnd - 32) db.walMinimum db.walMaximum
          db.lastSegment (skipLink content) db.walOrdered)) store () middle ∧
      Runs safe (installFrames db.walEnd (db.dataEnd + 64) (db.walEnd - 32) 32 db.installed) middle
        db.sequence after ∧
      after.wal = store.wal ∧
      after.content .database =
        writeAt (store.content .database) content.dataEnd (installImage content some) := by
  have numbered := content.numbered
  simp only [uint64Max] at numbered
  have size : ((content.pendingSegment some).header (linkTo 160 content.segments content.segments.length)
      (skipLink content)).length = 64 := by
    rw [Segment.header_length, Segment.header_size_wide]
    exact content.pending_segment_wide some
  have body : content.walEnd - 32 = framesSize content.pending := by
    simp only [Content.walEnd]
    omega
  rw [install_header tracks some, tracks.walEnd, tracks.dataEnd, tracks.installed, tracks.sequence, body]
  have write := bears store content.dataEnd ((content.pendingSegment some).header
    (linkTo 160 content.segments content.segments.length) (skipLink content)) kept (Nat.le_refl _)
    (by rw [size]; omega)
  generalize middleEq : store.update .database (.write content.dataEnd ((content.pendingSegment some).header
    (linkTo 160 content.segments content.segments.length) (skipLink content))) = middle at write
  have walSame : middle.wal = store.wal := by rw [← middleEq]; rfl
  have wal : middle.content .wal = store.content .wal := by rw [← middleEq, content_update_database]
  rw [← wal] at held
  have place : content.dataEnd ≤ content.dataEnd + 64 + (32 - 32) := by omega
  obtain ⟨after, runs, walAfter, database⟩ := install_frames bears write.safe_after held (Nat.le_refl _)
    (rfl : content.walEnd = _) (Nat.le_refl _) place (by omega) (by omega)
  refine ⟨middle, after, write, runs, walAfter.trans walSame, ?_⟩
  rw [database, ← middleEq, content_update_same]
  have joined := write_write (store.content .database) content.dataEnd
    ((content.pendingSegment some).header (linkTo 160 content.segments content.segments.length)
      (skipLink content)) (frames (content.installed + 1) content.pending)
    (by intro none; rw [none] at size; simp at size)
  rw [size] at joined
  exact joined

end Installing

section Images
variable (content : Content) (m : Manifests)

def upgradeBytes : Bytes := encodeManifest 0 dataStart 0 0 0 ++ List.replicate 64 0

/-- The database before the segment is written. -/
def upgraded (d : Bytes) : Bytes := if m.legacy then writeAt d 32 upgradeBytes else d

def withSegment (d : Bytes) (some : content.pending ≠ []) : Bytes :=
  writeAt (upgraded m d) content.dataEnd (installImage content some)

def newEnd : Nat := content.dataEnd + 64 + framesSize content.pending

def newManifest : Bytes :=
  if m.state.enabled then
    encodeRetention (m.state.revision + 1) (content.segments.length + 1) (newEnd content) content.high
      content.floor content.dataEnd 160 0
  else encodeManifest (content.segments.length + 1) (newEnd content) content.high content.floor content.dataEnd

def nextManifests : Manifests where
  legacy := false
  generation := content.segments.length + 1
  dataEnd := newEnd content
  last := content.high
  lastTime := content.floor
  tail := content.dataEnd
  hasTime := true
  state := ⟨m.state.revision + 1, 160, 0, m.state.enabled⟩

def withManifest (d : Bytes) (some : content.pending ≠ []) : Bytes :=
  writeAt (withSegment content m d some) (slotOffset (m.state.revision + 1)) (newManifest content m)

variable {content m}

theorem new_manifest_length : (newManifest content m).length = 64 := by
  unfold newManifest
  split <;> simp

theorem count_below_installed (content : Content) : content.segments.length ≤ content.installed := by
  have covered := content.covered
  rcases count_le_last content.increasing with none | more
  · simp [none]
  · omega

theorem new_manifest_accepted (some : content.pending ≠ [])
    (plain : m.state.enabled = false → m.state.revision = content.segments.length)
    (more : m.state.revision < uint64Max)
    (space : content.dataEnd + (64 + framesSize content.pending) ≤ databaseCapacity) {size : Nat}
    (fits : newEnd content ≤ size) :
    slotManifest ((m.state.revision + 1) % 2) (newManifest content m) size =
      Option.some (nextManifests content m) := by
  have least := extent_ge content.segments
  have body := frames_size_ge content.pending
  have count := List.length_pos_iff.mpr some
  have below := count_below_installed content
  have numbered := content.numbered
  have time := content.floor_le
  simp only [newEnd, Content.dataEnd] at *
  unfold newManifest nextManifests
  cases enabled : m.state.enabled with
  | true =>
      have storable : Storable (m.state.revision + 1) (content.segments.length + 1) (newEnd content)
          content.high content.dataEnd 160 0 := by
        simp only [newEnd, Content.dataEnd, Content.high]
        refine ⟨by omega, by omega, by omega, by omega, by omega, by omega, ?_, by omega, by omega, ?_, rfl⟩
        · simp only [segmentMin]
          omega
        · rw [if_pos (by omega)]
          omega
      exact retention_slot storable time fits (holds_self _)
  | false =>
      have revision := plain enabled
      rw [revision]
      simp only [newEnd, Content.dataEnd, Content.high] at *
      exact install_slot (holds_self _) (by omega) (by omega) (by omega) (by omega) (by omega) time (by omega) fits

theorem upgraded_length {d : Bytes} (long : m.legacy = true → d.length = 32) :
    (upgraded m d).length = if m.legacy then 160 else d.length := by
  unfold upgraded
  split
  · rename_i legacy
    rw [write_length _ _ _ (by simp [upgradeBytes]), long legacy]
    simp [upgradeBytes]
  · rfl

theorem installed_upgraded {d identity : Bytes} (installed : Installed d identity content m)
    (wide : identity.length = 16) (current : Current d m) :
    Installed (upgraded m d) identity content m := by
  unfold upgraded
  split
  · rename_i legacy
    obtain ⟨bare, size⟩ := current.legacy legacy
    have extent := installed.extent
    rw [bare] at extent
    have empty : content.segments = [] := by
      have least := extent_ge content.segments
      simp only [noManifest, dataStart] at extent
      exact List.length_eq_zero_iff.mp (by omega)
    refine { installed with pair := ?_, held := by rw [empty]; exact holds_nil _ _ }
    exact installed.pair.agree (write_agree_below d 32 _ 32 (by omega) (Nat.le_refl _)) (Nat.zero_le _)
      (by simp [databaseMagic, wide])
  · exact installed

/-- The content after the checkpoint, as the database stores it. -/
theorem installed_checkpoint {d identity : Bytes} (installed : Installed d identity content m)
    (wide : identity.length = 16) (current : Current d m) (root : m.state.root = 160)
    (some : content.pending ≠ [])
    (space : content.dataEnd + (64 + framesSize content.pending) ≤ databaseCapacity) :
    Installed (withSegment content m d some) identity (content.checkpoint some space)
      (nextManifests content m) := by
  have first := installed_upgraded installed wide current
  have pairRoom := first.pair.length_le (by simp [encodePair, sealed, databaseMagic])
  have pairLength : (encodePair databaseMagic identity).length = 32 := by simp [databaseMagic, wide]
  have held : Holds (withSegment content m d some) 160 (chain 160 [] content.segments) := by
    have old := first.held
    rw [root] at old
    exact old.write _ _ (.inl (by rw [chain_length]; exact Nat.le_refl _))
  have image : Holds (withSegment content m d some) (160 + extent content.segments) (installImage content some) :=
    holds_write _ _ _
  have tail : linkTo 160 (content.segments ++ [content.pendingSegment some])
      (content.segments ++ [content.pendingSegment some]).length = content.dataEnd := by
    simp [Content.dataEnd]
  have final : (content.segments ++ [content.pendingSegment some]).getLast? =
      Option.some (content.pendingSegment some) := by simp
  have floor := final_times content.pending content.installedTime some
  have agrees : TimeAgrees true m.state.enabled content.floor
      (content.segments ++ [content.pendingSegment some]) := by
    intro segment last ordered _ _
    rw [final, Option.some.injEq] at last
    subst last
    rw [Content.pending_segment_ordered] at ordered
    change lastTimeOf content.pending content.installedTime = greatestOf (timesOf content.pending)
    rw [rising_greatest ordered, floor]
  exact
    { pair := first.pair.write _ _ (.inl (by rw [pairLength]; simp only [Content.dataEnd]; omega))
      held := chain_snoc.mpr ⟨held, image⟩
      above := Nat.le_refl _
      extent := by
        simp only [nextManifests, newEnd, Content.checkpoint, Content.dataEnd, extent_append, extent_cons,
          extent_nil, Content.pending_segment_size]
        omega
      capacity := by
        simp only [nextManifests, newEnd]
        omega
      generation := by simp [nextManifests, Content.checkpoint]
      last := rfl
      tail := fun _ => tail.symm
      agrees := agrees
      time := stated_time_agrees agrees
      gapless := by
        intro off
        obtain ⟨gapless, full⟩ := installed.gapless off
        have chained : Sequenced false 0 content.segments := ⟨content.increasing, fun _ => gapless⟩
        have whole : Sequenced false 0 (content.segments ++ [content.pendingSegment some]) :=
          sequenced_snoc.mpr ⟨chained, by
            simp only [Content.pendingSegment]
            omega, fun _ => by
            simp only [Content.pendingSegment]
            omega⟩
        refine ⟨whole.2 rfl, ?_⟩
        rw [Content.checkpoint, last_sequence_snoc, Content.pending_segment_last] }

end Images

section Running
variable {P : Bytes → Bytes → Prop} {Q : Bytes → Prop} {store : Store} {db : Batches} {identity : Bytes}
  {content : Content} {m : Manifests}

/-- The image pairs that a checkpoint can leave when it is cut: `Q` holds of the
database while the segment is written, `P` of every pair on the way. -/
structure Guards (P : Bytes → Bytes → Prop) (Q : Bytes → Prop) (d w : Bytes) (content : Content) (m : Manifests)
    (some : content.pending ≠ []) : Prop where
  before : P d w
  upgrade : m.legacy = true → ∀ count, slotTear d 32 upgradeBytes count →
    P (writeAt d 32 (upgradeBytes.take count)) w
  start : Q (upgraded m d)
  bears : Tolerates Q content.dataEnd (newEnd content)
  weaken : ∀ d', Q d' → P d' w
  torn : ∀ count, slotTear (withSegment content m d some) (slotOffset (m.state.revision + 1))
      (newManifest content m) count →
    P (writeAt (withSegment content m d some) (slotOffset (m.state.revision + 1))
      ((newManifest content m).take count)) w
  whole : P (withManifest content m d some) w
  reclaim : P (withManifest content m d some) (resize w 32)

theorem slot_tear_whole (file : Bytes) (offset : Nat) (bytes : Bytes) :
    slotTear file offset bytes bytes.length := by
  intro _
  right; left
  rw [List.take_length]

-- The slots of a feature 004 database, when they are missing.
theorem upgrade_runs (serving : Serving store db identity content m) (some : content.pending ≠ [])
    (guards : Guards P Q (store.content .database) (store.content .wal) content m some)
    {db' : Batches} (legacy : db'.legacy = m.legacy) :
    ∃ after, Runs (Safe P) (upgradeLegacy db') store () after ∧ Synced after ∧
      after.content .database = upgraded m (store.content .database) ∧
      after.content .wal = store.content .wal := by
  have safe := safe_synced serving.synced guards.before
  have sized : slotTear (store.content .database) 32 upgradeBytes upgradeBytes.length :=
    slot_tear_whole _ _ _
  unfold upgradeLegacy upgraded
  rw [legacy]
  cases flag : m.legacy with
  | false => exact ⟨store, runs_pure safe (), serving.synced, rfl, rfl⟩
  | true =>
      have cut := guards.upgrade flag
      have write : Runs (Safe P) (writeExact .database 32 upgradeBytes) store ()
          (store.update .database (.write 32 upgradeBytes)) := by
        refine safe_write_database safe (fun wal survives => ?_) fun wal count survives torn => ?_
        · rw [synced_disk serving.synced] at survives
          rw [survives_settled survives]
          have whole := cut _ sized
          rwa [List.take_length] at whole
        · rw [synced_disk serving.synced] at survives
          rw [survives_settled survives]
          exact cut count torn
      have sync := runs_sync .database write.safe_after (write.safe_after.sync .database)
      refine ⟨(store.update .database (.write 32 upgradeBytes)).sync .database, runs_bind write sync,
        synced_sync_update serving.synced _ _, ?_, ?_⟩
      · rw [content_sync, content_update_same]
        rfl
      · rw [content_sync, content_update_database]

theorem install_runs (synced : Synced store) (tracks : Tracks db content) (some : content.pending ≠ [])
    (held : Holds (store.content .wal) 32 (frames (content.installed + 1) content.pending))
    (revision : db.revision = m.state.revision) (retention : db.retention = m.state.enabled)
    {d : Bytes} (place : store.content .database = upgraded m d)
    (guards : Guards P Q d (store.content .wal) content m some) :
    ∃ after, Runs (Safe P) (installSegment db (skipLink content)) store content.high after ∧ Synced after ∧
      after.content .database = withManifest content m d some ∧
      after.content .wal = store.content .wal := by
  -- While the segment is written only the database changes.
  have stage : Safe (fun d' w' => Q d' ∧ w' = store.content .wal) store :=
    safe_synced synced ⟨by rw [place]; exact guards.start, rfl⟩
  have weaken : ∀ d' w', Q d' ∧ w' = store.content .wal → P d' w' := by
    rintro d' w' ⟨kept, rfl⟩
    exact guards.weaken d' kept
  have bears : Bears (Safe fun d' w' => Q d' ∧ w' = store.content .wal) content.dataEnd
      (content.dataEnd + 64 + framesSize content.pending) :=
    bears_safe fun wal file offset bytes kept above below =>
      ⟨guards.bears file offset bytes kept.1 above below, kept.2⟩
  obtain ⟨middle, written, header, copied, walSame, database⟩ :=
    write_segment bears stage tracks some held
  have sync := runs_sync .database (copied.safe_after.mono weaken)
    ((copied.safe_after.mono weaken).sync .database)
  generalize flushedEq : written.sync .database = flushed at sync
  have wal : flushed.content .wal = store.content .wal := by
    rw [← flushedEq, content_sync, Store.content, Store.disk, Store.disk?, walSame]
    rfl
  have synced' : Synced flushed := by
    rw [← flushedEq]
    refine ⟨rfl, ?_⟩
    have kept := synced.2
    rw [← walSame] at kept
    have same : written.content .wal = store.content .wal := by
      rw [Store.content, Store.disk, Store.disk?, walSame]
      rfl
    rw [content_sync, same]
    exact kept
  have data : flushed.content .database = withSegment content m d some := by
    rw [← flushedEq, content_sync, database, place]
    rfl
  have manifest : checkpointManifest db (db.dataEnd + 64 + (db.walEnd - 32)) db.sequence =
      newManifest content m := by
    have body : db.walEnd - 32 = framesSize content.pending := by
      rw [tracks.walEnd, Content.walEnd]
      omega
    rw [body, checkpointManifest, newManifest, retention, revision, tracks.generation, tracks.sequence,
      tracks.lastTime, tracks.dataEnd]
    rfl
  have write : Runs (Safe P) (writeExact .database (slotOffset (m.state.revision + 1)) (newManifest content m))
      flushed () (flushed.update .database (.write (slotOffset (m.state.revision + 1)) (newManifest content m))) := by
    refine safe_write_database sync.safe_after (fun w survives => ?_) fun w count survives cut => ?_
    · rw [synced_disk synced'] at survives
      rw [survives_settled survives, wal, data]
      exact guards.whole
    · rw [synced_disk synced'] at survives
      rw [survives_settled survives, wal, data]
      rw [data] at cut
      exact guards.torn count cut
  have last := runs_sync .database write.safe_after (write.safe_after.sync .database)
  refine ⟨(flushed.update .database (.write (slotOffset (m.state.revision + 1)) (newManifest content m))).sync
    .database, ?_, synced_sync_update synced' .database _, ?_, ?_⟩
  · have sequence := tracks.sequence
    rw [sequence] at copied manifest
    unfold installSegment
    simp only [sequence]
    rw [sequence] at header
    refine runs_bind (runs_mono header weaken) (runs_bind (runs_mono copied weaken) ?_)
    rw [Io.require, if_pos rfl]
    refine runs_bind (runs_pure (copied.safe_after.mono weaken) ()) (runs_bind sync ?_)
    · rw [manifest, revision]
      exact runs_bind write (runs_bind last (runs_pure last.safe_after _))
  · rw [content_sync, content_update_same, data]
    rfl
  · rw [content_sync, content_update_database, wal]

theorem reclaim_runs (synced : Synced store) (safe : Safe P store)
    (cut : P (store.content .database) (resize (store.content .wal) 32)) :
    Runs (Safe P) reclaimWal store () ((store.update .wal (.truncate 32)).sync .wal) := by
  have truncate : Runs (Safe P) (fileTruncate .wal 32) store () (store.update .wal (.truncate 32)) := by
    refine safe_truncate_wal safe fun database survives => ?_
    rw [synced_disk synced] at survives
    rw [survives_settled survives]
    exact cut
  exact runs_bind truncate (runs_sync .wal truncate.safe_after (truncate.safe_after.sync .wal))

end Running

section Checkpoint
variable {P : Bytes → Bytes → Prop} {Q : Bytes → Prop} {store : Store} {db : Batches} {identity : Bytes}
  {content : Content} {m : Manifests}

/-- Why a settled handle refuses a checkpoint. -/
def checkpointRefusal (content : Content) (m : Manifests) (scratchSize : Nat) : Option Error :=
  if scratchSize < batchScratch then some .bufferTooSmall
  else if content.pending = [] then none
  else if m.state.revision = uint64Max then some (.errno .eoverflow)
  else if framesSize content.pending + 64 > databaseCapacity - content.dataEnd then some .databaseFull
  else none

/-- The handle a checkpoint leaves. -/
def checkpointed (db : Batches) (content : Content) (m : Manifests) : Batches :=
  { installedHandle { db with failed := true, legacy := false } (priorTime m.state.enabled content) content.high with
    walEnd := 32, walOrdered := true, failed := false }

theorem wal_end_fresh (content : Content) : content.walEnd = 32 ↔ content.pending = [] := by
  rw [Content.walEnd, ← frames_size_eq_zero]
  omega

theorem checkpoint_refused (serving : Serving store db identity content m) {scratchSize : Nat} {error : Error}
    (refused : checkpointRefusal content m scratchSize = some error) :
    batchesCheckpoint db scratchSize = refuse db error := by
  have tracks := serving.tracks
  have fresh := wal_end_fresh content
  have body : content.walEnd - 32 = framesSize content.pending := by
    simp only [Content.walEnd]
    omega
  unfold checkpointRefusal at refused
  unfold batchesCheckpoint
  rw [serving.read_arguments]
  split at refused
  · rename_i small
    rw [if_pos small]
    simp only [Option.some.injEq] at refused
    rw [refused]
  rename_i large
  rw [if_neg large]
  split at refused
  · cases refused
  rename_i some
  simp only [fresh, some, if_false, serving.revision, tracks.walEnd, body, tracks.dataEnd]
  split at refused
  · rename_i top
    simp only [Option.some.injEq] at refused
    rw [if_pos top, refused]
  rename_i more
  rw [if_neg more]
  split at refused
  · rename_i full
    simp only [Option.some.injEq] at refused
    rw [if_pos full, refused]
  · cases refused

theorem checkpoint_nothing (serving : Serving store db identity content m) {scratchSize : Nat}
    (accepted : checkpointRefusal content m scratchSize = none) (empty : content.pending = []) :
    batchesCheckpoint db scratchSize = succeed db () := by
  unfold checkpointRefusal at accepted
  unfold batchesCheckpoint
  rw [serving.read_arguments]
  split at accepted
  · cases accepted
  rename_i large
  rw [if_neg large]
  simp only
  rw [serving.tracks.walEnd, if_pos ((wal_end_fresh content).mpr empty)]

theorem checkpoint_large {scratchSize : Nat} (accepted : checkpointRefusal content m scratchSize = none) :
    batchScratch ≤ scratchSize := by
  unfold checkpointRefusal at accepted
  split at accepted
  · cases accepted
  · omega

theorem checkpoint_bounds {scratchSize : Nat} (accepted : checkpointRefusal content m scratchSize = none)
    (some : content.pending ≠ []) :
    batchScratch ≤ scratchSize ∧ m.state.revision ≠ uint64Max ∧
      content.dataEnd + (64 + framesSize content.pending) ≤ databaseCapacity := by
  have room := content.room
  unfold checkpointRefusal at accepted
  split at accepted
  · cases accepted
  split at accepted
  · cases accepted
  split at accepted
  · cases accepted
  · simp only [Content.dataEnd] at *
    exact ⟨by omega, by assumption, by omega⟩

theorem checkpointed_tracks (serving : Serving store db identity content m) (some : content.pending ≠ [])
    (space : content.dataEnd + (64 + framesSize content.pending) ≤ databaseCapacity) :
    Tracks (checkpointed db content m) (content.checkpoint some space) := by
  have tracks := serving.tracks
  have body : db.walEnd - 32 = framesSize content.pending := by
    rw [tracks.walEnd, Content.walEnd]
    omega
  have spans := tracks.walSpan some
  exact
    { database := tracks.database
      wal := tracks.wal
      walEnd := rfl
      sequence := by
        simp only [checkpointed, installedHandle, tracks.sequence, Content.high, Content.checkpoint,
          List.length_nil, Nat.add_zero]
      dataEnd := by
        simp only [checkpointed, installedHandle, tracks.dataEnd, body, Content.dataEnd, Content.checkpoint,
          extent_append, extent_cons, extent_nil, Content.pending_segment_size]
        omega
      installed := rfl
      generation := by
        simp only [checkpointed, installedHandle, tracks.generation, Content.checkpoint, List.length_append,
          List.length_singleton]
      liveBatches := by
        have size : (content.pendingSegment some).batches.length = content.pending.length := rfl
        simp only [checkpointed, installedHandle, tracks.liveBatches, tracks.installed, Content.checkpoint,
          live_append, live_cons, live_nil, size, Content.high]
        rw [sub64_eq (Nat.le_add_right _ _) content.numbered]
        omega
      lastTime := by
        simp only [checkpointed, installedHandle, tracks.lastTime, Content.floor, Content.checkpoint,
          last_time_nil]
      installedTime := by
        simp only [checkpointed, installedHandle, tracks.lastTime, Content.checkpoint]
      lastSegment := by
        simp only [checkpointed, installedHandle, tracks.dataEnd, Content.checkpoint, Content.dataEnd,
          List.length_append, List.length_singleton, link_succ, List.take_left]
      spanStart := by
        simp only [checkpointed, installedHandle, tracks.walOrdered, tracks.generation, tracks.spanStart,
          spans.1, Content.checkpoint, span_checkpoint serving.installed some]
      walOrdered := by simp [checkpointed, Content.checkpoint]
      walSpan := fun none => absurd rfl none }

-- The segment ends the file: earlier orphans were not longer.
theorem upgraded_bound (settled : Settled store db identity content m) (some : content.pending ≠ []) :
    (upgraded m (store.content .database)).length ≤ newEnd content := by
  rw [upgraded_length (m := m) (d := store.content .database) fun legacy => by
    exact ((chosen_current settled.chosen).legacy legacy).2]
  have least := frames_size_ge content.pending
  have count := List.length_pos_iff.mpr some
  have extent := settled.installed.extent
  rw [settled.root] at extent
  simp only [newEnd, Content.dataEnd]
  split
  · omega
  · rcases settled.slack settled.phase with short | ⟨_, _, marker⟩ | ⟨_, orphan⟩ <;> omega

theorem with_segment_length (settled : Settled store db identity content m) (some : content.pending ≠ []) :
    (withSegment content m (store.content .database) some).length = newEnd content := by
  have before := upgraded_bound settled some
  have size := install_image_length some
  rw [withSegment, write_length _ _ _ (by
    intro none
    rw [none] at size
    simp at size
    omega), size]
  simp only [newEnd] at before ⊢
  omega

theorem reclaimed_checkpoint (logged : Logged (store.content .wal) identity content []) (wide : identity.length = 16)
    (some : content.pending ≠ []) (space : content.dataEnd + (64 + framesSize content.pending) ≤ databaseCapacity) :
    Logged (resize (store.content .wal) 32) identity (content.checkpoint some space) [] := by
  have cut : resize (store.content .wal) 32 = encodePair walMagic identity := by
    rw [logged.bytes, List.append_nil, ← Images.wal_length wide]
    exact resize_append _ _
  refine ⟨?_, .none, fun none => absurd rfl none, ?_⟩
  · rw [cut]
    simp [Content.checkpoint]
  · rw [resize_length]
    decide

-- The image that receives the new manifest.
theorem with_segment_holds (some : content.pending ≠ []) :
    newEnd content ≤ (withSegment content m (store.content .database) some).length := by
  have size := install_image_length some
  rw [withSegment, write_length _ _ _ (by
    intro none
    rw [none] at size
    simp at size
    omega), size]
  simp only [newEnd]
  omega

theorem revision_bound (serving : Serving store db identity content m)
    (more : m.state.revision ≠ uint64Max) : m.state.revision < uint64Max := by
  have top := serving.current.revision
  omega

theorem plain_revision (serving : Serving store db identity content m) (off : m.state.enabled = false) :
    m.state.revision = content.segments.length := by
  rw [serving.current.plain off, serving.installed.generation]

theorem checkpoint_serving (serving : Serving store db identity content m) (some : content.pending ≠ [])
    (space : content.dataEnd + (64 + framesSize content.pending) ≤ databaseCapacity)
    (more : m.state.revision ≠ uint64Max) {after : Store} (synced : Synced after)
    (database : after.content .database = withManifest content m (store.content .database) some)
    (wal : after.content .wal = resize (store.content .wal) 32) :
    Serving after (checkpointed db content m) identity (content.checkpoint some space)
      (nextManifests content m) := by
  have wide := serving.wide
  have bound := revision_bound serving more
  have fits := @with_segment_holds store content m some
  have long : 160 ≤ (withSegment content m (store.content .database) some).length := by
    simp only [newEnd, Content.dataEnd] at fits
    omega
  have fresh := installed_checkpoint serving.installed wide serving.current serving.root some space
  have accepted := new_manifest_accepted some (plain_revision serving) bound space fits
  have total : (after.content .database).length = (withSegment content m (store.content .database) some).length := by
    rw [database, withManifest, slot_write_length (by rw [new_manifest_length]) long]
  have written : SlotHas (after.content .database) ((nextManifests content m).state.revision % 2)
      (after.content .database).length (nextManifests content m) := by
    rw [SlotHas, show (nextManifests content m).state.revision = m.state.revision + 1 from rfl, ← slot_offset_eq,
      total, database, withManifest, slot_write new_manifest_length]
    exact ⟨new_manifest_length, accepted⟩
  exact
    { synced := synced
      wide := wide
      tracks := checkpointed_tracks serving some space
      ready := rfl
      revision := by simp only [checkpointed, installedHandle, serving.revision, nextManifests]
      retention := serving.retention
      legacy := rfl
      phase := rfl
      root := rfl
      current := .inl written
      installed := by
        rw [database, withManifest]
        exact installed_slot_write fresh wide long (slot_bounds accepted).size
          (by rw [new_manifest_length])
      logged := by
        rw [wal]
        exact reclaimed_checkpoint serving.logged wide some space }

theorem checkpoint_stored (serving : Serving store db identity content m) (some : content.pending ≠ [])
    (space : content.dataEnd + (64 + framesSize content.pending) ≤ databaseCapacity)
    (more : m.state.revision ≠ uint64Max)
    (older : ∀ size other, SlotHas (withSegment content m (store.content .database) some)
      (m.state.revision % 2) size other → other.state.revision ≤ m.state.revision) :
    Stored (withManifest content m (store.content .database) some) identity (content.checkpoint some space)
      (nextManifests content m) := by
  have fits := @with_segment_holds store content m some
  have long : 160 ≤ (withSegment content m (store.content .database) some).length := by
    simp only [newEnd, Content.dataEnd] at fits
    omega
  have fresh := installed_checkpoint serving.installed serving.wide serving.current serving.root some space
  have accepted := new_manifest_accepted some (plain_revision serving) (revision_bound serving more) space fits
  exact publish_whole fresh serving.wide long new_manifest_length accepted rfl older

theorem checkpoint_settled (settled : Settled store db identity content m) (some : content.pending ≠ [])
    (space : content.dataEnd + (64 + framesSize content.pending) ≤ databaseCapacity)
    (more : m.state.revision ≠ uint64Max) {after : Store} (synced : Synced after)
    (older : ∀ size other, SlotHas (withSegment content m (store.content .database) some)
      (m.state.revision % 2) size other → other.state.revision ≤ m.state.revision)
    (database : after.content .database = withManifest content m (store.content .database) some)
    (wal : after.content .wal = resize (store.content .wal) 32) :
    Stored (after.content .database) identity (content.checkpoint some space) (nextManifests content m) ∧
      Settled after (checkpointed db content m) identity (content.checkpoint some space)
        (nextManifests content m) := by
  have serving := settled.serving
  have length := with_segment_length settled some
  have long : 160 ≤ (withSegment content m (store.content .database) some).length := by
    rw [length]
    simp only [newEnd, Content.dataEnd]
    omega
  have stored := checkpoint_stored serving some space more older
  rw [← database] at stored
  have total : (after.content .database).length = newEnd content := by
    rw [database, withManifest, slot_write_length (by rw [new_manifest_length]) long, length]
  exact ⟨stored, (checkpoint_serving serving some space more synced database wal).settled
    (selected_chosen stored.current) fun _ => .inl (by rw [total]; exact Nat.le_refl _)⟩

/-- A checkpoint of pending batches installs them as one segment. -/
theorem checkpoint_performs (serving : Serving store db identity content m) (some : content.pending ≠ [])
    {scratchSize : Nat} (accepted : checkpointRefusal content m scratchSize = none)
    (guards : Guards P Q (store.content .database) (store.content .wal) content m some) :
    ∃ after, Performs P (batchesCheckpoint db scratchSize) db store
        (.ok (), checkpointed db content m) after ∧ Synced after ∧
      after.content .database = withManifest content m (store.content .database) some ∧
      after.content .wal = resize (store.content .wal) 32 := by
  have tracks := serving.tracks
  obtain ⟨large, more, _⟩ := checkpoint_bounds accepted some
  have body : content.walEnd - 32 = framesSize content.pending := by
    simp only [Content.walEnd]
    omega
  have safe := safe_synced serving.synced guards.before
  have legacy : ({ db with failed := true } : Batches).legacy = m.legacy := serving.legacy
  obtain ⟨first, upgrade, synced, database, wal⟩ := upgrade_runs serving some guards legacy
  have held := serving.frames_held
  rw [← wal] at held guards
  have tracked : Tracks { db with failed := true, legacy := false } content := { tracks with }
  obtain ⟨second, install, synced', database', wal'⟩ := install_runs synced tracked some held serving.revision
    serving.retention database guards
  have reclaim := reclaim_runs synced' install.safe_after (by
    rw [database', wal']
    exact guards.reclaim)
  refine ⟨(second.update .wal (.truncate 32)).sync .wal, ?_, synced_sync_update synced' .wal _, ?_, ?_⟩
  · unfold batchesCheckpoint
    rw [serving.read_arguments, if_neg (by omega)]
    simp only
    rw [if_neg (by rw [tracks.walEnd, wal_end_fresh]; exact some), if_neg (by rw [serving.revision]; exact more),
      if_neg (by rw [tracks.walEnd, body, tracks.dataEnd]; omega)]
    refine calls_reads safe (reads_checkpointLinks db) (checkpoint_links serving) (calls_of_does ?_)
    refine does_attempt rfl upgrade (does_attempt rfl install (does_attempt rfl reclaim ?_))
    exact .done reclaim.safe_after
  · rw [content_sync, content_update_wal, database']
  · rw [content_sync, content_update_same, wal', wal]
    rfl

end Checkpoint

end Timelite.Checkpointing
