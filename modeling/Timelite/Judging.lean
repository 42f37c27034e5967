import Timelite.Predicting
import Timelite.Establishing

/-!
The verdict of the inspector against the result of open. Both make the checks of
validation alike, up to the frames of a final segment under a manifest without a
timestamp. What recovery refuses afterwards the inspector does not see.
-/
namespace Timelite.Judging
open ByteFile Program Durable Codec CodecLaws Backend BackendLaws Layout FrameLaws HeaderWalk SlotLaws WalLaws Images Databases
  Grammar Reader Retention BatchApi System Undisturbed Opaque Refusing Walking Lifting Inspector Foreseeing Predicting

section Parts
variable {store : Store}

theorem on_bind_congr {α β : Type} {first : Io α} {next next' : α → Io β} {store : Store}
    (same : ∀ value after, on (next value) after = on (next' value) after) : on (first >>= next) store = on (first >>= next') store := by
  rw [on_bind, on_bind]
  rcases on first store with ⟨result | result, after⟩
  · rfl
  · exact same result after

theorem on_bind_assoc {α β γ : Type} (first : Io α) (middle : α → Io β) (last : β → Io γ) (store : Store) :
    on ((first >>= middle) >>= last) store = on (first >>= fun value => middle value >>= last) store := by
  rw [on_bind, on_bind, on_bind first]
  rcases on first store with ⟨result | result, after⟩
  · rfl
  · exact (on_bind (middle result) last after).symm

/-- The pair headers of open. -/
def headerPart : Io Unit := do
  let header ← pairHeader .database databaseMagic
  let walHeader ← pairHeader .wal walMagic
  Io.require ((header.drop 12).take 16 = (walHeader.drop 12).take 16) .pairMismatch

theorem reads_headerPart : Reads headerPart :=
  reads_bind (reads_pairHeader _ _) fun _ => reads_bind (reads_pairHeader _ _) fun _ => reads_require _ _

theorem reads_walPart (m : Manifests) (databaseSize : Nat) : Reads (walPart m databaseSize) :=
  reads_bind (reads_size _) fun _ => reads_bind (reads_require _ _) fun _ => reads_bind (reads_staleSequence _ _) fun _ =>
    reads_bind (reads_scanWal _ _ _ _) fun _ => reads_bind (reads_require _ _) fun _ =>
    reads_bind (reads_require _ _) fun _ => reads_pure _

/-- Validation in its parts. -/
theorem validate_parts : on validatePair store = on (headerPart >>= fun _ => fileSize .database >>= fun size =>
    readManifests size >>= fun m => checkSegments m.generation m.dataEnd m.last m.tail m.lastTime m.hasTime m.state >>= fun checked =>
    walPart m size >>= fun seen => pure ⟨m, checked, seen.1, seen.2.1, seen.2.2⟩) store := by
  unfold validatePair headerPart
  rw [on_bind_assoc]
  refine on_bind_congr fun header after => ?_
  rw [on_bind_assoc]
  refine on_bind_congr fun walHeader after => on_bind_congr fun _ after => on_bind_congr fun size after =>
    on_bind_congr fun m after => on_bind_congr fun checked after => ?_
  unfold walPart
  rw [on_bind_assoc]
  refine on_bind_congr fun walSize after => ?_
  rw [on_bind_assoc]
  refine on_bind_congr fun _ after => ?_
  rw [on_bind_assoc]
  refine on_bind_congr fun stale after => ?_
  rw [on_bind_assoc]
  refine on_bind_congr fun scan after => ?_
  rw [on_bind_assoc]
  refine on_bind_congr fun _ after => ?_
  rw [on_bind_assoc]
  exact on_bind_congr fun _ after => rfl

/-- The header stages. -/
theorem headers_agree (store : Store) :
    (on headerPart store).1 = .ok () ∧
        inspectHeaders (store.content .database) (store.content .wal) startState = startState ∨
      ∃ error stage, (on headerPart store).1 = .error error ∧
        (inspectHeaders (store.content .database) (store.content .wal) startState).predicted = some (error, stage) := by
  unfold headerPart inspectHeaders
  rw [on_bind, pair_header_agrees]
  cases inspectPairHeader (store.content .database) databaseMagic with
  | error error => exact .inr ⟨error, _, rfl, rfl⟩
  | ok header =>
      simp only
      rw [on_bind, pair_header_agrees]
      cases inspectPairHeader (store.content .wal) walMagic with
      | error error => exact .inr ⟨error, _, rfl, rfl⟩
      | ok walHeader =>
          simp only [on_require]
          by_cases same : (header.drop 12).take 16 = (walHeader.drop 12).take 16
          · rw [if_pos same, if_neg (not_not.mpr same)]
            exact .inl ⟨rfl, rfl⟩
          · rw [if_neg same, if_pos same]
            exact .inr ⟨.pairMismatch, _, rfl, rfl⟩

end Parts

section Scanning
variable {w : Bytes} {store : Store} {limit fuel position sequence : Nat} {stale : Bool} {scan : WalScan} {m : Manifests}

-- A frame does not depend on the file that it stands in.
theorem frame_file (file : File) (offset limit sequence : Nat) (store : Store) :
    (on (readFrame file offset limit sequence) store).1 = frameIn (store.content file) offset limit sequence := by
  have content : (image (store.content file)).content .database = store.content file := rfl
  rw [frameIn, readFrame, readFrame, on_require_bind, on_require_bind]
  by_cases room : 32 ≤ limit - offset
  · rw [if_pos room, if_pos room, on_bind, on_bind, on_read_exact, on_read_exact, content]
    by_cases short : (readAt (store.content file) offset 32).length = 32
    · rw [if_pos short]
      simp only [on_require_bind]
      split
      · split
        · rw [on_bind, on_bind, on_read_exact, on_read_exact, content]
          by_cases cut : (readAt (store.content file) (offset + 32)
              (decode32 ((readAt (store.content file) offset 32).drop 20))).length =
                decode32 ((readAt (store.content file) offset 32).drop 20)
          · rw [if_pos cut]
            simp only [on_require_bind]
            split <;> rfl
          · rw [if_neg cut]
        · rfl
      · rfl
    · rw [if_neg short]
  · rw [if_neg room, if_neg room]

/-- A scan may stop where the run over the frames does: at the limit, or at a frame
that the limit cuts. -/
def Stops (w : Bytes) (limit position sequence : Nat) (stale : Bool) (run : List Frame × Option Nat) : Prop :=
  run.2.isSome = true ∨ stale = false ∧
    frameIn w (position + (runBytes run.1).length) limit (next64 (sequence + run.1.length)) = .error .endOfData

theorem stops_cons {frame : Frame} {run : List Frame × Option Nat} :
    Stops w limit position sequence stale (frame :: run.1, run.2) ↔
      Stops w limit (position + frame.bytes.length) (next64 sequence) stale run := by
  have place : position + (runBytes (frame :: run.1)).length = position + frame.bytes.length + (runBytes run.1).length := by
    rw [runBytes, List.flatMap_cons, List.length_append, runBytes]
    omega
  have counts : next64 (sequence + (frame :: run.1).length) = next64 (next64 sequence + run.1.length) := by
    rw [List.length_cons, next64, next64, next64]
    omega
  rw [Stops, Stops, place, counts]

/-- The scan of the WAL, as the run over its frames. -/
theorem scan_run (small : scan.sequence < 18446744073709551616) :
    Stops (store.content .wal) limit scan.offset scan.sequence stale
        (frameRun (store.content .wal) limit fuel scan.offset (next64 scan.sequence)) ∧
      (∃ last, (on (scanWal limit stale fuel scan) store).1 = .ok last ∧ last.sequence =
        (scan.sequence + (frameRun (store.content .wal) limit fuel scan.offset (next64 scan.sequence)).1.length) %
          18446744073709551616) ∨
    ¬ Stops (store.content .wal) limit scan.offset scan.sequence stale
        (frameRun (store.content .wal) limit fuel scan.offset (next64 scan.sequence)) ∧
      (on (scanWal limit stale fuel scan) store).1 = .error .invalidDatabase := by
  have whole : (scan.sequence + 0) % 18446744073709551616 = scan.sequence := Nat.mod_eq_of_lt small
  induction fuel generalizing scan with
  | zero => exact .inl ⟨.inl rfl, scan, rfl, whole.symm⟩
  | succ fuel ih =>
      rw [scanWal]
      by_cases more : scan.offset < limit
      · rw [if_pos more, on_examine, frame_file,
          (reads_readFrame .wal scan.offset limit (next64 scan.sequence)).on_state store]
        cases found : frameIn (store.content .wal) scan.offset limit (next64 scan.sequence) with
        | error error =>
            have stopped : Stops (store.content .wal) limit scan.offset scan.sequence stale ([], none) ↔
                stale = false ∧ error = .endOfData := by
              have place : scan.offset + (runBytes []).length = scan.offset := rfl
              have counts : next64 (scan.sequence + ([] : List Frame).length) = next64 scan.sequence := rfl
              rw [Stops, place, counts, found]
              simp
            rw [frame_run_error more found, stopped]
            rcases read_frame_error found with rfl | ⟨rfl, _⟩
            · exact .inr ⟨fun both => absurd both.2 (by decide), rfl⟩
            · cases stale with
              | true => exact .inr ⟨fun both => absurd both.1 (by decide), rfl⟩
              | false => exact .inl ⟨⟨rfl, rfl⟩, scan, rfl, whole.symm⟩
        | ok frame =>
            have turned : (scan.frame frame).offset = scan.offset + frame.bytes.length ∧
                (scan.frame frame).sequence = next64 scan.sequence := ⟨rfl, rfl⟩
            have step := @ih (scan.frame frame) (turned.2 ▸ next64_lt _) (Nat.mod_eq_of_lt (turned.2 ▸ next64_lt _))
            have counts : (next64 scan.sequence + (frameRun (store.content .wal) limit fuel (scan.offset + frame.bytes.length)
                (next64 (next64 scan.sequence))).1.length) % 18446744073709551616 =
                (scan.sequence + ((frameRun (store.content .wal) limit fuel (scan.offset + frame.bytes.length)
                (next64 (next64 scan.sequence))).1.length + 1)) % 18446744073709551616 := by
              rw [next64]
              omega
            rw [turned.1, turned.2, counts] at step
            rw [frame_run_ok more found, stops_cons, List.length_cons]
            exact step
      · rw [if_neg more, frame_run_end more]
        exact .inl ⟨.inl rfl, scan, rfl, whole.symm⟩

/-- The sequence number in front of the WAL. -/
def walBefore (w : Bytes) (m : Manifests) : Nat := (leftover w m.last).getD m.last

/-- The frames of the WAL. -/
def walRun (w : Bytes) (m : Manifests) : List Frame × Option Nat := frameRun w w.length w.length 32 (next64 (walBefore w m))

def walLast (w : Bytes) (m : Manifests) : Nat := (walBefore w m + (walRun w m).1.length) % 18446744073709551616

/-- The WAL reads behind this manifest, and leaves no orphan bytes in the database. -/
structure Replayable (w : Bytes) (m : Manifests) (databaseSize : Nat) : Prop where
  least : 32 ≤ w.length
  most : w.length ≤ walCapacity
  first : w.length > 32 → 64 ≤ w.length ∧ checkFrameHeader (readAt w 32 32) = true
  stops : Stops w w.length 32 (walBefore w m) (leftover w m.last).isSome (walRun w m)
  ends : (leftover w m.last).isSome = true → walLast w m = m.last
  bare : ¬ Orphaned m databaseSize (leftover w m.last).isSome (walLast w m)

theorem leftover_before {installed before : Nat} (found : leftover w installed = some before) : before < 18446744073709551616 := by
  have small := decode64_lt ((inspectRead w 32 32).drop 8)
  unfold leftover at found
  split at found
  · cases found
    omega
  · cases found

theorem before_small (top : m.last ≤ uint64Max) : walBefore w m < 18446744073709551616 := by
  have large : uint64Max = 18446744073709551615 := rfl
  rw [walBefore]
  cases found : leftover w m.last with
  | none =>
      change m.last < _
      omega
  | some before => exact leftover_before found

/-- The WAL part of open passes exactly such a WAL. -/
theorem wal_part_agrees {databaseSize : Nat} (top : m.last ≤ uint64Max) :
    Replayable (store.content .wal) m databaseSize ∧ (∃ seen, (on (walPart m databaseSize) store).1 = .ok seen) ∨
      ¬ Replayable (store.content .wal) m databaseSize ∧ (on (walPart m databaseSize) store).1 = .error .invalidDatabase := by
  have first := @stale_agrees store m.last
  have width := read_length (store.content .wal) 32 32
  rw [walPart, on_bind, on_size]
  simp only [on_require_bind]
  by_cases range : 32 ≤ (store.content .wal).length ∧ (store.content .wal).length ≤ walCapacity
  · rw [if_pos range, on_bind_reads (reads_staleSequence _ _)]
    by_cases bad : (store.content .wal).length > 32 ∧ ((inspectRead (store.content .wal) 32 32).length < 32 ∨
        checkFrameHeader (inspectRead (store.content .wal) 32 32) ≠ true)
    · rw [first, if_pos bad]
      refine .inr ⟨fun replayable => ?_, rfl⟩
      obtain ⟨long, valid⟩ := replayable.first bad.1
      rcases bad.2 with short | wrong
      · rw [inspectRead] at short
        omega
      · exact wrong valid
    · have some_ : _ = Except.ok (leftover (store.content .wal) m.last) := first.trans (if_neg bad)
      have before : (leftover (store.content .wal) m.last).getD m.last = walBefore (store.content .wal) m := rfl
      have fine : (store.content .wal).length > 32 → 64 ≤ (store.content .wal).length ∧
          checkFrameHeader (readAt (store.content .wal) 32 32) = true := by
        intro more
        refine ⟨?_, by_contra fun wrong => bad ⟨more, .inr wrong⟩⟩
        by_contra short
        exact bad ⟨more, .inl (by rw [inspectRead]; omega)⟩
      rw [some_]
      simp only [before]
      rw [on_bind_reads (reads_scanWal _ _ _ _)]
      rcases @scan_run store (store.content .wal).length (store.content .wal).length
        (leftover (store.content .wal) m.last).isSome (startScan (walBefore (store.content .wal) m)) (before_small top) with
        ⟨stops, last, ran, sequence⟩ | ⟨stuck, ran⟩
      · have sequence : last.sequence = walLast (store.content .wal) m := sequence
        rw [ran]
        simp only [on_require_bind, sequence]
        by_cases ends : (leftover (store.content .wal) m.last).isSome = true → walLast (store.content .wal) m = m.last
        · rw [if_pos ends]
          by_cases bare : Orphaned m databaseSize (leftover (store.content .wal) m.last).isSome (walLast (store.content .wal) m)
          · rw [if_neg (show ¬ ¬ (databaseSize > m.dataEnd ∧ _) from not_not.mpr bare)]
            exact .inr ⟨fun replayable => replayable.bare bare, rfl⟩
          · rw [if_pos (show ¬ (databaseSize > m.dataEnd ∧ _) from bare)]
            exact .inl ⟨⟨range.1, range.2, fine, stops, ends, bare⟩, _, rfl⟩
        · rw [if_neg ends]
          exact .inr ⟨fun replayable => ends replayable.ends, rfl⟩
      · rw [ran]
        exact .inr ⟨fun replayable => stuck replayable.stops, rfl⟩
  · rw [if_neg range]
    exact .inr ⟨fun replayable => range ⟨replayable.least, replayable.most⟩, rfl⟩

end Scanning

section Copies
variable {d : Bytes} {limit n fuel offset : Nat} {enabled : Bool} {walk last : Walk} {infos : List SegmentInfo} {copy : Copy}

-- A copy that goes through is as large as the chain.
theorem copy_whole (enough : limit - offset ≤ fuel) (inside : offset ≤ limit)
    (through : (chainCopy d limit fuel offset copy).2 = true) : (chainCopy d limit fuel offset copy).1.length = limit - offset := by
  induction fuel generalizing offset copy with
  | zero =>
      change 0 = _
      omega
  | succ fuel ih =>
      rw [chainCopy] at through ⊢
      by_cases more : offset < limit
      · rw [if_pos more] at through ⊢
        cases found : headerIn d offset limit with
        | error error =>
            rw [found] at through
            cases through
        | ok segment =>
            rw [found] at through
            have fits := (header_in found).fits
            have size := (header_in found).size
            have written := (@segment_copy_length d limit offset segment copy found).2
            by_cases tiled : Tiled d offset segment
            · simp only [tiled, if_true] at through ⊢
              have rest := ih (by omega) fits through
              rw [List.length_append, written tiled, rest]
              omega
            · simp only [tiled, if_false] at through
              cases through
      · rw [if_neg more]
        change 0 = _
        omega

-- A copy reads every body that tiles.
theorem copy_of_tiling (passed : Passed d limit enabled walk n infos last) (whole : last.offset = limit)
    (tiling : Tiling d walk.offset infos) : (chainCopy d limit fuel walk.offset copy).2 = true := by
  induction passed generalizing fuel copy with
  | done walk n =>
      cases fuel with
      | zero => rfl
      | succ fuel =>
          rw [chainCopy, if_neg (by omega)]
  | @more walk last n info infos admits rest ih =>
      obtain ⟨tiled, others⟩ := tiling
      cases fuel with
      | zero => rfl
      | succ fuel =>
          have fits := (header_in admits.found).fits
          have size := (header_in admits.found).size
          have step := @ih fuel (nextCopy copy info) whole others
          rw [chainCopy, if_pos (by omega), admits.found]
          simp only [tiled, if_true]
          exact step

theorem walk_of_passed {store : Store} (passed : Passed (store.content .database) limit enabled walk n infos last) :
    (on (walkSegments limit enabled infos.length n walk) store).1 = .ok last := by
  induction passed with
  | done walk n => rfl
  | @more walk last n info infos admits rest ih =>
      have read := @read_header (store.content .database) walk.offset limit store (agree_refl _ _ _)
      rw [admits.found] at read
      rw [List.length_cons, walkSegments, on_bind_ok read, on_require_bind,
        if_pos ⟨admits.more, admits.above, admits.next⟩, on_require_bind, if_pos admits.links]
      exact ih

end Copies

section Stages
variable {d w : Bytes} {store : Store} {m : Manifests} {infos : List SegmentInfo} {last : Walk}

/-- The pair passes every check that both programs make of it alike. -/
structure Orderly (d w : Bytes) (m : Manifests) (infos : List SegmentInfo) (last : Walk) : Prop where
  pair : ∃ identity : Bytes, identity.length = 16 ∧ Holds d 0 (encodePair databaseMagic identity) ∧
    Holds w 0 (encodePair walMagic identity)
  found : chosen d = some m
  count : infos.length = m.generation
  passed : Passed d m.dataEnd m.state.enabled (startWalk m.state.root) 1 infos last
  ends : Ends m last
  wal : Replayable w m d.length

theorem header_part_ok (store : Store) : (on headerPart store).1 = .ok () ↔ ∃ identity : Bytes, identity.length = 16 ∧
    Holds (store.content .database) 0 (encodePair databaseMagic identity) ∧
    Holds (store.content .wal) 0 (encodePair walMagic identity) := by
  unfold headerPart
  constructor
  · intro ran
    obtain ⟨header, first, ran⟩ := bind_ok (reads_pairHeader _ _) ran
    obtain ⟨walHeader, second, ran⟩ := bind_ok (reads_pairHeader _ _) ran
    have same : (header.drop 12).take 16 = (walHeader.drop 12).take 16 := by
      by_contra other
      rw [on_require, if_neg other] at ran
      cases ran
    have pair := pair_bytes rfl (congrArg Prod.fst first)
    have walPair := pair_bytes rfl (congrArg Prod.fst second)
    rw [← same] at walPair
    exact ⟨_, pair.2, pair.1, walPair.1⟩
  · rintro ⟨identity, wide, pair, walPair⟩
    rw [on_bind_ok (pair_header pair rfl wide), on_bind_ok (pair_header walPair rfl wide), on_require,
      if_pos (by rw [pair_identity rfl wide, pair_identity rfl wide])]

theorem stage_told {state : InspectState} {prediction : Error × String} (told : state.predicted = some prediction)
    (stage : InspectState → InspectState) : inspectStage stage state = state := by
  rw [inspectStage, told]
  rfl

theorem stage_next {state : InspectState} (fresh : state.predicted = none) (stage : InspectState → InspectState) :
    inspectStage stage state = stage state := by
  rw [inspectStage, fresh]
  rfl

/-- What the inspector has learned of a pair that it passes. -/
structure Foresees (d : Bytes) (m : Manifests) (last : Walk) (stale : Bool) (scan : WalScan) (state : InspectState) : Prop where
  fresh : state.predicted = none
  shape : ∃ slot, spine state = { spine (learned slot m) with
    live := last.live
    stale := stale
    sequence := scan.sequence
    walEnd := scan.offset
    walLastTime := scan.last }
  known : state.floorKnown = true
  time : state.floorTime = if stale = false ∧ scan.sequence > m.last then scan.last else floorOf d m last

-- The stages behind the manifests.
theorem stages_from {slot : Option Nat} (paired : (on headerPart store).1 = .ok ())
    (learns : inspectManifests (store.content .database) startState = learned slot m) :
    inspectStages (store.content .database) (store.content .wal) =
      inspectStage (inspectWal (store.content .database) (store.content .wal))
        (inspectSegments (store.content .database) (learned slot m)) := by
  have headers : inspectHeaders (store.content .database) (store.content .wal) startState = startState := by
    rcases headers_agree store with ⟨_, same⟩ | ⟨error, stage, failed, _⟩
    · exact same
    · rw [paired] at failed
      cases failed
  have manifests : inspectStage (inspectManifests (store.content .database)) startState = learned slot m :=
    (stage_next rfl _).trans learns
  rw [inspectStages, headers, manifests, stage_next (show (learned slot m).predicted = none from rfl)]

theorem found_learns (found : chosen d = some m) : ∃ slot, inspectManifests d startState = learned slot m := by
  have agrees := manifests_agree d
  rw [found] at agrees
  exact agrees

/-- Behind the segments, the WAL stage of the inspector is that of open. -/
theorem inspect_rest {slot : Option Nat} (fresh : (inspectSegments (store.content .database) (learned slot m)).predicted = none)
    (kept : spine (inspectSegments (store.content .database) (learned slot m)) = { spine (learned slot m) with live := last.live })
    (known : (inspectSegments (store.content .database) (learned slot m)).floorKnown = true)
    (time : (inspectSegments (store.content .database) (learned slot m)).floorTime = floorOf (store.content .database) m last) :
    match (on (walPart m (store.content .database).length) store).1 with
    | .ok (stale, scan, _) => Foresees (store.content .database) m last stale scan
        (inspectWal (store.content .database) (store.content .wal) (inspectSegments (store.content .database) (learned slot m)))
    | .error error => error = .invalidDatabase ∧
        ∃ stage, (inspectWal (store.content .database) (store.content .wal)
          (inspectSegments (store.content .database) (learned slot m))).predicted = some (.invalidDatabase, stage) := by
  generalize inspectSegments (store.content .database) (learned slot m) = state at fresh kept known time ⊢
  have agrees := @wal_agrees store state m (store.content .database) fresh (keeps_spine kept) ((congrArg InspectState.phase kept :))
    ((congrArg InspectState.stale kept :)) ((congrArg InspectState.walLastTime kept :)) known
  cases ran : (on (walPart m (store.content .database).length) store).1 with
  | error error =>
      rw [ran] at agrees
      exact agrees
  | ok seen =>
      rw [ran] at agrees
      obtain ⟨stale, scan, size⟩ := seen
      obtain ⟨free, shape, known', time'⟩ := agrees
      rw [kept] at shape
      rw [time] at time'
      exact ⟨free, ⟨slot, shape⟩, known', time'⟩

theorem check_unwalked {error : Error}
    (walked : (on (walkSegments m.dataEnd m.state.enabled m.generation 1 (startWalk m.state.root)) store).1 = .error error) :
    (on (checkSegments m.generation m.dataEnd m.last m.tail m.lastTime m.hasTime m.state) store).1 = .error error := by
  rw [checkSegments, on_bind_reads (reads_walkSegments _ _ _ _ _), walked]

theorem orderly_wal (orderly : Orderly (store.content .database) (store.content .wal) m infos last) :
    ∃ seen, (on (walPart m (store.content .database).length) store).1 = .ok seen := by
  rcases @wal_part_agrees store m (store.content .database).length (Establishing.chosen_last orderly.found) with ⟨_, passes⟩ | ⟨bad, _⟩
  · exact passes
  · exact absurd orderly.wal bad

/-- What open makes of an orderly pair. -/
theorem orderly_validate (orderly : Orderly (store.content .database) (store.content .wal) m infos last) :
    (Unread (store.content .database) m last → (on validatePair store).1 = .error .invalidDatabase) ∧
    (¬ Unread (store.content .database) m last →
      ∃ stale scan size, (on (walPart m (store.content .database).length) store).1 = .ok (stale, scan, size) ∧
        (on validatePair store).1 = .ok ⟨m, ⟨last.previous, endTime (store.content .database) m last, last.spanStart, last.live⟩,
          stale, scan, size⟩) := by
  have paired := (header_part_ok store).mpr orderly.pair
  have walked := walk_of_passed orderly.passed
  rw [orderly.count] at walked
  obtain ⟨_, refuses, accepts⟩ := check_ends (chosen_valid orderly.found) walked
  rw [validate_parts, on_bind_reads reads_headerPart, paired]
  simp only
  rw [on_bind_ok (on_size _ _), on_bind_ok (read_chosen orderly.found), on_bind_reads (reads_checkSegments _ _ _ _ _ _ _)]
  refine ⟨fun unread => ?_, fun read => ?_⟩
  · rw [refuses orderly.ends unread]
  · rw [accepts orderly.ends read]
    simp only
    rw [on_bind_reads (reads_walPart _ _)]
    obtain ⟨⟨stale, scan, size⟩, ran⟩ := orderly_wal orderly
    exact ⟨stale, scan, size, ran, by rw [ran]; rfl⟩

/-- What the inspector makes of an orderly pair. -/
theorem orderly_inspect (orderly : Orderly (store.content .database) (store.content .wal) m infos last) :
    (Miscounted (store.content .database) m last →
      ∃ stage, (inspectStages (store.content .database) (store.content .wal)).predicted = some (.invalidDatabase, stage)) ∧
    (¬ Miscounted (store.content .database) m last → ∀ stale scan size,
      (on (walPart m (store.content .database).length) store).1 = .ok (stale, scan, size) →
        Foresees (store.content .database) m last stale scan (inspectStages (store.content .database) (store.content .wal))) := by
  have paired := (header_part_ok store).mpr orderly.pair
  have walked := walk_of_passed orderly.passed
  rw [orderly.count] at walked
  obtain ⟨slot, learns⟩ := found_learns orderly.found
  have segments := @segments_agree store m (store.content .database) rfl (chosen_valid orderly.found) slot
  rw [walked] at segments
  rw [stages_from paired learns]
  rcases segments with ⟨⟨_, counted⟩, fresh, kept, known, time⟩ | ⟨wrong, stage, told⟩
  · refine ⟨fun bad => absurd bad counted, fun _ stale scan size ran => ?_⟩
    have rest := inspect_rest fresh kept known time
    rw [ran] at rest
    rw [stage_next fresh]
    exact rest
  · refine ⟨fun _ => ⟨stage, by rw [stage_told told, told]⟩, fun counted => absurd ⟨orderly.ends, counted⟩ wrong⟩

/-- A pair that is not orderly is refused by both, for the same reason. -/
theorem disorderly_refused (disorderly : ∀ m infos last, ¬ Orderly (store.content .database) (store.content .wal) m infos last) :
    ∃ error stage, (on validatePair store).1 = .error error ∧
      (inspectStages (store.content .database) (store.content .wal)).predicted = some (error, stage) := by
  rw [validate_parts, on_bind_reads reads_headerPart]
  rcases headers_agree store with ⟨paired, same⟩ | ⟨error, stage, failed, told⟩
  · rw [paired]
    simp only
    rw [on_bind_ok (on_size _ _)]
    cases found : chosen (store.content .database) with
    | none =>
        have agrees := manifests_agree (store.content .database)
        rw [found] at agrees
        have manifests : inspectStage (inspectManifests (store.content .database)) startState =
            { startState with predicted := some (.invalidDatabase, "manifests") } := (stage_next rfl _).trans agrees
        refine ⟨.invalidDatabase, "manifests", by rw [on_bind_error (read_unchosen found)], ?_⟩
        rw [inspectStages, same, manifests, stage_told (show InspectState.predicted
          { startState with predicted := some (.invalidDatabase, "manifests") } = some (.invalidDatabase, "manifests") from rfl)]
        rfl
    | some m =>
        obtain ⟨slot, learns⟩ := found_learns found
        have shape := chosen_valid found
        have segments := @segments_agree store m (store.content .database) rfl shape slot
        rw [on_bind_ok (read_chosen found), on_bind_reads (reads_checkSegments _ _ _ _ _ _ _), stages_from paired learns]
        cases walked : (on (walkSegments m.dataEnd m.state.enabled m.generation 1 (startWalk m.state.root)) store).1 with
        | error error =>
            rw [walked] at segments
            obtain ⟨rfl, stage, told⟩ := segments
            exact ⟨.invalidDatabase, stage, by rw [check_unwalked walked], by rw [stage_told told, told]⟩
        | ok last =>
            rw [walked] at segments
            obtain ⟨infos, count, passed⟩ := passed_of_walk walked
            obtain ⟨strays, refuses, accepts⟩ := check_ends shape walked
            by_cases ends : Ends m last
            · rcases @wal_part_agrees store m (store.content .database).length (Establishing.chosen_last found) with ⟨good, _⟩ | ⟨_, failed⟩
              · exact absurd ⟨(header_part_ok store).mp paired, found, count, passed, ends, good⟩ (disorderly m infos last)
              · have refused : ∃ stage, (inspectStage (inspectWal (store.content .database) (store.content .wal))
                    (inspectSegments (store.content .database) (learned slot m))).predicted = some (.invalidDatabase, stage) := by
                  rcases segments with ⟨_, fresh, kept, known, time⟩ | ⟨_, stage, told⟩
                  · have rest := inspect_rest fresh kept known time
                    rw [failed] at rest
                    rw [stage_next fresh]
                    exact rest.2
                  · exact ⟨stage, by rw [stage_told told, told]⟩
                obtain ⟨stage, told⟩ := refused
                refine ⟨.invalidDatabase, stage, ?_, told⟩
                by_cases unread : Unread (store.content .database) m last
                · rw [refuses ends unread]
                · rw [accepts ends unread]
                  simp only
                  rw [on_bind_reads (reads_walPart _ _), failed]
            · rcases segments with ⟨⟨there, _⟩, _⟩ | ⟨_, stage, told⟩
              · exact absurd there ends
              · exact ⟨.invalidDatabase, stage, by rw [strays ends], by rw [stage_told told, told]⟩
  · refine ⟨error, stage, by rw [failed], ?_⟩
    rw [inspectStages, stage_told told, stage_told told, stage_told told, told]

end Stages

section Verdicts
variable {d : Bytes} {store : Store} {v : Validated} {m : Manifests} {infos : List SegmentInfo} {last : Walk} {db : Batches}
  {scratchSize : Nat}

/-- `recovery.result`. -/
def recoveryResult (database wal : Bytes) : Except Error Unit :=
  match inspectVerify database wal with
  | .error (error, _) => .error error
  | .ok _ => .ok ()

/-- What the inspector takes for granted of a pair that passes the common checks. -/
structure Foreseen (d : Bytes) (m : Manifests) (infos : List SegmentInfo) (last : Walk) : Prop where
  counted : Unread d m last ↔ Miscounted d m last
  room : m.state.phase ≠ 0 → m.state.revision ≤ uint64Max - 2
  copied : m.state.phase = 2 → Tiling d m.state.root infos

theorem told_result {database wal : Bytes} {error : Error} {stage : String}
    (told : (inspectStages database wal).predicted = some (error, stage)) : recoveryResult database wal = .error error := by
  rw [recoveryResult, inspectVerify]
  simp only [told]

theorem free_result {database wal : Bytes} (free : (inspectStages database wal).predicted = none) :
    recoveryResult database wal = .ok () := by
  rw [recoveryResult, inspectVerify]
  simp only [free]

-- A manifest without a timestamp is not under retention.
theorem timeless_idle (found : chosen (store.content .database) = some m) (timeless : m.hasTime = false) : m.state.phase = 0 := by
  by_contra busy
  have enabled := (busy_bounds found busy).enabled busy
  have timed := (chosen_valid found).timed enabled
  rw [timeless] at timed
  cases timed

theorem recover_unroomy (busy : v.manifests.state.phase ≠ 0) (beyond : uint64Max - 2 < v.manifests.state.revision) :
    on (recoverPair v) store = (.error (.errno .eoverflow), (store.sync .database).sync .wal) := by
  refine recover_error ?_
  rw [finishPair, if_pos busy]
  unfold finishRetention
  rw [on_require_bind, if_neg (by omega)]

theorem call_refused {error : Error} (present : Present store) (closed : db.database = false ∧ db.wal = false)
    (large : batchScratch ≤ scratchSize) (refused : (on validatePair store).1 = .error error) :
    (Host.call ⟨store, db⟩ (.openPair .openExisting scratchSize)).1 = .error error := by
  have whole := reads_validatePair.on_eq store
  rw [refused] at whole
  have failed : on recovering store = (.error error, store) := on_bind_error whole
  rw [call_open present closed large (by decide), failed]

theorem call_validated (present : Present store) (closed : db.database = false ∧ db.wal = false)
    (large : batchScratch ≤ scratchSize) (ran : (on validatePair store).1 = .ok v) :
    ((Host.call ⟨store, db⟩ (.openPair .openExisting scratchSize)).1.map fun _ => ()) = (on (recoverPair v) store).1.map fun _ => () := by
  have whole := reads_validatePair.on_eq store
  rw [ran] at whole
  have front : on recovering store = on (recoverPair v) store := on_bind_ok whole
  rw [call_open present closed large (by decide), front]
  rcases on (recoverPair v) store with ⟨result | result, after⟩ <;> rfl

/-- The verdict on an orderly pair. -/
theorem orderly_verdict (orderly : Orderly (store.content .database) (store.content .wal) m infos last)
    (present : Present store) (closed : db.database = false ∧ db.wal = false) (large : batchScratch ≤ scratchSize) :
    (recoveryResult (store.content .database) (store.content .wal) =
        (Host.call ⟨store, db⟩ (.openPair .openExisting scratchSize)).1.map fun _ => ()) ↔
      Foreseen (store.content .database) m infos last := by
  obtain ⟨refuses, accepts⟩ := orderly_validate orderly
  obtain ⟨counts, passes⟩ := orderly_inspect orderly
  by_cases unread : Unread (store.content .database) m last
  · have idle := timeless_idle orderly.found unread.1
    rw [call_refused present closed large (refuses unread)]
    by_cases miscounted : Miscounted (store.content .database) m last
    · obtain ⟨stage, told⟩ := counts miscounted
      rw [told_result told]
      exact ⟨fun _ => ⟨⟨fun _ => miscounted, fun _ => unread⟩, fun busy => absurd idle busy, fun copying => by omega⟩, fun _ => rfl⟩
    · obtain ⟨⟨stale, scan, size⟩, part⟩ := orderly_wal orderly
      rw [free_result (passes miscounted stale scan size part).fresh]
      exact ⟨fun same => (by cases same), fun foreseen => absurd (foreseen.counted.mp unread) miscounted⟩
  · obtain ⟨stale, scan, size, part, ran⟩ := accepts unread
    rw [call_validated present closed large ran]
    by_cases miscounted : Miscounted (store.content .database) m last
    · obtain ⟨stage, told⟩ := counts miscounted
      have idle := timeless_idle orderly.found miscounted.1
      rw [told_result told, recover_idle idle]
      exact ⟨fun same => (by cases same), fun foreseen => absurd (foreseen.counted.mpr miscounted) unread⟩
    · rw [free_result (passes miscounted stale scan size part).fresh]
      have counted : Unread (store.content .database) m last ↔ Miscounted (store.content .database) m last :=
        ⟨fun bad => absurd bad unread, fun bad => absurd bad miscounted⟩
      rcases recover_cases (accepted ran) with ⟨finished, after, through, recovered⟩ | ⟨busy, beyond, failed⟩ |
        ⟨copying, room, damaged, after, failed, _⟩
      · rw [through]
        refine ⟨fun _ => ⟨counted, fun busy => ?_, fun copying => ?_⟩, fun _ => rfl⟩
        · by_contra beyond
          rw [recover_unroomy busy (Nat.lt_of_not_le beyond)] at through
          cases through
        · exact tiling_of_copy orderly.passed (Nat.le_refl _) (recovered.copied copying).1
      · rw [failed]
        exact ⟨fun same => (by cases same), fun foreseen => absurd (foreseen.room busy) (Nat.not_le.mpr beyond)⟩
      · rw [failed]
        refine ⟨fun same => (by cases same), fun foreseen => ?_⟩
        have through := @copy_of_tiling (store.content .database) m.dataEnd 1 (m.dataEnd - m.state.root) m.state.enabled
          (startWalk m.state.root) last infos ⟨160, 0, 0, List.replicate 24 0⟩ orderly.passed orderly.ends.place (foreseen.copied copying)
        exact absurd (through.symm.trans damaged) (by decide)

end Verdicts

/-- The inspector predicts the result of open, exactly when a pair that passes the
common checks also passes those that only open makes. -/
theorem recovery_foreseen {store : Store} {db : Batches} {scratchSize : Nat} (present : Present store)
    (closed : db.database = false ∧ db.wal = false) (large : batchScratch ≤ scratchSize) :
    (recoveryResult (store.content .database) (store.content .wal) =
        (Host.call ⟨store, db⟩ (.openPair .openExisting scratchSize)).1.map fun _ => ()) ↔
      ∀ m infos last, Orderly (store.content .database) (store.content .wal) m infos last →
        Foreseen (store.content .database) m infos last := by
  constructor
  · intro same m infos last orderly
    exact (orderly_verdict orderly present closed large).mp same
  · intro foreseen
    by_cases some_ : ∃ m infos last, Orderly (store.content .database) (store.content .wal) m infos last
    · obtain ⟨m, infos, last, orderly⟩ := some_
      exact (orderly_verdict orderly present closed large).mpr (foreseen m infos last orderly)
    · have none_ : ∀ m infos last, ¬ Orderly (store.content .database) (store.content .wal) m infos last :=
        fun m infos last orderly => some_ ⟨m, infos, last, orderly⟩
      obtain ⟨error, stage, refused, told⟩ := disorderly_refused none_
      rw [told_result told, call_refused present closed large refused]
      rfl

/-- The set of the damaged pair, with its frame. -/
def waitingStore : Store where
  database := some (settled (encodePair databaseMagic (List.replicate 16 7) ++ encodeRetention 2 1 456 1 5 308 308 2 ++
    List.replicate 64 0 ++ List.replicate 148 0 ++ encodeSegment 1 1 84 5 5 0 0 true ++ frame 1 soleBatch.records))
  wal := some (settled (encodePair walMagic (List.replicate 16 7)))
  entropy := []

theorem recovery_foreseen_waiting : recoveryResult (waitingStore.content .database) (waitingStore.content .wal) =
      ((Host.call ⟨waitingStore, batchesInit⟩ (.openPair .openExisting batchScratch)).1.map fun _ => ()) ↔
    ∀ m infos last, Orderly (waitingStore.content .database) (waitingStore.content .wal) m infos last →
      Foreseen (waitingStore.content .database) m infos last :=
  recovery_foreseen ⟨rfl, rfl⟩ ⟨rfl, rfl⟩ (Nat.le_refl batchScratch)

example : recoveryResult (waitingStore.content .database) (waitingStore.content .wal) = .ok () := by decide +kernel

-- The damaged frame is only counted as unreadable.
theorem damaged_unforeseen : recoveryResult (damagedStore.content .database) (damagedStore.content .wal) = .ok () ∧
    ((Host.call ⟨damagedStore, batchesInit⟩ (.openPair .openExisting batchScratch)).1.map fun _ => ()) = .error .invalidDatabase := by
  decide +kernel

theorem recovery_unforeseen : ¬ ∀ store : Store, Present store → (store.content .database).length < 2147483648 →
    (store.content .wal).length < 2147483648 → recoveryResult (store.content .database) (store.content .wal) =
      (Host.call ⟨store, batchesInit⟩ (.openPair .openExisting batchScratch)).1.map fun _ => () := by
  intro foresees
  have same := foresees damagedStore ⟨rfl, rfl⟩ (by decide +kernel) (by decide +kernel)
  rw [damaged_unforeseen.1, damaged_unforeseen.2] at same
  cases same

end Timelite.Judging
