import Timelite.Touring

/-!
What open makes of any pair that it accepts. Where every body is tiled and every
wide header true, the bytes are those of a content, and the handle is the one
that this content calls for.
-/
namespace Timelite.Admitting
open ByteFile Program Codec CodecLaws Backend BackendLaws Layout FrameLaws Links SegmentLaws HeaderWalk SlotLaws WalLaws
  Contents Images Databases Calls Cursor Decoding Grammar Reader Retention BatchApi Opaque Relocation Walking Establishing Lifting
  Touring Opening Refinement

section Statements
variable {d : Bytes} {limit n offset root : Nat} {enabled : Bool} {walk last : Walk} {infos : List SegmentInfo}
  {done rest : List Segment}

/-- The times of the records in a body, in storage order. -/
def bodyTimes (d : Bytes) (offset : Nat) (info : SegmentInfo) : List Nat :=
  (bodyRun d offset info).1.flatMap fun frame => (frameRecords frame).map fun record => record.timestamp.toNat

/-- The body is tiled, and a wide header states the span and the order of its records. -/
structure Stated (d : Bytes) (offset : Nat) (info : SegmentInfo) : Prop where
  tiled : Tiled d offset info
  true_ : info.headerSize = 64 →
    info.minimum ∈ bodyTimes d offset info ∧ info.maximum ∈ bodyTimes d offset info ∧
    (∀ time ∈ bodyTimes d offset info, info.minimum ≤ time ∧ time ≤ info.maximum) ∧
    (info.ordered = true ↔ (bodyTimes d offset info).Pairwise (· ≤ ·))

instance (d : Bytes) (offset : Nat) (info : SegmentInfo) : Decidable (Stated d offset info) :=
  decidable_of_iff (Tiled d offset info ∧ (info.headerSize = 64 →
    info.minimum ∈ bodyTimes d offset info ∧ info.maximum ∈ bodyTimes d offset info ∧
    (∀ time ∈ bodyTimes d offset info, info.minimum ≤ time ∧ time ≤ info.maximum) ∧
    (info.ordered = true ↔ (bodyTimes d offset info).Pairwise (· ≤ ·))))
    ⟨fun ⟨tiled, rest⟩ => ⟨tiled, rest⟩, fun stated => ⟨stated.tiled, stated.true_⟩⟩

/-- Every segment states the truth about its frames, which tile its body. -/
def AllStated (d : Bytes) (m : Manifests) : Prop :=
  ∀ place ∈ segmentsFrom d m.dataEnd m.generation m.state.root, Stated d place.1 place.2

/-- The pair that open chooses states the truth, below 2^63. -/
structure Intact (d : Bytes) (m : Manifests) : Prop where
  small : m.last < 9223372036854775808
  stated : ∀ place ∈ segmentsFrom d m.dataEnd m.generation m.state.root, Stated d place.1 place.2

theorem tiling_of_tiled (passed : Passed d limit enabled walk n infos last)
    (tiled : ∀ place ∈ segmentsFrom d limit infos.length walk.offset, Tiled d place.1 place.2) :
    Tiling d walk.offset infos := by
  induction passed with
  | done walk n => trivial
  | @more walk last n info infos admits rest ih =>
      rw [List.length_cons, segments_cons admits.found] at tiled
      exact ⟨tiled _ List.mem_cons_self, ih fun place member => tiled place (List.mem_cons_of_mem _ member)⟩

-- The frames of a run are those that its batches make.
theorem frame_run_records {limit fuel position sequence : Nat} {batches : List Batch}
    (held : Holds d position (frames sequence batches)) (whole : limit = position + framesSize batches)
    (enough : framesSize batches ≤ fuel) (bounded : sequence + batches.length ≤ 18446744073709551616) :
    (frameRun d limit fuel position (sequence % 18446744073709551616)).1.map frameRecords = batches.map Batch.records := by
  induction batches generalizing fuel position sequence with
  | nil => rw [frame_run_end (by simp [whole])]; rfl
  | cons batch rest ih =>
      have least := batch.size_ge
      rw [frames_size_cons] at whole enough
      rw [List.length_cons] at bounded
      obtain ⟨fuel, rfl⟩ : ∃ k, fuel = k + 1 := ⟨fuel - 1, by omega⟩
      rw [frames_cons, holds_append, frame_length] at held
      have later : Holds d (position + batch.size) (frames (sequence + 1) rest) := held.2
      have small : sequence % 18446744073709551616 = sequence := Nat.mod_eq_of_lt (by omega)
      have read : on (readFrame .database position limit sequence) (image d) = (.ok (frameOf sequence batch), image d) :=
        read_frame held.1 (by omega) (by omega)
      have found : frameIn d position limit sequence = .ok (frameOf sequence batch) := congrArg Prod.fst read
      have step := ih later (by omega) (show framesSize rest ≤ fuel by omega) (by omega)
      rw [← next64_mod, small] at step
      rw [small, frame_run_ok (by omega) found, frame_of_length, List.map_cons, frame_records, step, List.map_cons]

theorem body_times {segment : Segment} (held : Holds d (offset + segment.headerSize) (frames segment.first segment.batches))
    (previous skip : Nat) : bodyTimes d offset (segment.info previous skip) = segment.times := by
  have small := segment.bounded
  have some := segment.length_pos
  have run := @frame_run_records d (offset + segment.headerSize + segment.body) segment.body (offset + segment.headerSize)
    segment.first segment.batches held rfl (Nat.le_refl _) small
  rw [Nat.mod_eq_of_lt (by omega)] at run
  have run' : (bodyRun d offset (segment.info previous skip)).1.map frameRecords = _ := run
  rw [bodyTimes, ← List.flatMap_map, run', List.flatMap_map]
  rfl

/-- True headers are those of truthful segments. -/
theorem truthful_of_stated (passed : Passed d limit enabled walk n infos last) (walked : Walked root done walk)
    (ordinal : n = done.length + 1) (count : infos.length = rest.length) (held : Holds d root (chain root [] (done ++ rest)))
    (above : 160 ≤ root) (inside : root + extent (done ++ rest) ≤ limit) (capacity : limit ≤ databaseCapacity)
    (stated : ∀ place ∈ segmentsFrom d limit infos.length walk.offset, Stated d place.1 place.2) :
    ∀ segment ∈ rest, segment.Truthful := by
  induction passed generalizing done rest with
  | done walk n =>
      have none := List.length_eq_zero_iff.mp count.symm
      rw [none]
      exact fun _ member => absurd member List.not_mem_nil
  | @more walk last n info infos admits later ih =>
      subst ordinal
      obtain ⟨segment, rest, rfl⟩ : ∃ segment rest', rest = segment :: rest' :=
        List.exists_cons_of_length_eq_add_one (count.symm.trans (List.length_cons (a := info)))
      have chained : Chained (image d) root limit (done ++ segment :: rest) := ⟨held, above, inside, capacity⟩
      have position := walked.offset
      have read := chained.read
      rw [info_at_done, ← info_at_done root done [] segment] at read
      have found : headerIn d walk.offset limit = .ok (infoAt root (done ++ [segment]) done.length segment) := by
        rw [position]
        exact congrArg Prod.fst read
      have same := Except.ok.inj (admits.found.symm.trans found)
      subst same
      rw [List.length_cons, segments_cons admits.found] at stated
      have few := chained.count_lt
      rw [List.length_append, List.length_cons] at few
      have walked' := walked_step walked segment (by omega)
      have joined : done ++ segment :: rest = (done ++ [segment]) ++ rest := by simp
      have others := ih walked' (by simp) (by simpa using count) (joined ▸ held) (joined ▸ inside)
        fun place member => stated place (List.mem_cons_of_mem _ member)
      have here := stated _ List.mem_cons_self
      have times := @body_times d walk.offset segment (by rw [position]; exact chained.frames_held)
        (linkTo root (done ++ [segment]) done.length)
        (linkTo root (done ++ [segment]) (done.length + 1 - lowBit (done.length + 1)))
      intro other member
      rcases List.mem_cons.mp member with rfl | member
      · intro wide
        have truth := here.true_ (other.header_size_wide.mpr wide)
        change other.minimum ∈ bodyTimes d walk.offset (other.info _ _) ∧ _ at truth
        rw [infoAt, times] at truth
        exact truth
      · exact others other member

end Statements

section Scanned
variable {store : Store} {v : Validated} {size fuel start : Nat} {stale : Bool} {scan last : WalScan}

theorem scan_grows (ran : (on (scanWal size stale fuel scan) store).1 = .ok last) : scan.offset ≤ last.offset := by
  induction fuel generalizing scan with
  | zero =>
      cases ran
      exact Nat.le_refl _
  | succ fuel ih =>
      rw [scanWal] at ran
      by_cases more : scan.offset < size
      · rw [if_pos more, on_examine, (reads_readFrame .wal scan.offset size (next64 scan.sequence)).on_state store] at ran
        cases read : (on (readFrame .wal scan.offset size (next64 scan.sequence)) store).1 with
        | error error =>
            rw [read] at ran
            rcases read_frame_error read with rfl | ⟨rfl, _⟩
            · cases ran
            · cases stale with
              | true => cases ran
              | false =>
                  cases ran
                  exact Nat.le_refl _
        | ok found =>
            rw [read] at ran
            exact Nat.le_trans (Nat.le_add_right _ _) (ih ran)
      · rw [if_neg more] at ran
        cases ran
        exact Nat.le_refl _

-- A scan that stays where it is has passed nothing.
theorem scan_still (ran : (on (scanWal size stale fuel scan) store).1 = .ok last) (still : last.offset = scan.offset) :
    last = scan := by
  cases fuel with
  | zero =>
      cases ran
      rfl
  | succ fuel =>
      rw [scanWal] at ran
      by_cases more : scan.offset < size
      · rw [if_pos more, on_examine, (reads_readFrame .wal scan.offset size (next64 scan.sequence)).on_state store] at ran
        cases read : (on (readFrame .wal scan.offset size (next64 scan.sequence)) store).1 with
        | error error =>
            rw [read] at ran
            rcases read_frame_error read with rfl | ⟨rfl, _⟩
            · cases ran
            · cases stale with
              | true => cases ran
              | false =>
                  cases ran
                  rfl
        | ok found =>
            obtain ⟨_, _, some, _, length, same⟩ := accepted_frame read
            rw [read] at ran
            have grows := scan_grows ran
            have place : (scan.frame found).offset = scan.offset + found.bytes.length := rfl
            have long : 0 < found.bytes.length := by
              rw [same, frame_length]
              omega
            omega
      · rw [if_neg more] at ran
        cases ran
        rfl

/-- No number behind the last installed one wraps. -/
def Unwrapped (wal : Bytes) (last : Nat) : Prop :=
  ∀ batches, Holds wal 32 (frames (last + 1) batches) → last + batches.length ≤ uint64Max

theorem unwrapped_small {wal : Bytes} {last : Nat} (small : last < 9223372036854775808) (most : wal.length ≤ walCapacity) :
    Unwrapped wal last := by
  intro batches held
  have few := frames_size_ge batches
  have size := congrArg List.length held
  simp only [read_length, frames_length] at size
  have cap : walCapacity = 67108864 := rfl
  have large : uint64Max = 18446744073709551615 := rfl
  omega

/-- A finished scan is the one of the frames that it has passed. -/
theorem scan_shape (ran : (on (scanWal size stale size (startScan start)) store).1 = .ok last) (least : 32 ≤ size)
    (small : start ≤ uint64Max) (unwrapped : Unwrapped (store.content .wal) start) :
    ∃ batches, Holds (store.content .wal) 32 (frames (start + 1) batches) ∧ 32 + framesSize batches ≤ size ∧
      start + batches.length ≤ uint64Max ∧ last = scanned start batches := by
  have large : uint64Max = 18446744073709551615 := rfl
  obtain ⟨batches, held, offset, _, inside, _⟩ := scan_passed ran (Nat.le_add_left _ _) least
    (show start < 18446744073709551616 by omega)
  have few := frames_size_ge batches
  have fits : 32 + framesSize batches ≤ size := offset ▸ inside
  have numbered := unwrapped batches held
  have passes := @scan_all store start size stale batches size held fits (by omega) (by omega)
  rw [passes] at ran
  exact ⟨batches, held, fits, numbered, scan_still ran offset⟩

/-- What the scan of an accepted WAL has found: the pending batches, or leftover ones. -/
inductive Found (store : Store) (v : Validated) : Prop where
  | pending (batches : List Batch) (fresh : v.stale = false)
      (numbered : v.manifests.last + batches.length ≤ uint64Max) (fits : 32 + framesSize batches ≤ v.walSize)
      (held : Holds (store.content .wal) 32 (frames (v.manifests.last + 1) batches))
      (scan : v.scan = scanned v.manifests.last batches) : Found store v
  | leftover (first : Nat) (batches : List Batch) (stale : v.stale = true) (counted : 0 < first)
      (ends : first + batches.length = v.manifests.last + 1) (scan : v.scan = scanned (first - 1) batches) : Found store v

theorem accepted_found (accepted : Accepted store v) (small : v.manifests.last ≤ uint64Max)
    (unwrapped : Unwrapped (store.content .wal) v.manifests.last) : Found store v := by
  obtain ⟨stale, first, same, ran⟩ := accepted.scanned
  cases stale with
  | none =>
      obtain ⟨batches, held, fits, numbered, scan⟩ := scan_shape (congrArg Prod.fst ran) accepted.least small unwrapped
      exact .pending batches same numbered fits held scan
  | some before =>
      have low := stale_some (congrArg Prod.fst first)
      have ends : v.scan.sequence = v.manifests.last := accepted.ends same
      have size := accepted.size
      have most := accepted.most
      have cap : walCapacity = 67108864 := rfl
      have large : uint64Max = 18446744073709551615 := rfl
      -- The scan ends at the last number, too few frames behind the first one to wrap.
      obtain ⟨batches, held, offset, passed, inside, _⟩ := scan_passed (congrArg Prod.fst ran) (Nat.le_add_left _ _)
        accepted.least (show before < 18446744073709551616 by omega)
      have few := frames_size_ge batches
      have fits : 32 + framesSize batches ≤ v.walSize := offset ▸ inside
      have count : before + batches.length = v.manifests.last := by
        rw [ends] at passed
        change _ = (before + batches.length) % 18446744073709551616 at passed
        omega
      have passes := @scan_all store before v.walSize true batches v.walSize held fits (by omega) (by omega)
      have whole : (on (scanWal v.walSize true v.walSize (startScan before)) store).1 = .ok v.scan := by
        rw [same] at ran
        exact congrArg Prod.fst ran
      rw [passes] at whole
      exact .leftover (before + 1) batches same (Nat.succ_pos _) (by omega) (scan_still whole offset)

end Scanned

section Admitted
variable {store : Store} {v : Validated} {m : Manifests} {enabled hasTime : Bool} {time : Nat} {segments : List Segment}

theorem slot_time {index size : Nat} {slot : Bytes} (accepted : slotManifest index slot size = some m) :
    m.lastTime ≤ uint64Max := by
  have wide := decode64_lt (slot.drop 32)
  have large : uint64Max = 18446744073709551615 := rfl
  obtain ⟨_, ⟨_, rfl⟩ | ⟨g, d, l, _, rfl⟩⟩ := slot_cases accepted
  · exact Nat.le_of_lt_succ wide
  · exact Nat.le_of_lt_succ wide

theorem chosen_time {d : Bytes} (found : chosen d = some m) : m.lastTime ≤ uint64Max := by
  rcases chosen_cases found with current | ⟨rfl, _⟩ | ⟨rfl, _⟩
  · exact slot_time (selected_some current).1.2
  · exact Nat.zero_le _
  · exact Nat.zero_le _

theorem stated_time_le (small : time ≤ uint64Max) : statedTime hasTime enabled time segments ≤ uint64Max := by
  unfold statedTime
  cases segments.getLast? with
  | none => exact small
  | some segment =>
      simp only
      split
      · exact segment.small
      split
      · exact last_time_le small
      · exact small

/-- The walk behind a passed check, and what the check demands of it. -/
theorem checked_walk {generation dataEnd last tail lastTime : Nat} {state : RetentionState} {checked : Checked}
    (ran : (on (checkSegments generation dataEnd last tail lastTime hasTime state) store).1 = .ok checked) :
    ∃ walk, (on (walkSegments dataEnd state.enabled generation 1 (startWalk state.root)) store).1 = .ok walk ∧
      walk.offset = dataEnd ∧ walk.sequence ≤ last ∧ (state.enabled = true ∨ walk.sequence = last) ∧
      (hasTime = true → tail = walk.previous) ∧
      ∀ segment, walk.segment = some segment → segment.ordered = true → state.enabled = false → hasTime = true →
        lastTime = segment.maximum := by
  unfold checkSegments at ran
  obtain ⟨walk, walked, ran⟩ := bind_ok (reads_walkSegments _ _ _ _ _) ran
  obtain ⟨ends, ran⟩ := require_ok ran
  refine ⟨walk, congrArg Prod.fst walked, ends.1, ends.2.1, ends.2.2.1, ends.2.2.2, fun segment final sorted plain timed => ?_⟩
  rw [final] at ran
  simp only at ran
  rw [if_pos ⟨sorted, plain⟩] at ran
  obtain ⟨agrees, _⟩ := require_ok ran
  exact agrees timed

/-- The chain that an accepted database stores. -/
structure Chain (store : Store) (m : Manifests) (segments : List Segment) : Prop where
  chained : Chained store m.state.root m.dataEnd segments
  whole : m.dataEnd = m.state.root + extent segments
  generation : m.generation = segments.length
  sequenced : Sequenced m.state.enabled 0 segments
  covered : lastSequence segments ≤ m.last
  full : m.state.enabled = true ∨ lastSequence segments = m.last
  tail : m.hasTime = true → m.tail = linkTo m.state.root segments segments.length
  agrees : TimeAgrees m.hasTime m.state.enabled m.lastTime segments
  truthful : ∀ segment ∈ segments, segment.Truthful

theorem accepted_chain (accepted : Accepted store v) (stated : AllStated (store.content .database) v.manifests) :
    ∃ segments, Chain store v.manifests segments := by
  obtain ⟨walk, ran, ends, covered, full, tailed, agrees⟩ := checked_walk (congrArg Prod.fst accepted.checked)
  obtain ⟨infos, count, passed⟩ := passed_of_walk ran
  obtain ⟨low, root, capacity⟩ := Asserting.chosen_bounds accepted.found
  rw [AllStated, ← count] at stated
  have tiling := tiling_of_tiled passed fun place member => (stated place member).tiled
  obtain ⟨segments, length, held, walked, sequenced⟩ :=
    lift_chain passed (walked_start v.manifests.state.root) rfl low root capacity tiling
  rw [extent_nil, Nat.add_zero] at held
  rw [List.nil_append] at walked
  rw [walked.sequence] at covered full
  rw [walked.previous] at tailed
  rw [walked.offset] at ends
  rw [walked.segment] at agrees
  have truthful := truthful_of_stated passed (walked_start v.manifests.state.root) rfl length.symm
    (by rw [List.nil_append]; exact held) low (by rw [List.nil_append, ends]) capacity stated
  refine ⟨segments, ⟨held, low, Nat.le_of_eq ends, capacity⟩, ends.symm, by rw [length, count], sequenced, covered, full,
    tailed, fun segment final sorted plain timed => ?_, truthful⟩
  refine agrees _ (by rw [lastInfo, final]; rfl) ?_ plain timed
  exact sorted

/-- The content of an accepted pair. -/
theorem accepted_content (accepted : Accepted store v)
    (stated : AllStated (store.content .database) v.manifests)
    (unwrapped : Unwrapped (store.content .wal) v.manifests.last) :
    ∃ identity content, identity.length = 16 ∧ Installed (store.content .database) identity content v.manifests ∧
      Honest content ∧ Read content v.manifests (store.content .wal).length v ∧
      content.walEnd ≤ (store.content .wal).length ∧
      Logged (resize (store.content .wal) content.walEnd) identity content [] := by
  obtain ⟨segments, chain⟩ := accepted_chain accepted stated
  obtain ⟨identity, wide, pair, walPair⟩ := accepted.pair
  have size := accepted.size
  have least := accepted.least
  have most := accepted.most
  have cap : walCapacity = 67108864 := rfl
  have large : uint64Max = 18446744073709551615 := rfl
  have small := chosen_last accepted.found
  have low := chain.chained.above
  have whole := chain.whole
  have capacity := chain.chained.capacity
  have checks := check_segments chain.chained chain.whole chain.sequenced chain.covered chain.full chain.tail chain.agrees
  rw [← chain.generation, accepted.checked, chain.generation] at checks
  have checked : v.checked = _ := Except.ok.inj (congrArg Prod.fst checks)
  have timed := @stated_time_le v.manifests.state.enabled v.manifests.hasTime v.manifests.lastTime segments
    (chosen_time accepted.found)
  have content : ∀ batches : List Batch, v.manifests.last + batches.length ≤ uint64Max →
      32 + framesSize batches ≤ walCapacity → ∃ content : Content, content.segments = segments ∧
        content.pending = batches ∧ content.installed = v.manifests.last ∧ content.installedTime =
          statedTime v.manifests.hasTime v.manifests.state.enabled v.manifests.lastTime segments :=
    fun batches numbered fits => ⟨⟨segments, batches, v.manifests.last, _, chain.sequenced.1, chain.covered, numbered,
      timed, by omega, fits⟩, rfl, rfl, rfl, rfl⟩
  have installed : ∀ content : Content, content.segments = segments → content.installed = v.manifests.last →
      content.installedTime = statedTime v.manifests.hasTime v.manifests.state.enabled v.manifests.lastTime segments →
      Installed (store.content .database) identity content v.manifests := by
    rintro content rfl last time
    exact ⟨pair, chain.chained.held, low, whole, capacity, chain.generation, last.symm, chain.tail, chain.agrees, time.symm,
      fun off => ⟨chain.sequenced.2 off, by
        rw [last]
        exact chain.full.resolve_left (by rw [off]; exact Bool.false_ne_true)⟩⟩
  have header : (encodePair walMagic identity).length = 32 := wal_length wide
  cases accepted_found accepted small unwrapped with
  | pending batches fresh numbered fits held scan =>
      obtain ⟨content, same, pending, last, time⟩ := content batches (by omega) (by omega)
      have place : content.walEnd = 32 + framesSize batches := by rw [Content.walEnd, pending]
      have inside : content.walEnd ≤ (store.content .wal).length := by omega
      refine ⟨identity, content, wide, installed content same last time, ?_, ?_, inside, ?_⟩
      · rw [Honest, same]
        exact chain.truthful
      · have shape : v = ⟨v.manifests, checkedOf v.manifests.state.root content, false,
            scanned content.installed content.pending, (store.content .wal).length⟩ := by
          rw [checkedOf, same, time, last, pending, ← checked, ← scan, ← fresh, ← size]
        rw [shape]
        exact .logged
      · have bytes : resize (store.content .wal) content.walEnd =
            encodePair walMagic identity ++ frames (content.installed + 1) content.pending := by
          rw [place, last, pending]
          have whole : Holds (store.content .wal) 0
              (encodePair walMagic identity ++ frames (v.manifests.last + 1) batches) := by
            rw [holds_append, Nat.zero_add, header]
            exact ⟨walPair, held⟩
          refine whole_holds (whole.resize _ ?_) ?_
          · rw [List.length_append, header, frames_length, Nat.zero_add]
          · rw [resize_length, List.length_append, header, frames_length]
        refine ⟨by rw [bytes, List.append_nil], .none, fun none => absurd rfl none, ?_⟩
        rw [resize_length]
        omega
  | leftover first batches stale counted ends scan =>
      obtain ⟨content, same, pending, last, time⟩ := content [] (by rw [List.length_nil]; omega) (by rw [frames_size_nil]; omega)
      have place : content.walEnd = 32 := by
        rw [Content.walEnd, pending]
        rfl
      have inside : content.walEnd ≤ (store.content .wal).length := by omega
      refine ⟨identity, content, wide, installed content same last time, ?_, ?_, inside, ?_⟩
      · rw [Honest, same]
        exact chain.truthful
      · have shape : v = ⟨v.manifests, checkedOf v.manifests.state.root content, true,
            scanned (first - 1) batches, (store.content .wal).length⟩ := by
          rw [checkedOf, same, time, ← checked, ← scan, ← stale, ← size]
        rw [shape]
        exact .leftover first batches (by rw [last]; exact ends) counted pending
      · have bytes : resize (store.content .wal) content.walEnd = encodePair walMagic identity := by
          rw [place]
          exact whole_holds (walPair.resize _ (by rw [header])) (by rw [resize_length, header])
        refine ⟨by rw [bytes, pending]; simp, .none, fun none => absurd rfl none, ?_⟩
        rw [resize_length]
        omega

end Admitted

end Timelite.Admitting
