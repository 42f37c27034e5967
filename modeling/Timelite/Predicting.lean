import Timelite.Foreseeing

/-!
The stages of the inspector against those of open: the walk over the segments,
the scan of the WAL, and what both make of the pair.
-/
namespace Timelite.Predicting
open ByteFile Program Codec CodecLaws Backend BackendLaws Links FrameLaws HeaderWalk SlotLaws WalLaws Images Databases Grammar Reader Retention BatchApi Opaque
  Walking Inspector Foreseeing

section Frames

theorem seen_fold (bytes : Bytes) (seen : InspectFrame) (count : Nat) :
    let last := (List.range count).foldl (fun seen i => seen.note (decide (i = 0)) (frameTime bytes i)) seen
    last.length = seen.length ∧ last.records = seen.records ∧
      last.lastTime = if count = 0 then seen.lastTime else frameTime bytes (count - 1) := by
  induction count with
  | zero => exact ⟨rfl, rfl, rfl⟩
  | succ count ih =>
      rw [List.range_succ, List.foldl_append]
      exact ⟨ih.1, ih.2.1, rfl⟩

@[simp] theorem inspected_length (frame : Frame) : (inspected frame).length = frame.bytes.length := (seen_fold _ _ _).1

theorem inspected_last {frame : Frame} (some : frame.records ≠ 0) :
    (inspected frame).lastTime = frameTime frame.bytes (frame.records - 1) := by
  rw [inspected, (seen_fold _ _ _).2.2, if_neg some]

theorem scan_fold (bytes : Bytes) (start : Nat → Bool) (scan : WalScan) (count : Nat) :
    let last := (List.range count).foldl (fun scan i => scan.note (start i) (frameTime bytes i)) scan
    last.last = if count = 0 then scan.last else frameTime bytes (count - 1) := by
  induction count with
  | zero => rfl
  | succ count ih =>
      rw [List.range_succ, List.foldl_append]
      rfl

theorem scan_frame_last {scan : WalScan} {frame : Frame} (some : frame.records ≠ 0) :
    (scan.frame frame).last = frameTime frame.bytes (frame.records - 1) := by
  have folded := scan_fold frame.bytes (fun i => decide (scan.offset = 32 ∧ i = 0)) scan frame.records
  rw [if_neg some] at folded
  exact folded

end Frames

section Levels

theorem level_agrees {n : Nat} (positive : n ≠ 0) (small : n < 16777216) : inspectLevel n = linkLevel n := by
  have bound := level_lt positive small
  unfold inspectLevel linkLevel at *
  cases found : (List.range 64).find? fun bit => 1 <<< bit == lowBit n with
  | none => rw [found] at bound; simp at bound
  | some bit =>
      rw [found] at bound
      simp only [Option.getD_some] at bound ⊢
      obtain ⟨here, _, earlier⟩ := List.find?_range_eq_some.mp found
      by_cases below : bit < 23
      · have again : ((List.range 23).find? fun bit => 1 <<< bit == lowBit n) = some bit :=
          List.find?_range_eq_some.mpr ⟨here, List.mem_range.mpr below, earlier⟩
        rw [again]
        rfl
      · have none' : ((List.range 23).find? fun bit => 1 <<< bit == lowBit n) = none :=
          List.find?_range_eq_none.mpr fun j less => earlier j (by omega)
        rw [none']
        simp only [Option.getD_none]
        omega

end Levels

section Core

/-- The state without what it counts on the way. -/
def core (state : InspectState) : InspectState :=
  { state with
    records := 0
    firstLive := 0
    unreadable := 0
    timeMin := 0
    timeMax := 0
    haveTimes := false
    walOrdered := false
    walFrames := 0
    walFirstSequence := 0
    walFirstTime := 0 }

theorem predict_first {state : InspectState} (fresh : state.predicted = none) (error : Error) (stage : String) :
    (inspectPredict state error stage).predicted = some (error, stage) := by
  simp [inspectPredict, fresh]

theorem predict_keeps {state : InspectState} {prediction : Error × String} (told : state.predicted = some prediction)
    (error : Error) (stage : String) : (inspectPredict state error stage).predicted = some prediction := by
  simp [inspectPredict, told]

theorem guard_keeps {state : InspectState} {prediction : Error × String} {condition : Prop} [Decidable condition]
    (told : state.predicted = some prediction) (error : Error) (stage : String) :
    (if condition then inspectPredict state error stage else state).predicted = some prediction := by
  split
  · exact predict_keeps told error stage
  · exact told

theorem guard_first {state : InspectState} {condition : Prop} [Decidable condition] (fresh : state.predicted = none)
    (holds : condition) (error : Error) (stage : String) :
    (if condition then inspectPredict state error stage else state).predicted = some (error, stage) := by
  rw [if_pos holds]
  exact predict_first fresh error stage

end Core

section Bodies
variable {d : Bytes} {limit fuel position sequence : Nat} {state : InspectState}

/-- The core without the floor, which the bodies decide. -/
def spine (state : InspectState) : InspectState :=
  { core state with
    floorTime := 0
    floorKnown := false
    floorSource := "" }

/-- The time of the last record of the frames. -/
def lastOf (frames : List Frame) (time : Nat) : Nat :=
  match frames.getLast? with
  | none => time
  | some frame => frameTime frame.bytes (frame.records - 1)

theorem last_of_cons (frame : Frame) (frames : List Frame) (time : Nat) :
    lastOf (frame :: frames) time = lastOf frames (frameTime frame.bytes (frame.records - 1)) := by
  cases frames with
  | nil => rfl
  | cons next rest => rw [lastOf, lastOf, List.getLast?_cons_cons]; cases found : (next :: rest).getLast? <;> simp_all

theorem last_of_some {frames : List Frame} (some : frames ≠ []) (time time' : Nat) : lastOf frames time = lastOf frames time' := by
  cases frames with
  | nil => exact absurd rfl some
  | cons frame rest => rw [last_of_cons, last_of_cons]

theorem frame_loop_spine : spine (inspectFrameLoop d limit fuel position sequence state).2 = spine state := by
  induction fuel generalizing position sequence state with
  | zero => rfl
  | succ fuel ih =>
      rw [inspectFrameLoop]
      by_cases more : position < limit
      · rw [if_pos more]
        cases inspectFrameParse d position limit sequence with
        | error error => rfl
        | ok frame => exact ih
      · rw [if_neg more]

/-- The inspector passes the frames that the library reads, and counts them. -/
theorem frame_loop_agrees (small : sequence < 18446744073709551616) :
    (inspectFrameLoop d limit fuel position sequence state).1 =
        (sequence + (frameRun d limit fuel position sequence).1.length) % 18446744073709551616 ∧
      (inspectFrameLoop d limit fuel position sequence state).2.floorKnown =
        (state.floorKnown || !(frameRun d limit fuel position sequence).1.isEmpty) ∧
      (inspectFrameLoop d limit fuel position sequence state).2.floorTime =
        lastOf (frameRun d limit fuel position sequence).1 state.floorTime := by
  have whole : sequence % 18446744073709551616 = sequence := Nat.mod_eq_of_lt small
  induction fuel generalizing position sequence state with
  | zero => exact ⟨whole.symm, (Bool.or_false _).symm, rfl⟩
  | succ fuel ih =>
      by_cases more : position < limit
      · have agrees := frame_agrees .database position limit sequence (image d)
        rw [inspectFrameLoop, if_pos more]
        change inspectFrameParse d position limit sequence = (frameIn d position limit sequence).map inspected at agrees
        rw [agrees]
        cases found : frameIn d position limit sequence with
        | error error =>
            rw [frame_run_error more found]
            exact ⟨whole.symm, (Bool.or_false _).symm, rfl⟩
        | ok frame =>
            have some : frame.records ≠ 0 := (Decoding.accepted_frame found).2.2.1.ne'
            obtain ⟨count, known, time⟩ := @ih (position + frame.bytes.length) (next64 sequence)
              { inspectCountFrame state (inspected frame) with
                floorTime := (inspected frame).lastTime
                floorKnown := true
                floorSource := "segment_scan" } (next64_lt _) (Nat.mod_eq_of_lt (next64_lt _))
            rw [frame_run_ok more found]
            simp only [Except.map, inspected_length, List.length_cons, last_of_cons]
            refine ⟨?_, ?_, ?_⟩
            · rw [count, next64]
              omega
            · rw [known, Bool.true_or, List.isEmpty_cons, Bool.not_false, Bool.or_true]
            · rw [time]
              simp only [inspected_last some]
      · rw [frame_run_end more, inspectFrameLoop, if_neg more]
        exact ⟨whole.symm, (Bool.or_false _).symm, rfl⟩

/-- The scan of a final segment, as the run over its frames. -/
theorem last_frame_agrees {store : Store} {time : Nat} :
    (on (lastFrameTime limit fuel position sequence time) store).1 =
      if (frameRun (store.content .database) limit fuel position sequence).2.isSome = true then
        .ok (lastOf (frameRun (store.content .database) limit fuel position sequence).1 time)
      else .error .invalidDatabase := by
  induction fuel generalizing position sequence time with
  | zero => rfl
  | succ fuel ih =>
      rw [lastFrameTime]
      by_cases more : position < limit
      · have read := @read_frame_in (store.content .database) position limit sequence store (agree_refl _ _ _)
        rw [if_pos more, on_bind]
        cases found : frameIn (store.content .database) position limit sequence with
        | error error =>
            have failed : on (complete (readFrame .database position limit sequence)) store = (.error .invalidDatabase, store) := by
              rw [complete, on_examine, read, found]
              rcases read_frame_error found with rfl | ⟨rfl, _⟩ <;> rfl
            rw [failed, frame_run_error more found]
            rfl
        | ok frame =>
            have passed : on (complete (readFrame .database position limit sequence)) store = (.ok frame, store) := by
              rw [complete, on_examine, read, found]
              rfl
            rw [passed, frame_run_ok more found, last_of_cons]
            exact ih
      · rw [if_neg more, frame_run_end more]
        rfl

end Bodies

section Segments
variable {d : Bytes} {remaining n : Nat} {state : InspectState} {walk : InspectWalk} {shadowed : Walk} {segment : SegmentInfo}

/-- The frames that a segment's header numbers are read. -/
def Counted (d : Bytes) (offset : Nat) (segment : SegmentInfo) : Prop :=
  (bodyRun d offset segment).1.length = segment.last - segment.first + 1

instance (d : Bytes) (offset : Nat) (segment : SegmentInfo) : Decidable (Counted d offset segment) :=
  inferInstanceAs (Decidable (_ = _))

theorem run_few {limit fuel position sequence : Nat} : (frameRun d limit fuel position sequence).1.length ≤ fuel := by
  induction fuel generalizing position sequence with
  | zero => exact Nat.le_refl _
  | succ fuel ih =>
      by_cases more : position < limit
      · cases found : frameIn d position limit sequence with
        | error error =>
            rw [frame_run_error more found]
            exact Nat.zero_le _
        | ok frame =>
            rw [frame_run_ok more found]
            exact Nat.succ_le_succ ih
      · rw [frame_run_end more]
        exact Nat.zero_le _

theorem segment_frames_run (offset : Nat) : inspectSegmentFrames d offset segment state =
    (sub64 (inspectFrameLoop d (offset + segment.headerSize + segment.body) segment.body (offset + segment.headerSize)
      segment.first state).1 segment.first,
      (inspectFrameLoop d (offset + segment.headerSize + segment.body) segment.body (offset + segment.headerSize)
        segment.first state).2) := by
  rw [inspectSegmentFrames]

theorem body_run (offset : Nat) : frameRun d (offset + segment.headerSize + segment.body) segment.body
    (offset + segment.headerSize) segment.first = bodyRun d offset segment := by
  rw [bodyRun]

theorem segment_frames_spine (offset : Nat) : spine (inspectSegmentFrames d offset segment state).2 = spine state := by
  rw [segment_frames_run]
  exact frame_loop_spine

/-- What the inspector finds in a body. -/
theorem segment_frames_agrees {offset limit : Nat} (header : Header d offset limit segment) :
    (inspectSegmentFrames d offset segment state).1 = (bodyRun d offset segment).1.length ∧
      (inspectSegmentFrames d offset segment state).2.floorKnown =
        (state.floorKnown || !(bodyRun d offset segment).1.isEmpty) ∧
      (inspectSegmentFrames d offset segment state).2.floorTime = lastOf (bodyRun d offset segment).1 state.floorTime := by
  have top := header.top
  have order := header.order
  have body := header.body
  have cap : walCapacity = 67108864 := rfl
  have few : (bodyRun d offset segment).1.length ≤ segment.body := run_few
  obtain ⟨count, known, time⟩ := @frame_loop_agrees d (offset + segment.headerSize + segment.body) segment.body
    (offset + segment.headerSize) segment.first state (by omega)
  rw [body_run] at count known time
  rw [segment_frames_run]
  refine ⟨?_, known, time⟩
  simp only
  rw [count, sub64]
  omega

/-- The walks of both programs, after the same segments. -/
structure Shadows (d : Bytes) (walk : InspectWalk) (state : InspectState) (shadowed : Walk) : Prop where
  fresh : state.predicted = none
  offset : walk.offset = shadowed.offset
  previous : walk.previous = shadowed.previous
  sequence : walk.sequence = shadowed.sequence
  offsets : walk.offsets = shadowed.offsets
  segment : walk.segment = shadowed.segment
  live : state.live = shadowed.live
  damaged : ∀ segment, shadowed.segment = some segment → (walk.damagedFinal = false ↔ Counted d shadowed.previous segment)
  floor : ∀ segment, shadowed.segment = some segment → Counted d shadowed.previous segment →
    state.floorKnown = true ∧ ∀ time, state.floorTime = lastOf (bodyRun d shadowed.previous segment).1 time

theorem segment_loop_some (parsed : inspectSegmentParse d walk.offset state.dataEnd = some segment) :
    inspectSegmentLoop d (remaining + 1) n walk state = inspectSegmentLoop d remaining (n + 1)
      { offset := walk.offset + segment.headerSize + segment.body
        previous := walk.offset
        sequence := segment.last
        offsets := markLevels walk.offsets (inspectLevel n) walk.offset
        damagedFinal := decide ((inspectSegmentCounts d walk.offset segment (inspectSegmentChecks walk n segment state)).1 ≠
          segment.last - segment.first + 1)
        segment := some segment } (inspectSegmentCounts d walk.offset segment (inspectSegmentChecks walk n segment state)).2 := by
  rw [inspectSegmentLoop, parsed]

theorem checks_keep {prediction : Error × String} (told : state.predicted = some prediction) :
    (inspectSegmentChecks walk n segment state).predicted = some prediction := by
  unfold inspectSegmentChecks
  exact guard_keeps (guard_keeps told _ _) _ _

theorem counts_spine (offset : Nat) :
    spine (inspectSegmentCounts d offset segment state).2 =
      { spine state with
        live := state.live + (segment.last - segment.first + 1) } :=
  segment_frames_spine offset

theorem counts_predicted (offset : Nat) : (inspectSegmentCounts d offset segment state).2.predicted = state.predicted := by
  have kept := congrArg InspectState.predicted (@counts_spine d state segment offset)
  exact kept

theorem segment_loop_keeps {prediction : Error × String} (told : state.predicted = some prediction) :
    (inspectSegmentLoop d remaining n walk state).2.predicted = some prediction := by
  induction remaining generalizing n walk state with
  | zero => exact told
  | succ remaining ih =>
      cases parsed : inspectSegmentParse d walk.offset state.dataEnd with
      | none =>
          rw [inspectSegmentLoop, parsed]
          exact predict_keeps told _ _
      | some segment =>
          rw [segment_loop_some parsed]
          exact ih ((counts_predicted _).trans (checks_keep told))

/-- The checks agree. -/
theorem checks_agree (shadows : Shadows d walk state shadowed) (positive : n ≠ 0) (few : n < 16777216) :
    ((shadowed.sequence ≠ uint64Max ∧ shadowed.sequence < segment.first ∧
        (state.retention = true ∨ segment.first = shadowed.sequence + 1)) ∧
      (segment.headerSize = 64 → segment.previous = shadowed.previous ∧
        segment.skip = shadowed.offsets.getD (linkLevel n) 0) ∧
      inspectSegmentChecks walk n segment state = state) ∨
    (¬ ((shadowed.sequence ≠ uint64Max ∧ shadowed.sequence < segment.first ∧
        (state.retention = true ∨ segment.first = shadowed.sequence + 1)) ∧
      (segment.headerSize = 64 → segment.previous = shadowed.previous ∧
        segment.skip = shadowed.offsets.getD (linkLevel n) 0)) ∧
      ∃ stage, (inspectSegmentChecks walk n segment state).predicted = some (.invalidDatabase, stage)) := by
  have level := level_agrees positive few
  unfold inspectSegmentChecks
  rw [shadows.sequence, shadows.previous, shadows.offsets, level]
  by_cases order : shadowed.sequence = uint64Max ∨ segment.first ≤ shadowed.sequence ∨
      (state.retention = false ∧ segment.first ≠ shadowed.sequence + 1)
  · right
    refine ⟨?_, "segment sequence", guard_keeps (guard_first shadows.fresh order _ _) _ _⟩
    rintro ⟨⟨most, above, next⟩, -⟩
    rcases order with same | below | ⟨plain, other⟩
    · exact most same
    · omega
    · exact other (next.resolve_left (by rw [plain]; exact Bool.false_ne_true))
  · rw [if_neg order]
    obtain ⟨most, above, next⟩ : shadowed.sequence ≠ uint64Max ∧ ¬ segment.first ≤ shadowed.sequence ∧
        ¬ (state.retention = false ∧ segment.first ≠ shadowed.sequence + 1) := by simpa only [not_or] using order
    have next' : state.retention = true ∨ segment.first = shadowed.sequence + 1 := by
      cases kind : state.retention with
      | true => exact .inl rfl
      | false => exact .inr (not_not.mp fun other => next ⟨kind, other⟩)
    by_cases links : segment.headerSize = 64 ∧ (segment.previous ≠ shadowed.previous ∨
        segment.skip ≠ shadowed.offsets.getD (linkLevel n) 0)
    · right
      refine ⟨?_, "segment links", guard_first shadows.fresh links _ _⟩
      rintro ⟨-, linked⟩
      obtain ⟨back, skip⟩ := linked links.1
      exact links.2.elim (fun other => other back) fun other => other skip
    · left
      refine ⟨⟨most, by omega, next'⟩, fun wide => ?_, if_neg links⟩
      by_contra other
      exact links ⟨wide, by rwa [not_and_or] at other⟩

/-- One segment further. -/
theorem Shadows.step (shadows : Shadows d walk state shadowed) (positive : n ≠ 0) (few : n < 16777216) {limit : Nat}
    (header : Header d shadowed.offset limit segment) :
    Shadows d
      { offset := walk.offset + segment.headerSize + segment.body
        previous := walk.offset
        sequence := segment.last
        offsets := markLevels walk.offsets (inspectLevel n) walk.offset
        damagedFinal := decide ((inspectSegmentCounts d walk.offset segment state).1 ≠ segment.last - segment.first + 1)
        segment := some segment } (inspectSegmentCounts d walk.offset segment state).2 (shadowed.step n segment) := by
  have place := shadows.offset
  obtain ⟨count, known, time⟩ : (inspectSegmentCounts d walk.offset segment state).1 = (bodyRun d walk.offset segment).1.length ∧
      (inspectSegmentCounts d walk.offset segment state).2.floorKnown =
        (state.floorKnown || !(bodyRun d walk.offset segment).1.isEmpty) ∧
      (inspectSegmentCounts d walk.offset segment state).2.floorTime = lastOf (bodyRun d walk.offset segment).1 state.floorTime := by
    rw [place]
    rw [inspectSegmentCounts]
    exact segment_frames_agrees header
  have live := congrArg InspectState.live (@counts_spine d state segment walk.offset)
  refine ⟨(counts_predicted _).trans shadows.fresh, ?_, place, rfl, ?_, rfl, ?_, ?_, ?_⟩
  · rw [place]
    rfl
  · rw [place, shadows.offsets, level_agrees positive few]
    rfl
  · refine live.trans ?_
    rw [shadows.live]
    rfl
  · rintro _ ⟨⟩
    change decide _ = false ↔ Counted d shadowed.offset segment
    rw [decide_eq_false_iff_not, not_not, count, place, Counted]
  · rintro _ ⟨⟩ counted
    change Counted d shadowed.offset segment at counted
    rw [← place] at counted
    have some : (bodyRun d walk.offset segment).1 ≠ [] := by
      intro none
      rw [Counted, none] at counted
      exact absurd counted (by simp)
    refine ⟨?_, fun other => ?_⟩
    · rw [known, List.isEmpty_eq_false_iff.mpr some, Bool.not_false, Bool.or_true]
    · change _ = lastOf (bodyRun d shadowed.offset segment).1 other
      rw [time, ← place]
      exact last_of_some some _ _

/-- The two walks over the segments. -/
theorem segment_loop_agrees {store : Store} (same : store.content .database = d) (shadows : Shadows d walk state shadowed)
    (positive : n ≠ 0) (few : n + remaining ≤ 16777216) :
    match (on (walkSegments state.dataEnd state.retention remaining n shadowed) store).1 with
    | .ok last => ∃ walk', (inspectSegmentLoop d remaining n walk state).1 = some walk' ∧
        Shadows d walk' (inspectSegmentLoop d remaining n walk state).2 last ∧
        spine (inspectSegmentLoop d remaining n walk state).2 = { spine state with live := last.live }
    | .error error => error = .invalidDatabase ∧
        ∃ stage, (inspectSegmentLoop d remaining n walk state).2.predicted = some (.invalidDatabase, stage) := by
  induction remaining generalizing n walk state shadowed with
  | zero =>
      refine ⟨walk, rfl, shadows, ?_⟩
      rw [← shadows.live]
      rfl
  | succ remaining ih =>
      have agrees := segment_agrees d shadowed.offset state.dataEnd
      have read := @read_header d shadowed.offset state.dataEnd store (by rw [same]; exact agree_refl _ _ _)
      rw [walkSegments, on_bind, read, agrees, ← shadows.offset]
      cases parsed : inspectSegmentParse d walk.offset state.dataEnd with
      | none =>
          rw [inspectSegmentLoop, parsed]
          exact ⟨rfl, _, predict_first shadows.fresh _ _⟩
      | some segment =>
          have found : headerIn d shadowed.offset state.dataEnd = .ok segment := by
            rw [agrees, ← shadows.offset, parsed]
            rfl
          rw [segment_loop_some parsed]
          simp only [orInvalid, on_require_bind]
          rcases @checks_agree d n state walk shadowed segment shadows positive (by omega) with
            ⟨order, links, kept⟩ | ⟨wrong, stage, told⟩
          · rw [if_pos order, if_pos links, kept]
            have shape := @counts_spine d state segment walk.offset
            have limit := congrArg InspectState.dataEnd shape
            have retention := congrArg InspectState.retention shape
            have step := @ih (n + 1) (inspectSegmentCounts d walk.offset segment state).2 _ _
              (shadows.step positive (by omega) (header_in found)) (Nat.succ_ne_zero n) (by omega)
            change (inspectSegmentCounts d walk.offset segment state).2.dataEnd = state.dataEnd at limit
            change (inspectSegmentCounts d walk.offset segment state).2.retention = state.retention at retention
            rw [limit, retention, shape] at step
            exact step
          · have counted := (@counts_predicted d (inspectSegmentChecks walk n segment state) segment walk.offset).trans told
            have bad := fun walk' => @segment_loop_keeps d remaining (n + 1) _ walk' _ counted
            by_cases order : shadowed.sequence ≠ uint64Max ∧ shadowed.sequence < segment.first ∧
                (state.retention = true ∨ segment.first = shadowed.sequence + 1)
            · rw [if_pos order, if_neg fun links => wrong ⟨order, links⟩]
              exact ⟨rfl, stage, bad _⟩
            · rw [if_neg order]
              exact ⟨rfl, stage, bad _⟩

end Segments

section Ends
variable {store : Store} {m : Manifests} {last : Walk} {walk : InspectWalk} {state : InspectState}

/-- What every chosen manifest satisfies without a look at the segments. -/
structure Plausible (m : Manifests) : Prop where
  few : m.generation < 16777215
  timed : m.state.enabled = true → m.hasTime = true
  blank : m.generation = 0 → (m.state.enabled = true ∨ m.last = 0) ∧ m.tail = 0 ∧ (m.hasTime = false → m.lastTime = 0)

/-- What both programs demand of the manifest where the walk ends. -/
structure Ends (m : Manifests) (last : Walk) : Prop where
  place : last.offset = m.dataEnd
  covered : last.sequence ≤ m.last
  gapless : m.state.enabled = true ∨ last.sequence = m.last
  tailed : m.hasTime = true → m.tail = last.previous
  agrees : ∀ segment, last.segment = some segment → segment.ordered = true → m.state.enabled = false → m.hasTime = true →
    m.lastTime = segment.maximum

/-- The library scans the final segment and finds a frame that does not read. -/
def Unread (d : Bytes) (m : Manifests) (last : Walk) : Prop :=
  m.hasTime = false ∧ ∃ segment, last.segment = some segment ∧ segment.ordered = false ∧
    (bodyRun d last.previous segment).2 = none

/-- The inspector counts the frames of the final segment and finds another number. -/
def Miscounted (d : Bytes) (m : Manifests) (last : Walk) : Prop :=
  m.hasTime = false ∧ ∃ segment, last.segment = some segment ∧ ¬ Counted d last.previous segment

/-- The last timestamp that open takes from the segments. -/
def endTime (d : Bytes) (m : Manifests) (last : Walk) : Nat :=
  match last.segment with
  | none => m.lastTime
  | some segment =>
      if m.hasTime = true then m.lastTime
      else if segment.ordered = true then segment.maximum
      else lastOf (bodyRun d last.previous segment).1 m.lastTime

theorem passed_place {d : Bytes} {limit n : Nat} {enabled : Bool} {start : Walk} {infos : List SegmentInfo}
    (passed : Passed d limit enabled start n infos last)
    (placed : ∀ segment, start.segment = some segment → start.offset = start.previous + segment.headerSize + segment.body) :
    ∀ segment, last.segment = some segment → last.offset = last.previous + segment.headerSize + segment.body := by
  induction passed with
  | done walk n => exact placed
  | more admits rest ih =>
      refine ih fun segment found => ?_
      cases found
      rfl

theorem on_bind_reads {α β : Type} {first : Io α} {next : α → Io β} (reads : Reads first) :
    (on (first >>= next) store).1 =
      match (on first store).1 with
      | .ok value => (on (next value) store).1
      | .error error => .error error := by
  rw [on_bind, reads.on_eq store]
  cases (on first store).1 <;> rfl

/-- The library behind a walk. -/
theorem check_ends (shape : Plausible m)
    (walked : (on (walkSegments m.dataEnd m.state.enabled m.generation 1 (startWalk m.state.root)) store).1 = .ok last) :
    (¬ Ends m last → (on (checkSegments m.generation m.dataEnd m.last m.tail m.lastTime m.hasTime m.state) store).1 =
      .error .invalidDatabase) ∧
    (Ends m last → Unread (store.content .database) m last →
      (on (checkSegments m.generation m.dataEnd m.last m.tail m.lastTime m.hasTime m.state) store).1 = .error .invalidDatabase) ∧
    (Ends m last → ¬ Unread (store.content .database) m last →
      (on (checkSegments m.generation m.dataEnd m.last m.tail m.lastTime m.hasTime m.state) store).1 =
        .ok ⟨last.previous, endTime (store.content .database) m last, last.spanStart, last.live⟩) := by
  have whole : on (walkSegments m.dataEnd m.state.enabled m.generation 1 (startWalk m.state.root)) store = (.ok last, store) :=
    ((reads_walkSegments _ _ _ _ _).on_eq store).trans (Prod.ext walked rfl)
  rw [checkSegments, on_bind_ok whole, on_require_bind]
  by_cases ends : last.offset = m.dataEnd ∧ last.sequence ≤ m.last ∧ (m.state.enabled = true ∨ last.sequence = m.last) ∧
      (m.hasTime = true → m.tail = last.previous)
  · rw [if_pos ends]
    cases final : last.segment with
    | none =>
        have there : Ends m last := ⟨ends.1, ends.2.1, ends.2.2.1, ends.2.2.2, fun segment found => by rw [final] at found; cases found⟩
        refine ⟨fun bad => absurd there bad, fun _ unread => ?_, fun _ _ => ?_⟩
        · obtain ⟨-, segment, found, -⟩ := unread
          rw [final] at found
          cases found
        · rw [endTime, final]
          rfl
    | some segment =>
        simp only
        by_cases sorted : segment.ordered = true ∧ m.state.enabled = false
        · rw [if_pos sorted, on_require_bind]
          by_cases agrees : m.hasTime = true → m.lastTime = segment.maximum
          · rw [if_pos agrees]
            have there : Ends m last := ⟨ends.1, ends.2.1, ends.2.2.1, ends.2.2.2, fun other found _ _ => by
              rw [final] at found
              cases found
              exact agrees⟩
            refine ⟨fun bad => absurd there bad, fun _ unread => ?_, fun _ _ => ?_⟩
            · obtain ⟨-, other, found, loose, -⟩ := unread
              rw [final] at found
              cases found
              rw [sorted.1] at loose
              cases loose
            · have time : endTime (store.content .database) m last = segment.maximum := by
                rw [endTime, final]
                simp only
                split
                · rename_i timed
                  exact agrees timed
                · rw [if_pos sorted.1]
              rw [time]
              rfl
          · rw [if_neg agrees]
            exact ⟨fun _ => rfl, fun there => absurd (there.agrees _ final sorted.1 sorted.2) agrees,
              fun there => absurd (there.agrees _ final sorted.1 sorted.2) agrees⟩
        · rw [if_neg sorted]
          have there : Ends m last := ⟨ends.1, ends.2.1, ends.2.2.1, ends.2.2.2, fun other found ordered plain => by
            rw [final] at found
            cases found
            exact absurd ⟨ordered, plain⟩ sorted⟩
          refine ⟨fun bad => absurd there bad, ?_⟩
          by_cases timeless : m.hasTime = false
          · have plain : m.state.enabled = false := by
              by_contra kept
              exact absurd ((shape.timed (by simpa using kept)).symm.trans timeless) (by decide)
            have loose : segment.ordered = false := by
              by_contra ordered
              exact sorted ⟨by simpa using ordered, plain⟩
            obtain ⟨infos, -, passed⟩ := passed_of_walk walked
            have place := passed_place passed (fun segment none => by cases none) _ final
            rw [ends.1] at place
            have room : m.dataEnd - (last.previous + segment.headerSize) = segment.body := by omega
            have scan := @last_frame_agrees (last.previous + segment.headerSize + segment.body) segment.body
              (last.previous + segment.headerSize) segment.first store m.lastTime
            rw [body_run] at scan
            rw [if_pos timeless, room, place, on_bind_reads (reads_lastFrameTime _ _ _ _ _), scan]
            cases complete : (bodyRun (store.content .database) last.previous segment).2 with
            | none => exact ⟨fun _ _ => rfl, fun _ unread => absurd ⟨timeless, segment, final, loose, complete⟩ unread⟩
            | some sequence =>
                refine ⟨fun _ unread => ?_, fun _ _ => ?_⟩
                · obtain ⟨-, other, found, -, cut⟩ := unread
                  rw [final] at found
                  cases found
                  rw [complete] at cut
                  cases cut
                · rw [endTime, final]
                  simp only [timeless, loose, Bool.false_eq_true, if_false]
                  rfl
          · rw [if_neg timeless]
            have timed : m.hasTime = true := by simpa using timeless
            refine ⟨fun _ unread => absurd unread.1 timeless, fun _ _ => ?_⟩
            rw [endTime, final]
            simp only [if_pos timed]
            rfl
  · rw [if_neg ends]
    have nowhere : ¬ Ends m last := fun there => ends ⟨there.place, there.covered, there.gapless, there.tailed⟩
    exact ⟨fun _ => rfl, fun there => absurd there nowhere, fun there => absurd there nowhere⟩

theorem passed_segment {d : Bytes} {limit n : Nat} {enabled : Bool} {start : Walk} {infos : List SegmentInfo}
    (passed : Passed d limit enabled start n infos last) (none : last.segment = none) : infos = [] ∧ last = start := by
  induction passed with
  | done walk n => exact ⟨rfl, rfl⟩
  | more admits rest ih =>
      obtain ⟨-, same⟩ := ih none
      rw [same] at none
      cases none

/-- What the state keeps of the manifest on the way through the segments. -/
structure Keeps (m : Manifests) (state : InspectState) : Prop where
  dataEnd : state.dataEnd = m.dataEnd
  last : state.installed = m.last
  time : state.installedTime = m.lastTime
  hasTime : state.hasTime = m.hasTime
  retention : state.retention = m.state.enabled
  tail : state.tail = m.tail
  generation : state.generation = m.generation

/-- The inspector behind a walk. -/
theorem chain_ends {d : Bytes} (shape : Plausible m) (shadows : Shadows d walk state last) (keeps : Keeps m state)
    (alone : last.segment = none → m.generation = 0 ∧ last = startWalk m.state.root) :
    (Ends m last ∧ ¬ Miscounted d m last) ∧ inspectChainEnd walk state = state ∨
    ¬ (Ends m last ∧ ¬ Miscounted d m last) ∧
      ∃ stage, (inspectChainEnd walk state).predicted = some (.invalidDatabase, stage) := by
  have fresh := shadows.fresh
  unfold inspectChainEnd
  rw [shadows.segment, shadows.offset, shadows.sequence, shadows.previous, keeps.dataEnd]
  by_cases place : last.offset = m.dataEnd
  · rw [if_neg (show ¬ last.offset ≠ m.dataEnd from not_not.mpr place)]
    cases final : last.segment with
    | none =>
        obtain ⟨bare, start⟩ := alone final
        obtain ⟨gapless, tail, -⟩ := shape.blank bare
        have ends : Ends m last := by
          refine ⟨place, ?_, ?_, fun _ => ?_, fun segment found => ?_⟩
          · rw [start]
            exact Nat.zero_le _
          · rw [start]
            exact gapless.imp_right Eq.symm
          · rw [start, tail]
            rfl
          · rw [final] at found
            cases found
        exact .inl ⟨⟨ends, fun ⟨_, segment, found, _⟩ => by rw [final] at found; cases found⟩, rfl⟩
    | some segment =>
        simp only
        by_cases covered : last.sequence > state.installed ∨ (state.retention = false ∧ last.sequence ≠ state.installed)
        · refine .inr ⟨?_, _, guard_keeps (guard_keeps (guard_keeps (guard_first fresh covered _ _) _ _) _ _) _ _⟩
          rintro ⟨ends, -⟩
          rw [keeps.last, keeps.retention] at covered
          rcases covered with beyond | ⟨plain, other⟩
          · exact absurd ends.covered (by omega)
          · exact other (ends.gapless.resolve_left (by rw [plain]; exact Bool.false_ne_true))
        rw [if_neg covered]
        by_cases tailed : state.hasTime = true ∧ state.tail ≠ last.previous
        · refine .inr ⟨?_, _, guard_keeps (guard_keeps (guard_first fresh tailed _ _) _ _) _ _⟩
          rintro ⟨ends, -⟩
          rw [keeps.hasTime, keeps.tail] at tailed
          exact tailed.2 (ends.tailed tailed.1)
        rw [if_neg tailed]
        by_cases agrees : state.hasTime = true ∧ segment.ordered = true ∧ state.retention = false ∧
            state.installedTime ≠ segment.maximum
        · refine .inr ⟨?_, _, guard_keeps (guard_first fresh agrees _ _) _ _⟩
          rintro ⟨ends, -⟩
          rw [keeps.hasTime, keeps.retention, keeps.time] at agrees
          exact agrees.2.2.2 (ends.agrees _ final agrees.2.1 agrees.2.2.1 agrees.1)
        rw [if_neg agrees]
        rw [keeps.last, keeps.retention] at covered
        rw [keeps.hasTime, keeps.tail] at tailed
        rw [keeps.hasTime, keeps.retention, keeps.time] at agrees
        have ends : Ends m last := by
          refine ⟨place, by omega, ?_, fun timed => by_contra fun other => tailed ⟨timed, other⟩,
            fun other found sorted plain timed => ?_⟩
          · cases kind : m.state.enabled with
            | true => exact .inl rfl
            | false => exact .inr (by_contra fun other => covered (.inr ⟨kind, other⟩))
          · rw [final] at found
            cases found
            exact by_contra fun other => agrees ⟨timed, sorted, plain, other⟩
        have damaged := shadows.damaged segment final
        by_cases counted : Counted d last.previous segment
        · refine .inl ⟨⟨ends, fun ⟨_, other, found, bad⟩ => by rw [final] at found; cases found; exact bad counted⟩, ?_⟩
          rw [damaged.mpr counted]
          exact if_neg fun both => absurd both.2 (by decide)
        · have flagged : walk.damagedFinal = true := by
            by_contra clean
            exact counted (damaged.mp (by simpa using clean))
          by_cases timeless : m.hasTime = false
          · exact .inr ⟨fun both => both.2 ⟨timeless, segment, final, counted⟩, _,
              guard_first fresh ⟨keeps.hasTime.trans timeless, flagged⟩ _ _⟩
          · refine .inl ⟨⟨ends, fun bad => timeless bad.1⟩, ?_⟩
            rw [keeps.hasTime]
            exact if_neg fun both => timeless both.1
  · rw [if_pos place]
    refine .inr ⟨fun both => place both.1.place, ?_⟩
    cases last.segment with
    | none => exact ⟨_, predict_first fresh _ _⟩
    | some segment =>
        exact ⟨_, guard_keeps (guard_keeps (guard_keeps (guard_keeps (predict_first fresh _ _) _ _) _ _) _ _) _ _⟩

theorem floor_predicted (state : InspectState) : (inspectFloor state).predicted = state.predicted := by
  unfold inspectFloor
  split
  · rfl
  · split <;> rfl

theorem floor_spine (state : InspectState) : spine (inspectFloor state) = spine state := by
  unfold inspectFloor
  split
  · rfl
  · split <;> rfl

/-- The floor that the inspector has behind the segments. -/
def floorOf (d : Bytes) (m : Manifests) (last : Walk) : Nat :=
  match last.segment with
  | none => m.lastTime
  | some segment => if m.hasTime = true then m.lastTime else lastOf (bodyRun d last.previous segment).1 m.lastTime

theorem keeps_spine {slot : Option Nat} {live : Nat} (kept : spine state = { spine (learned slot m) with live := live }) :
    Keeps m state where
  dataEnd := (congrArg InspectState.dataEnd kept :)
  last := (congrArg InspectState.installed kept :)
  time := (congrArg InspectState.installedTime kept :)
  hasTime := (congrArg InspectState.hasTime kept :)
  retention := (congrArg InspectState.retention kept :)
  tail := (congrArg InspectState.tail kept :)
  generation := (congrArg InspectState.generation kept :)

theorem shadows_start (d : Bytes) (slot : Option Nat) (m : Manifests) :
    Shadows d ⟨m.state.root, 0, 0, List.replicate 24 0, false, none⟩ (learned slot m) (startWalk m.state.root) where
  fresh := rfl
  offset := rfl
  previous := rfl
  sequence := rfl
  offsets := rfl
  segment := rfl
  live := rfl
  damaged := fun _ found => by cases found
  floor := fun _ found => by cases found

theorem floor_agrees {d : Bytes} (shape : Plausible m) (shadows : Shadows d walk state last) (keeps : Keeps m state)
    (alone : last.segment = none ↔ m.generation = 0) (counted : ¬ Miscounted d m last) :
    (inspectFloor state).floorKnown = true ∧ (inspectFloor state).floorTime = floorOf d m last := by
  unfold inspectFloor floorOf
  rw [keeps.hasTime, keeps.generation]
  cases timed : m.hasTime with
  | true =>
      rw [if_pos rfl]
      refine ⟨rfl, keeps.time.trans ?_⟩
      cases last.segment <;> rfl
  | false =>
      rw [if_neg Bool.false_ne_true]
      by_cases bare : m.generation = 0
      · rw [if_pos bare, alone.mpr bare]
        exact ⟨rfl, ((shape.blank bare).2.2 timed).symm⟩
      · rw [if_neg bare]
        cases final : last.segment with
        | none => exact absurd (alone.mp final) bare
        | some segment =>
            have whole : Counted d last.previous segment := by_contra fun bad => counted ⟨timed, segment, final, bad⟩
            obtain ⟨known, time⟩ := shadows.floor segment final whole
            refine ⟨known, ?_⟩
            simp only [Bool.false_eq_true, if_false]
            exact time m.lastTime

theorem segments_stage (d : Bytes) (state : InspectState) : inspectSegments d state = inspectFloor
    (match (inspectSegmentLoop d state.generation 1 ⟨state.root, 0, 0, List.replicate 24 0, false, none⟩ state).1 with
    | some walk =>
        if (inspectSegmentLoop d state.generation 1 ⟨state.root, 0, 0, List.replicate 24 0, false, none⟩ state).2.predicted.isNone
        then inspectChainEnd walk
          (inspectSegmentLoop d state.generation 1 ⟨state.root, 0, 0, List.replicate 24 0, false, none⟩ state).2
        else (inspectSegmentLoop d state.generation 1 ⟨state.root, 0, 0, List.replicate 24 0, false, none⟩ state).2
    | none => (inspectSegmentLoop d state.generation 1 ⟨state.root, 0, 0, List.replicate 24 0, false, none⟩ state).2) := by
  unfold inspectSegments
  rfl

/-- The segment stages. -/
theorem segments_agree {d : Bytes} (same : store.content .database = d) (shape : Plausible m) (slot : Option Nat) :
    match (on (walkSegments m.dataEnd m.state.enabled m.generation 1 (startWalk m.state.root)) store).1 with
    | .ok last =>
        (Ends m last ∧ ¬ Miscounted d m last) ∧ (inspectSegments d (learned slot m)).predicted = none ∧
          spine (inspectSegments d (learned slot m)) = { spine (learned slot m) with live := last.live } ∧
          (inspectSegments d (learned slot m)).floorKnown = true ∧
          (inspectSegments d (learned slot m)).floorTime = floorOf d m last ∨
        ¬ (Ends m last ∧ ¬ Miscounted d m last) ∧
          ∃ stage, (inspectSegments d (learned slot m)).predicted = some (.invalidDatabase, stage)
    | .error error => error = .invalidDatabase ∧
        ∃ stage, (inspectSegments d (learned slot m)).predicted = some (.invalidDatabase, stage) := by
  have few := shape.few
  have loop := @segment_loop_agrees d m.generation 1 (learned slot m) _ _ store same (shadows_start d slot m) (by decide) (by omega)
  have limits : walkSegments (learned slot m).dataEnd (learned slot m).retention m.generation 1 (startWalk m.state.root) =
      walkSegments m.dataEnd m.state.enabled m.generation 1 (startWalk m.state.root) := rfl
  rw [segments_stage]
  rw [limits] at loop
  rw [show (learned slot m).generation = m.generation from rfl, show (learned slot m).root = m.state.root from rfl]
  generalize inspectSegmentLoop d m.generation 1 ⟨m.state.root, 0, 0, List.replicate 24 0, false, none⟩ (learned slot m) =
    walked at loop ⊢
  cases ran : (on (walkSegments m.dataEnd m.state.enabled m.generation 1 (startWalk m.state.root)) store).1 with
  | error error =>
      rw [ran] at loop
      obtain ⟨known, stage, told⟩ := loop
      refine ⟨known, stage, (floor_predicted _).trans ?_⟩
      cases walked.1 with
      | none => exact told
      | some walk =>
          simp only [told, Option.isNone_some, Bool.false_eq_true, if_false]
  | ok last =>
      rw [ran] at loop
      obtain ⟨walk, found, shadows, kept⟩ := loop
      have keeps := keeps_spine kept
      obtain ⟨infos, count, passed⟩ := passed_of_walk ran
      have alone : last.segment = none ↔ m.generation = 0 := by
        constructor
        · intro none
          rw [← count, (passed_segment passed none).1]
          rfl
        · intro bare
          rw [bare] at count
          rw [List.length_eq_zero_iff.mp count] at passed
          cases passed
          rfl
      have start : last.segment = none → m.generation = 0 ∧ last = startWalk m.state.root :=
        fun none => ⟨alone.mp none, (passed_segment passed none).2⟩
      rw [found]
      simp only [shadows.fresh, Option.isNone_none, if_true]
      rcases chain_ends shape shadows keeps start with ⟨ends, same'⟩ | ⟨wrong, stage, told⟩
      · rw [same']
        obtain ⟨known, time⟩ := floor_agrees shape shadows keeps alone ends.2
        exact .inl ⟨ends, (floor_predicted _).trans shadows.fresh, (floor_spine _).trans kept, known, time⟩
      · exact .inr ⟨wrong, stage, (floor_predicted _).trans told⟩

theorem zero_fields {slot : Bytes} (zero : (slot.drop 32).take 28 = List.replicate 28 0) :
    decode64 (slot.drop 32) = 0 ∧ decode64 (slot.drop 40) = 0 := by
  have first : (slot.drop 32).take 8 = List.replicate 8 0 := by
    have part := congrArg (List.take 8) zero
    rwa [List.take_take, List.take_replicate] at part
  have second : (slot.drop 40).take 8 = List.replicate 8 0 := by
    have part := congrArg (fun bytes => (bytes.drop 8).take 8) zero
    rwa [List.drop_take, List.take_take, List.drop_drop, List.drop_replicate, List.take_replicate] at part
  rw [decode64, decode64, first, second]
  exact ⟨rfl, rfl⟩

theorem slot_valid {index size : Nat} {slot : Bytes} (accepted : slotManifest index slot size = some m) : Plausible m := by
  have cap : databaseCapacity = 1073741824 := rfl
  have least : segmentMin = 116 := rfl
  obtain ⟨-, ⟨retained, rfl⟩ | ⟨g, d, l, checked, rfl⟩⟩ := slot_cases accepted
  · simp only [retentionManifest, decide_eq_true_eq] at retained
    obtain ⟨-, -, -, -, -, -, -, -, capacity, count, -, tail, -⟩ := retained
    refine ⟨?_, fun _ => rfl, fun bare => ⟨.inl rfl, ?_, fun none => by cases none⟩⟩
    · change decode32 (slot.drop 52) < 16777215
      rw [least] at count
      omega
    · rw [if_neg (not_not.mpr bare)] at tail
      exact tail.1
  · have fields := check_fields checked
    simp only [checkManifest] at checked
    split at checked
    · cases checked
    rename_i sealed_
    split at checked
    · cases checked
    split at checked
    · rename_i bare
      split at checked
      · cases checked
      · rename_i blank
        cases checked
        have zero : (slot.drop 32).take 28 = List.replicate 28 0 :=
          by_contra fun other => sealed_ (.inr (.inl ⟨other, .inr (.inr bare)⟩))
        obtain ⟨time, tail⟩ := zero_fields zero
        refine ⟨?_, fun on => (by cases on), fun _ => ⟨.inr ?_, tail, fun _ => time⟩⟩
        · change decode64 (slot.drop 8) < 16777215
          omega
        · change decode64 (slot.drop 24) = 0
          omega
    · rename_i some_
      split at checked
      · cases checked
      · rename_i range
        cases checked
        refine ⟨?_, fun on => (by cases on), fun bare => absurd bare some_⟩
        change decode64 (slot.drop 8) < 16777215
        rw [least, cap] at range
        omega

theorem chosen_valid {d : Bytes} (found : chosen d = some m) : Plausible m := by
  rcases chosen_cases found with current | ⟨rfl, _⟩ | ⟨rfl, _⟩
  · exact slot_valid (selected_some current).1.2
  · exact ⟨by decide, fun on => (by cases on), fun _ => ⟨.inr rfl, rfl, fun _ => rfl⟩⟩
  · exact ⟨by decide, fun on => (by cases on), fun _ => ⟨.inr rfl, rfl, fun _ => rfl⟩⟩

end Ends

section Wal
variable {store : Store} {fuel : Nat} {state : InspectState} {scan : WalScan}

theorem wal_frame_core (state : InspectState) (frame : InspectFrame) :
    core (inspectWalFrame state frame) = { core state with
      walEnd := state.walEnd + frame.length
      sequence := next64 state.sequence
      walLastTime := frame.lastTime } := by
  unfold inspectWalFrame
  simp only
  split <;> rfl

/-- The two scans of the WAL. -/
theorem wal_loop_agrees (fresh : state.predicted = none) (offset : state.walEnd = scan.offset)
    (sequence : state.sequence = scan.sequence) (last : state.walLastTime = scan.last) :
    match (on (scanWal (store.content .wal).length state.stale fuel scan) store).1 with
    | .ok found => core (inspectWalLoop (store.content .wal) fuel state) =
        { core state with walEnd := found.offset, sequence := found.sequence, walLastTime := found.last }
    | .error error => error = .invalidDatabase ∧
        (inspectWalLoop (store.content .wal) fuel state).predicted = some (.invalidDatabase, "wal frame") := by
  induction fuel generalizing state scan with
  | zero =>
      change core state = _
      rw [← offset, ← sequence, ← last]
      rfl
  | succ fuel ih =>
      rw [scanWal, inspectWalLoop, offset, sequence]
      by_cases more : scan.offset < (store.content .wal).length
      · rw [if_pos more, if_pos more, on_examine, frame_agrees,
          (reads_readFrame .wal scan.offset (store.content .wal).length (next64 scan.sequence)).on_state store]
        cases read : (on (readFrame .wal scan.offset (store.content .wal).length (next64 scan.sequence)) store).1 with
        | error error =>
            rcases read_frame_error read with rfl | ⟨rfl, _⟩
            · exact ⟨rfl, predict_first fresh _ _⟩
            · cases stale : state.stale with
              | true =>
                  simp only [Except.map, if_true]
                  exact ⟨rfl, predict_first fresh _ _⟩
              | false =>
                  simp only [Except.map, Bool.false_eq_true, if_false]
                  change core state = _
                  rw [← offset, ← sequence, ← last]
                  rfl
        | ok frame =>
            have some : frame.records ≠ 0 := (Decoding.accepted_frame read).2.2.1.ne'
            have turned := wal_frame_core state (inspected frame)
            have offset' : (inspectWalFrame state (inspected frame)).walEnd = (scan.frame frame).offset := by
              refine (congrArg InspectState.walEnd turned).trans ?_
              simp only [inspected_length, offset]
              rfl
            have sequence' : (inspectWalFrame state (inspected frame)).sequence = (scan.frame frame).sequence :=
              (congrArg InspectState.sequence turned).trans (congrArg next64 sequence)
            have last' : (inspectWalFrame state (inspected frame)).walLastTime = (scan.frame frame).last := by
              refine (congrArg InspectState.walLastTime turned).trans ?_
              simp only [inspected_last some, scan_frame_last some]
            have stale : (inspectWalFrame state (inspected frame)).stale = state.stale :=
              (congrArg InspectState.stale turned).trans rfl
            have step := @ih (inspectWalFrame state (inspected frame)) (scan.frame frame)
              ((congrArg InspectState.predicted turned).trans fresh) offset' sequence' last'
            rw [stale, turned] at step
            exact step
      · rw [if_neg more, if_neg more]
        change core state = _
        rw [← offset, ← sequence, ← last]
        rfl

/-- What open does about the WAL. -/
def walPart (m : Manifests) (databaseSize : Nat) : Io (Bool × WalScan × Nat) := do
  let size ← fileSize .wal
  Io.require (32 ≤ size ∧ size ≤ walCapacity) .invalidDatabase
  let stale ← staleSequence m.last size
  let scan ← scanWal size stale.isSome size (startScan (stale.getD m.last))
  Io.require (stale.isSome = true → scan.sequence = m.last) .invalidDatabase
  Io.require (¬ (databaseSize > m.dataEnd ∧ m.state.phase = 0 ∧
    ¬ (m.state.enabled = true ∧ m.generation = 0 ∧ databaseSize = 161) ∧
    (stale.isSome = true ∨ scan.sequence = m.last))) .invalidDatabase
  pure (stale.isSome, scan, size)

-- The first header of the WAL, as both read it.
theorem stale_agrees (installed : Nat) :
    (on (staleSequence installed (store.content .wal).length) store).1 =
      if (store.content .wal).length > 32 ∧ ((inspectRead (store.content .wal) 32 32).length < 32 ∨
          checkFrameHeader (inspectRead (store.content .wal) 32 32) ≠ true) then .error .invalidDatabase
      else .ok (if (store.content .wal).length > 32 ∧ decode64 ((inspectRead (store.content .wal) 32 32).drop 8) ≠ 0 ∧
          decode64 ((inspectRead (store.content .wal) 32 32).drop 8) ≤ installed then
        some (decode64 ((inspectRead (store.content .wal) 32 32).drop 8) - 1) else none) := by
  unfold staleSequence inspectRead
  by_cases more : (store.content .wal).length > 32
  · have size := read_length (store.content .wal) 32 32
    rw [if_pos more, on_bind, on_read_exact]
    by_cases short : (readAt (store.content .wal) 32 32).length = 32
    · rw [if_pos short]
      simp only [on_require_bind]
      by_cases valid : checkFrameHeader (readAt (store.content .wal) 32 32) = true
      · have fine : ¬ ((store.content .wal).length > 32 ∧ ((readAt (store.content .wal) 32 32).length < 32 ∨
            checkFrameHeader (readAt (store.content .wal) 32 32) ≠ true)) := fun both =>
          both.2.elim (fun cut => absurd short (Nat.ne_of_lt cut)) fun bad => bad valid
        rw [if_pos valid, if_neg fine]
        simp only [more, true_and]
        rfl
      · rw [if_neg valid, if_pos ⟨more, .inr valid⟩]
    · rw [if_neg short, if_pos ⟨more, .inl (by omega)⟩]
  · rw [if_neg more, if_neg fun both => more both.1, if_neg fun both => more both.1]
    rfl

-- The condition on the first header, with the library's check.
theorem first_header_agrees (w : Bytes) :
    (w.length > 32 ∧ ((inspectRead w 32 32).length < 32 ∨ (inspectRead w 32 32).take 8 ≠ batchMagic ∨
      decode32 ((inspectRead w 32 32).drop 16) = 0 ∨ decode32 ((inspectRead w 32 32).drop 16) > maxRecords ∨
      decode32 ((inspectRead w 32 32).drop 20) ≠ 32 + decode32 ((inspectRead w 32 32).drop 16) * 20 ∨
      decode32 ((inspectRead w 32 32).drop 24) ≠ 0 ∨
      checksum ((inspectRead w 32 32).take 28) ≠ decode32 ((inspectRead w 32 32).drop 28))) ↔
    w.length > 32 ∧ ((inspectRead w 32 32).length < 32 ∨ checkFrameHeader (inspectRead w 32 32) ≠ true) := by
  refine and_congr_right fun _ => or_congr_right ?_
  rw [ne_eq (checkFrameHeader _), frame_header_checks, not_not]

theorem wal_stage (d w : Bytes) {state : InspectState} (fresh : state.predicted = none) :
    (w.length < 32 ∨ w.length > walCapacity) ∧ (∃ stage, (inspectWal d w state).predicted = some (.invalidDatabase, stage)) ∨
      ¬ (w.length < 32 ∨ w.length > walCapacity) ∧
        ((w.length > 32 ∧ ((inspectRead w 32 32).length < 32 ∨ checkFrameHeader (inspectRead w 32 32) ≠ true)) ∧
            (∃ stage, (inspectWal d w state).predicted = some (.invalidDatabase, stage)) ∨
          ¬ (w.length > 32 ∧ ((inspectRead w 32 32).length < 32 ∨ checkFrameHeader (inspectRead w 32 32) ≠ true)) ∧
            ∀ last, inspectWalLoop w w.length (inspectWalStart w (inspectRead w 32 32)
              { state with sequence := state.installed, walOrdered := true }) = last →
              inspectWal d w state = if last.predicted.isNone then inspectWalEnd d last else last) := by
  have fresh' : ({ state with sequence := state.installed, walOrdered := true } : InspectState).predicted = none := fresh
  unfold inspectWal
  by_cases range : w.length < 32 ∨ w.length > walCapacity
  · rw [if_pos range]
    exact .inl ⟨range, _, predict_first fresh' _ _⟩
  · rw [if_neg range]
    refine .inr ⟨range, ?_⟩
    by_cases bad : w.length > 32 ∧ ((inspectRead w 32 32).length < 32 ∨ checkFrameHeader (inspectRead w 32 32) ≠ true)
    · rw [if_pos ((first_header_agrees w).mpr bad)]
      exact .inl ⟨bad, _, predict_first fresh' _ _⟩
    · rw [if_neg fun other => bad ((first_header_agrees w).mp other)]
      refine .inr ⟨bad, fun last ran => ?_⟩
      rw [ran]

/-- The checks of both behind the WAL loop. -/
def Orphaned (m : Manifests) (databaseSize : Nat) (stale : Bool) (sequence : Nat) : Prop :=
  databaseSize > m.dataEnd ∧ m.state.phase = 0 ∧ ¬ (m.state.enabled = true ∧ m.generation = 0 ∧ databaseSize = 161) ∧
    (stale = true ∨ sequence = m.last)

instance (m : Manifests) (databaseSize : Nat) (stale : Bool) (sequence : Nat) :
    Decidable (Orphaned m databaseSize stale sequence) :=
  inferInstanceAs (Decidable (_ ∧ _))

theorem wal_end_agrees {m : Manifests} {d : Bytes} (fresh : state.predicted = none) (keeps : Keeps m state)
    (phase : state.phase = m.state.phase) :
    ((state.stale = true → state.sequence = m.last) ∧ ¬ Orphaned m d.length state.stale state.sequence) ∧
        (inspectWalEnd d state).predicted = none ∧ spine (inspectWalEnd d state) = spine state ∧
        (inspectWalEnd d state).floorKnown = (state.floorKnown || (!state.stale && decide (state.sequence > m.last))) ∧
        (inspectWalEnd d state).floorTime =
          (if state.stale = false ∧ state.sequence > m.last then state.walLastTime else state.floorTime) ∨
      ¬ ((state.stale = true → state.sequence = m.last) ∧ ¬ Orphaned m d.length state.stale state.sequence) ∧
        ∃ stage, (inspectWalEnd d state).predicted = some (.invalidDatabase, stage) := by
  have orphans : Orphaned m d.length state.stale state.sequence ↔ d.length > state.dataEnd ∧ state.phase = 0 ∧
      ¬ (state.retention = true ∧ state.generation = 0 ∧ d.length = 161) ∧
      (state.stale = true ∨ state.sequence = state.installed) := by
    rw [Orphaned, keeps.dataEnd, keeps.retention, keeps.generation, keeps.last, phase]
  rw [← keeps.last, orphans]
  unfold inspectWalEnd
  by_cases late : state.stale = true ∧ state.sequence ≠ state.installed
  · refine .inr ⟨fun both => late.2 (both.1 late.1), "stale wal", ?_⟩
    have told := predict_first fresh .invalidDatabase "stale wal"
    rw [if_pos late]
    generalize inspectPredict state .invalidDatabase "stale wal" = marked at told ⊢
    dsimp only
    split
    · split
      · exact predict_keeps told _ _
      · exact predict_keeps told _ _
    · split
      · exact told
      · exact told
  · rw [if_neg late]
    dsimp only
    have ends : state.stale = true → state.sequence = state.installed :=
      fun stale => by_contra fun other => late ⟨stale, other⟩
    by_cases orphaned : d.length > state.dataEnd ∧ state.phase = 0 ∧
        ¬ (state.retention = true ∧ state.generation = 0 ∧ d.length = 161) ∧
        (state.stale = true ∨ state.sequence = state.installed)
    · refine .inr ⟨fun both => both.2 orphaned, "orphan bytes", ?_⟩
      have told := predict_first fresh .invalidDatabase "orphan bytes"
      rw [if_pos orphaned]
      split
      · exact told
      · exact told
    · refine .inl ⟨⟨ends, orphaned⟩, ?_⟩
      rw [if_neg orphaned]
      by_cases ahead : state.stale = false ∧ state.sequence > state.installed
      · rw [if_pos ahead, if_pos ahead]
        refine ⟨fresh, rfl, ?_, rfl⟩
        rw [ahead.1, decide_eq_true ahead.2]
        simp
      · rw [if_neg ahead, if_neg ahead]
        refine ⟨fresh, rfl, ?_, rfl⟩
        cases stale : state.stale with
        | true => simp
        | false =>
            have behind : ¬ state.sequence > state.installed := fun more => ahead ⟨stale, more⟩
            rw [decide_eq_false behind]
            simp

-- What the first header of the WAL makes of the installed sequence.
def leftover (w : Bytes) (installed : Nat) : Option Nat :=
  if w.length > 32 ∧ decode64 ((inspectRead w 32 32).drop 8) ≠ 0 ∧ decode64 ((inspectRead w 32 32).drop 8) ≤ installed then
    some (decode64 ((inspectRead w 32 32).drop 8) - 1)
  else none

/-- The state of the inspector in front of its WAL loop. -/
structure Starts (stale : Option Nat) (state entered : InspectState) : Prop where
  fresh : entered.predicted = none
  place : entered.walEnd = 32
  leftover : entered.stale = stale.isSome
  sequence : entered.sequence = stale.getD state.installed
  kept : spine entered = { spine state with stale := stale.isSome, sequence := stale.getD state.installed, walEnd := 32 }
  known : entered.floorKnown = state.floorKnown
  time : entered.floorTime = state.floorTime

theorem wal_start (w : Bytes) {state : InspectState} (fresh : state.predicted = none) (unscanned : state.stale = false) :
    Starts (leftover w state.installed) state
      (inspectWalStart w (inspectRead w 32 32) { state with sequence := state.installed, walOrdered := true }) := by
  unfold inspectWalStart leftover
  dsimp only
  by_cases more : w.length > 32
  · by_cases old : decode64 ((inspectRead w 32 32).drop 8) ≠ 0 ∧ decode64 ((inspectRead w 32 32).drop 8) ≤ state.installed
    · rw [if_pos more, if_pos old, if_pos ⟨more, old⟩]
      exact ⟨fresh, rfl, rfl, rfl, rfl, rfl, rfl⟩
    · rw [if_pos more, if_neg old, if_neg fun both => old both.2, unscanned]
      exact ⟨fresh, rfl, rfl, rfl, rfl, rfl, rfl⟩
  · rw [if_neg more, if_neg fun both => more both.1, unscanned]
    exact ⟨fresh, rfl, rfl, rfl, rfl, rfl, rfl⟩

/-- The WAL stages. -/
theorem wal_agrees {m : Manifests} {d : Bytes} (fresh : state.predicted = none) (keeps : Keeps m state)
    (phase : state.phase = m.state.phase) (unscanned : state.stale = false) (unread : state.walLastTime = 0)
    (known : state.floorKnown = true) :
    match (on (walPart m d.length) store).1 with
    | .ok (stale, scan, _) => (inspectWal d (store.content .wal) state).predicted = none ∧
        spine (inspectWal d (store.content .wal) state) = { spine state with
          stale := stale
          sequence := scan.sequence
          walEnd := scan.offset
          walLastTime := scan.last } ∧
        (inspectWal d (store.content .wal) state).floorKnown = true ∧
        (inspectWal d (store.content .wal) state).floorTime =
          if stale = false ∧ scan.sequence > m.last then scan.last else state.floorTime
    | .error error => error = .invalidDatabase ∧
        ∃ stage, (inspectWal d (store.content .wal) state).predicted = some (.invalidDatabase, stage) := by
  have first := @stale_agrees store m.last
  rw [walPart, on_bind, on_size]
  simp only [on_require_bind]
  rcases wal_stage d (store.content .wal) fresh with ⟨range, told⟩ | ⟨range, ⟨bad, told⟩ | ⟨fine, shape⟩⟩
  · rw [if_neg (by omega)]
    exact ⟨rfl, told⟩
  · rw [if_pos (by omega), on_bind_reads (reads_staleSequence _ _), first, if_pos bad]
    exact ⟨rfl, told⟩
  · have start := @wal_start (store.content .wal) state fresh unscanned
    rw [if_neg fine] at first
    change _ = Except.ok (leftover (store.content .wal) m.last) at first
    rw [if_pos (by omega), on_bind_reads (reads_staleSequence _ _), first]
    generalize inspectWalStart (store.content .wal) (inspectRead (store.content .wal) 32 32)
      { state with sequence := state.installed, walOrdered := true } = entered at start shape
    rw [keeps.last] at start
    generalize leftover (store.content .wal) m.last = stale at start ⊢
    have loop := @wal_loop_agrees store (store.content .wal).length entered (startScan (stale.getD m.last)) start.fresh start.place
      (start.sequence.trans (by rw [keeps.last]; rfl)) ((congrArg InspectState.walLastTime start.kept).trans unread)
    rw [start.leftover] at loop
    have shape := shape _ rfl
    simp only
    rw [on_bind_reads (reads_scanWal _ _ _ _)]
    cases scanned : (on (scanWal (store.content .wal).length stale.isSome (store.content .wal).length
      (startScan (stale.getD m.last))) store).1 with
    | error error =>
        rw [scanned] at loop
        obtain ⟨same, told⟩ := loop
        rw [told] at shape
        refine ⟨same, "wal frame", ?_⟩
        rw [shape]
        exact told
    | ok scan =>
        rw [scanned] at loop
        simp only at loop ⊢
        have kept : spine (inspectWalLoop (store.content .wal) (store.content .wal).length entered) = { spine state with
            stale := stale.isSome
            sequence := scan.sequence
            walEnd := scan.offset
            walLastTime := scan.last } := by
          have whole := congrArg (fun entered => { spine entered with
            sequence := scan.sequence
            walEnd := scan.offset
            walLastTime := scan.last }) start.kept
          exact (congrArg spine loop).trans whole
        generalize inspectWalLoop (store.content .wal) (store.content .wal).length entered = last at loop shape kept
        have keeps' : Keeps m last := by
          refine ⟨?_, ?_, ?_, ?_, ?_, ?_, ?_⟩
          · exact (congrArg InspectState.dataEnd kept :).trans keeps.dataEnd
          · exact (congrArg InspectState.installed kept :).trans keeps.last
          · exact (congrArg InspectState.installedTime kept :).trans keeps.time
          · exact (congrArg InspectState.hasTime kept :).trans keeps.hasTime
          · exact (congrArg InspectState.retention kept :).trans keeps.retention
          · exact (congrArg InspectState.tail kept :).trans keeps.tail
          · exact (congrArg InspectState.generation kept :).trans keeps.generation
        have fresh' : last.predicted = none := (congrArg InspectState.predicted kept :).trans fresh
        rw [fresh'] at shape
        have shape : inspectWal d (store.content .wal) state = inspectWalEnd d last := shape
        have ends := @wal_end_agrees last m d fresh' keeps' ((congrArg InspectState.phase kept :).trans phase)
        have leftover : last.stale = stale.isSome := (congrArg InspectState.stale kept :)
        have sequence : last.sequence = scan.sequence := (congrArg InspectState.sequence kept :)
        have time : last.walLastTime = scan.last := (congrArg InspectState.walLastTime kept :)
        rw [leftover, sequence, time] at ends
        unfold Orphaned at ends
        have floor : last.floorKnown = true := ((congrArg InspectState.floorKnown loop :).trans start.known).trans known
        have floorTime : last.floorTime = state.floorTime := (congrArg InspectState.floorTime loop :).trans start.time
        rw [on_require_bind, on_require_bind, shape]
        rcases ends with ⟨⟨caught, bare⟩, free, same, known', time'⟩ | ⟨wrong, stage, told⟩
        · rw [if_pos caught, if_pos bare]
          rw [floor, Bool.true_or] at known'
          rw [floorTime] at time'
          exact ⟨free, same.trans kept, known', time'⟩
        · by_cases caught : stale.isSome = true → scan.sequence = m.last
          · rw [if_pos caught, if_neg fun bare => wrong ⟨caught, bare⟩]
            exact ⟨rfl, stage, told⟩
          · rw [if_neg caught]
            exact ⟨rfl, stage, told⟩

end Wal

end Timelite.Predicting
