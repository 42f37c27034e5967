import Timelite.SegmentLaws

/-!
The header walk of open against a chain. `Walked` is the loop invariant, kept by
one step and then by the whole walk; `check_segments` is the result on any chain
whose manifest fields agree with it.
-/
namespace Timelite.HeaderWalk
open ByteFile Program Codec CodecLaws Backend BackendLaws Layout FrameLaws Links SegmentLaws Reader

section Sequences

/-- Sequence numbers increase and, without retention, leave no gap. -/
def Sequenced (enabled : Bool) (floor : Nat) (segments : List Segment) : Prop :=
  Increasing floor segments ∧ (enabled = false → Gapless floor segments)

theorem sequenced_nil (enabled : Bool) (floor : Nat) : Sequenced enabled floor [] :=
  ⟨trivial, fun _ => trivial⟩

theorem sequenced_cons {enabled : Bool} {floor : Nat} {segment : Segment} {rest : List Segment} :
    Sequenced enabled floor (segment :: rest) ↔
      floor < segment.first ∧ (enabled = false → segment.first = floor + 1) ∧
        Sequenced enabled segment.last rest := by
  simp only [Sequenced, Increasing, Gapless]
  constructor
  · rintro ⟨⟨less, more⟩, gapless⟩
    exact ⟨less, fun off => (gapless off).1, more, fun off => (gapless off).2⟩
  · rintro ⟨less, next, more, gapless⟩
    exact ⟨⟨less, more⟩, fun off => ⟨next off, gapless off⟩⟩

@[simp] theorem last_sequence_nil : lastSequence [] = 0 := rfl

@[simp] theorem last_sequence_snoc (segments : List Segment) (segment : Segment) :
    lastSequence (segments ++ [segment]) = segment.last := by
  simp [lastSequence]

@[simp] theorem prior_maximum_snoc (segments : List Segment) (segment : Segment) :
    priorMaximum (segments ++ [segment]) = if segment.wide then segment.maximum else 0 := by
  simp [priorMaximum]

theorem sequenced_append {enabled : Bool} {floor : Nat} {left right : List Segment} :
    Sequenced enabled floor (left ++ right) ↔
      Sequenced enabled floor left ∧
        Sequenced enabled ((left.getLast?.map Segment.last).getD floor) right := by
  induction left generalizing floor with
  | nil => simp [sequenced_nil]
  | cons segment rest ih =>
      rw [List.cons_append, sequenced_cons, sequenced_cons, ih, and_assoc, and_assoc]
      cases rest with
      | nil => simp
      | cons next rest =>
          rw [List.getLast?_cons_cons]
          cases shape : (next :: rest).getLast? with
          | none => simp at shape
          | some final => simp

theorem sequenced_snoc {enabled : Bool} {segments : List Segment} {segment : Segment} :
    Sequenced enabled 0 (segments ++ [segment]) ↔
      Sequenced enabled 0 segments ∧ lastSequence segments < segment.first ∧
        (enabled = false → segment.first = lastSequence segments + 1) := by
  rw [sequenced_append, sequenced_cons]
  simp [sequenced_nil, lastSequence]

end Sequences

section Walk
variable {store : Store} {root dataEnd : Nat} {done rest segments : List Segment} {walk : Walk}

def lastInfo (root : Nat) (segments : List Segment) : Option SegmentInfo :=
  segments.getLast?.map (infoAt root segments (segments.length - 1))

/-- The walk after the segments `done`. -/
structure Walked (root : Nat) (done : List Segment) (walk : Walk) : Prop where
  offset : walk.offset = root + extent done
  previous : walk.previous = linkTo root done done.length
  sequence : walk.sequence = lastSequence done
  prior : walk.priorMax = priorMaximum done
  span : walk.spanStart = Layout.spanStart done
  live : walk.live = Layout.live done
  levels : Levels root done walk.offsets
  segment : walk.segment = lastInfo root done

theorem walked_start (root : Nat) : Walked root [] (startWalk root) :=
  ⟨by simp [startWalk], rfl, rfl, rfl, rfl, rfl, levels_start root, rfl⟩

theorem walked_step (walked : Walked root done walk) (segment : Segment)
    (small : done.length + 1 < 16777216) :
    Walked root (done ++ [segment])
      (walk.step (done.length + 1) (infoAt root (done ++ [segment]) done.length segment)) where
  offset := by
    simp only [Walk.step, walked.offset, infoAt, Segment.info, extent_append, extent_cons, extent_nil,
      Segment.size]
    omega
  previous := by
    rw [List.length_append, List.length_singleton, link_succ, List.take_append_of_le_length (by omega),
      List.take_length]
    exact walked.offset
  sequence := by
    rw [last_sequence_snoc]
    rfl
  prior := by
    rw [prior_maximum_snoc]
    simp [Walk.step, infoAt, Segment.info]
  span := by
    rw [span_start_snoc]
    simp only [Walk.step, infoAt, Segment.info, Segment.header_size_wide, walked.prior, walked.span]
  live := by
    have count := segment.count_eq
    simp only [Walk.step, infoAt, Segment.info, walked.live, live_append, live_cons, live_nil]
    omega
  levels := by
    have marked := levels_mark walked.levels segment small
    simp only [Walk.step, walked.offset]
    exact marked
  segment := by simp [Walk.step, lastInfo]

theorem reads_walkSegments (dataEnd : Nat) (enabled : Bool) (remaining n : Nat) (walk : Walk) :
    Reads (walkSegments dataEnd enabled remaining n walk) := by
  induction remaining generalizing n walk with
  | zero => exact reads_pure _
  | succ remaining ih =>
      exact reads_bind (reads_readSegment _ _ _) fun _ => reads_bind (reads_require _ _) fun _ =>
        reads_bind (reads_require _ _) fun _ => ih _ _

theorem walk_segments (chained : Chained store root dataEnd (done ++ rest)) (enabled : Bool)
    (sequenced : Sequenced enabled 0 (done ++ rest)) (walked : Walked root done walk) :
    ∃ walk', on (walkSegments dataEnd enabled rest.length (done.length + 1) walk) store =
      (.ok walk', store) ∧ Walked root (done ++ rest) walk' := by
  induction rest generalizing done walk with
  | nil => exact ⟨walk, rfl, by simpa using walked⟩
  | cons segment rest ih =>
      have count := chained.count_lt
      rw [List.length_append, List.length_cons] at count
      have small : done.length + 1 < 16777216 := by omega
      have joined : done ++ segment :: rest = (done ++ [segment]) ++ rest := by simp
      have read := chained.read
      rw [info_at_done, ← info_at_done root done [] segment] at read
      have order := sequenced
      rw [sequenced_append, sequenced_cons] at order
      obtain ⟨_, above, next, _⟩ := order
      have skip := levels_skip walked.levels small
      have top := segment.last_lt
      have inside := segment.first_le_last
      have fields : infoAt root (done ++ [segment]) done.length segment =
          segment.info (linkTo root done done.length)
            (linkTo root done (done.length + 1 - lowBit (done.length + 1))) := info_at_done _ _ [] _
      have sequence : walk.sequence = (done.getLast?.map Segment.last).getD 0 := walked.sequence
      have first : walk.sequence ≠ uint64Max ∧ walk.sequence < segment.first ∧
          (enabled = true ∨ segment.first = walk.sequence + 1) := by
        simp only [uint64Max]
        refine ⟨by omega, by omega, ?_⟩
        cases enabled with
        | true => exact .inl rfl
        | false => exact .inr (by rw [sequence]; exact next rfl)
      have links : (infoAt root (done ++ [segment]) done.length segment).headerSize = 64 →
          (infoAt root (done ++ [segment]) done.length segment).previous = walk.previous ∧
          (infoAt root (done ++ [segment]) done.length segment).skip =
            walk.offsets.getD (linkLevel (done.length + 1)) 0 := by
        intro wide
        rw [fields] at wide ⊢
        have wide' := segment.header_size_wide.mp wide
        rw [walked.previous, skip]
        simp [Segment.info, wide']
      rw [joined] at chained sequenced
      obtain ⟨walk', ran, finished⟩ := ih chained sequenced (walked_step walked segment small)
      rw [List.length_append, List.length_singleton] at ran
      rw [← joined] at finished
      refine ⟨walk', ?_, finished⟩
      rw [List.length_cons, walkSegments, walked.offset, on_bind_ok read, on_require_bind, info_at_first,
        if_pos first, on_require_bind, if_pos links]
      exact ran

end Walk

section Times

def Batch.firstTime (batch : Batch) : Nat := (batch.records.head batch.occupied).timestamp.toNat

def Batch.finalTime (batch : Batch) : Nat := (batch.records.getLast batch.occupied).timestamp.toNat

-- The time of the last record of the last batch.
def lastTimeOf (batches : List Batch) (time : Nat) : Nat := (batches.getLast?.map Batch.finalTime).getD time

@[simp] theorem last_time_nil (time : Nat) : lastTimeOf [] time = time := rfl

@[simp] theorem last_time_cons (batch : Batch) (rest : List Batch) (time : Nat) :
    lastTimeOf (batch :: rest) time = lastTimeOf rest (Batch.finalTime batch) := by
  cases rest with
  | nil => rfl
  | cons next rest =>
      simp only [lastTimeOf, List.getLast?_cons_cons]
      cases shape : (next :: rest).getLast? with
      | none => simp at shape
      | some final => rfl

@[simp] theorem last_time_snoc (batches : List Batch) (batch : Batch) (time : Nat) :
    lastTimeOf (batches ++ [batch]) time = Batch.finalTime batch := by
  simp [lastTimeOf]

theorem final_frame_time (sequence : Nat) (batch : Batch) :
    frameTime (frameOf sequence batch).bytes ((frameOf sequence batch).records - 1) =
      Batch.finalTime batch := by
  have some := batch.length_pos
  refine frame_of_time sequence batch ?_
  rw [frame_of_records, ← List.getLast?_eq_getElem?]
  exact List.getLast?_eq_some_getLast batch.occupied

theorem first_frame_time (sequence : Nat) (batch : Batch) :
    frameTime (frameOf sequence batch).bytes 0 = Batch.firstTime batch := by
  have some := batch.length_pos
  refine frame_of_time sequence batch ?_
  rw [← List.head?_eq_getElem?]
  exact List.head?_eq_some_head batch.occupied

theorem reads_lastFrameTime (limit fuel position sequence time : Nat) :
    Reads (lastFrameTime limit fuel position sequence time) := by
  induction fuel generalizing position sequence time with
  | zero => exact reads_pure _
  | succ fuel ih =>
      exact reads_ite (reads_bind (reads_complete (reads_readFrame _ _ _ _)) fun _ => ih _ _ _)
        (reads_pure _)

theorem next64_eq {sequence : Nat} (small : sequence + 1 < 18446744073709551616) :
    next64 sequence = sequence + 1 := Nat.mod_eq_of_lt small

theorem last_frame_time {store : Store} {limit fuel position sequence time : Nat} {batches : List Batch}
    (held : Holds (store.content .database) position (frames sequence batches))
    (tiled : limit = position + framesSize batches) (enough : framesSize batches ≤ fuel)
    (bounded : sequence + batches.length ≤ 18446744073709551616) :
    on (lastFrameTime limit fuel position sequence time) store =
      (.ok (lastTimeOf batches time), store) := by
  induction batches generalizing fuel position sequence time with
  | nil =>
      cases fuel with
      | zero => rfl
      | succ fuel =>
          rw [lastFrameTime, if_neg (by simp [tiled])]
          rfl
  | cons batch rest ih =>
      have some := batch.size_ge
      rw [frames_size_cons] at tiled enough
      rw [List.length_cons] at bounded
      obtain ⟨fuel, rfl⟩ : ∃ k, fuel = k + 1 := ⟨fuel - 1, by omega⟩
      rw [frames_cons, holds_append, frame_length] at held
      have room : position + batch.size ≤ limit := by omega
      have read := complete_frame held.1 room (by omega)
      rw [lastFrameTime, if_pos (by omega), on_bind_ok read, frame_of_length, final_frame_time,
        last_time_cons]
      cases rest with
      | nil =>
          simp only [frames_size_nil, Nat.add_zero] at tiled
          cases fuel with
          | zero => rfl
          | succ fuel =>
              rw [lastFrameTime, if_neg (by omega)]
              rfl
      | cons next rest =>
          rw [List.length_cons] at bounded
          rw [next64_eq (by omega)]
          exact ih held.2 (by omega) (by omega) (by rw [List.length_cons]; omega)

end Times

section Checking
variable {store : Store} {root dataEnd : Nat} {segments : List Segment}

/-- The floor of the installed data that open settles on. -/
def statedTime (hasTime enabled : Bool) (time : Nat) (segments : List Segment) : Nat :=
  match segments.getLast? with
  | none => time
  | some segment =>
      if segment.ordered = true ∧ enabled = false then segment.maximum
      else if hasTime = false then lastTimeOf segment.batches time
      else time

-- What open demands of a manifest with a time over an ordered final segment.
def TimeAgrees (hasTime enabled : Bool) (time : Nat) (segments : List Segment) : Prop :=
  ∀ segment, segments.getLast? = some segment → segment.ordered = true → enabled = false →
    hasTime = true → time = segment.maximum

theorem stated_time_agrees {enabled : Bool} {time : Nat} {segments : List Segment}
    (agrees : TimeAgrees true enabled time segments) : statedTime true enabled time segments = time := by
  unfold statedTime
  cases shape : segments.getLast? with
  | none => rfl
  | some segment =>
      by_cases sorted : segment.ordered = true ∧ enabled = false
      · simp only [sorted, and_self, if_true]
        exact (agrees segment shape sorted.1 sorted.2 rfl).symm
      · simp [sorted]

theorem reads_checkSegments (generation dataEnd last tail lastTime : Nat) (hasTime : Bool)
    (state : RetentionState) :
    Reads (checkSegments generation dataEnd last tail lastTime hasTime state) := by
  refine reads_bind (reads_walkSegments _ _ _ _ _) fun walk => reads_bind (reads_require _ _) fun _ => ?_
  cases walk.segment with
  | none => exact reads_pure _
  | some segment =>
      exact reads_ite (reads_bind (reads_require _ _) fun _ => reads_pure _)
        (reads_ite (reads_bind (reads_lastFrameTime _ _ _ _ _) fun _ => reads_pure _) (reads_pure _))

theorem check_segments {state : RetentionState} {last tail lastTime : Nat} {hasTime : Bool}
    (chained : Chained store state.root dataEnd segments)
    (whole : dataEnd = state.root + extent segments)
    (sequenced : Sequenced state.enabled 0 segments)
    (bounded : lastSequence segments ≤ last)
    (full : state.enabled = true ∨ lastSequence segments = last)
    (tailed : hasTime = true → tail = linkTo state.root segments segments.length)
    (agrees : TimeAgrees hasTime state.enabled lastTime segments) :
    on (checkSegments segments.length dataEnd last tail lastTime hasTime state) store =
      (.ok ⟨linkTo state.root segments segments.length,
        statedTime hasTime state.enabled lastTime segments, spanStart segments, live segments⟩, store) := by
  rw [← List.nil_append segments] at chained sequenced
  obtain ⟨walk, ran, walked⟩ := walk_segments chained state.enabled sequenced (walked_start state.root)
  rw [List.nil_append] at walked
  rw [List.length_nil, Nat.zero_add] at ran
  have ends : walk.offset = dataEnd ∧ walk.sequence ≤ last ∧
      (state.enabled = true ∨ walk.sequence = last) ∧ (hasTime = true → tail = walk.previous) := by
    rw [walked.offset, walked.sequence, walked.previous]
    exact ⟨whole.symm, bounded, full, tailed⟩
  rw [checkSegments, on_bind_ok ran, on_require_bind, if_pos ends, walked.segment, walked.previous,
    walked.span, walked.live]
  rcases List.eq_nil_or_concat segments with none | ⟨front, segment, shape⟩
  · subst none
    rfl
  · rw [List.concat_eq_append] at shape
    subst shape
    have final : (front ++ [segment]).getLast? = some segment := by simp
    simp only [lastInfo, final, Option.map_some, statedTime]
    have length : (front ++ [segment]).length - 1 = front.length := by simp
    rw [length, info_at_ordered]
    by_cases sorted : segment.ordered = true ∧ state.enabled = false
    · rw [if_pos sorted, if_pos sorted, on_require_bind, info_at_maximum,
        if_pos (agrees segment final sorted.1 sorted.2)]
      rfl
    · rw [if_neg sorted, if_neg sorted]
      cases hasTime with
      | true => simp
      | false =>
          have offset : linkTo state.root (front ++ [segment]) (front ++ [segment]).length =
              state.root + extent front := by simp
          have limit : dataEnd = state.root + extent front + segment.headerSize +
              framesSize segment.batches := by
            simp only [whole, extent_append, extent_cons, extent_nil, Segment.size, Segment.body]
            omega
          simp only [if_true, offset, info_at_header, info_at_first]
          rw [on_bind_ok (last_frame_time chained.frames_held limit (by omega) segment.bounded)]
          rfl

end Checking

end Timelite.HeaderWalk
