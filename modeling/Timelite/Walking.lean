import Timelite.Opaque

/-!
What the header walk of open has checked of any image that it passes: the
headers one after the other, their sequence numbers and links. The bodies stay
unread.
-/
namespace Timelite.Walking
open ByteFile Program Codec CodecLaws Backend BackendLaws Links HeaderWalk Reader Opaque

section Passing
variable {d : Bytes} {limit n : Nat} {enabled : Bool} {walk last : Walk} {infos : List SegmentInfo} {store : Store}

/-- The checks that one header passes. -/
structure Admits (d : Bytes) (limit : Nat) (enabled : Bool) (walk : Walk) (n : Nat) (info : SegmentInfo) : Prop where
  found : headerIn d walk.offset limit = .ok info
  more : walk.sequence ≠ uint64Max
  above : walk.sequence < info.first
  next : enabled = true ∨ info.first = walk.sequence + 1
  links : info.headerSize = 64 → info.previous = walk.previous ∧ info.skip = walk.offsets.getD (linkLevel n) 0

/-- The headers that a walk passes, and where it ends. -/
inductive Passed (d : Bytes) (limit : Nat) (enabled : Bool) : Walk → Nat → List SegmentInfo → Walk → Prop where
  | done (walk : Walk) (n : Nat) : Passed d limit enabled walk n [] walk
  | more {walk last : Walk} {n : Nat} {info : SegmentInfo} {infos : List SegmentInfo}
      (admits : Admits d limit enabled walk n info) (rest : Passed d limit enabled (walk.step n info) (n + 1) infos last) :
      Passed d limit enabled walk n (info :: infos) last

theorem passed_of_walk {remaining : Nat}
    (ran : (on (walkSegments limit enabled remaining n walk) store).1 = .ok last) :
    ∃ infos, infos.length = remaining ∧ Passed (store.content .database) limit enabled walk n infos last := by
  induction remaining generalizing n walk with
  | zero =>
      cases ran
      exact ⟨[], rfl, .done _ _⟩
  | succ remaining ih =>
      rw [walkSegments] at ran
      obtain ⟨info, read, ran⟩ := bind_ok (SegmentLaws.reads_readSegment _ _ _) ran
      obtain ⟨order, ran⟩ := require_ok ran
      obtain ⟨links, ran⟩ := require_ok ran
      obtain ⟨infos, length, rest⟩ := ih ran
      rw [read_header (agree_refl _ _ _)] at read
      refine ⟨info :: infos, by rw [List.length_cons, length], .more ⟨?_, order.1, order.2.1, order.2.2, links⟩ rest⟩
      exact congrArg Prod.fst read

/-- As many batches are live as sequence numbers have been passed, or fewer. -/
theorem passed_live (passed : Passed d limit enabled walk n infos last) :
    walk.sequence ≤ last.sequence ∧ last.live + walk.sequence ≤ walk.live + last.sequence := by
  induction passed with
  | done walk n => exact ⟨Nat.le_refl _, Nat.le_refl _⟩
  | @more walk last n info infos admits rest ih =>
      have order := (header_in admits.found).order
      have above := admits.above
      have sequence : (walk.step n info).sequence = info.last := rfl
      have live : (walk.step n info).live = walk.live + (info.last - info.first + 1) := rfl
      rw [sequence, live] at ih
      omega

theorem passed_span (passed : Passed d limit enabled walk n infos last) (low : 1 ≤ walk.spanStart)
    (high : walk.spanStart ≤ n) : 1 ≤ last.spanStart ∧ last.spanStart ≤ n + infos.length := by
  induction passed with
  | done walk n => exact ⟨low, high⟩
  | @more walk last n info infos admits rest ih =>
      have step : 1 ≤ (walk.step n info).spanStart ∧ (walk.step n info).spanStart ≤ n + 1 := by
        change 1 ≤ (if info.headerSize = 64 then if !info.ordered then n + 1
            else if info.minimum < walk.priorMax then n else walk.spanStart else n + 1) ∧
          (if info.headerSize = 64 then if !info.ordered then n + 1
            else if info.minimum < walk.priorMax then n else walk.spanStart else n + 1) ≤ n + 1
        split
        · split
          · omega
          · split <;> omega
        · omega
      obtain ⟨least, most⟩ := ih step.1 step.2
      rw [List.length_cons]
      exact ⟨least, by omega⟩

end Passing

section Checking
variable {store : Store} {generation dataEnd last tail lastTime : Nat} {hasTime : Bool} {state : RetentionState}
  {checked : Checked}

/-- What `check_segments` has established. -/
structure Surveyed (d : Bytes) (generation dataEnd last tail : Nat) (hasTime : Bool) (state : RetentionState)
    (infos : List SegmentInfo) (walk : Walk) (checked : Checked) : Prop where
  count : infos.length = generation
  passed : Passed d dataEnd state.enabled (startWalk state.root) 1 infos walk
  ends : walk.offset = dataEnd
  covered : walk.sequence ≤ last
  gapless : state.enabled = true ∨ walk.sequence = last
  tailed : hasTime = true → tail = walk.previous
  tail : checked.tail = walk.previous
  span : checked.spanStart = walk.spanStart
  live : checked.live = walk.live

theorem surveyed (ran : (on (checkSegments generation dataEnd last tail lastTime hasTime state) store).1 = .ok checked) :
    ∃ infos walk, Surveyed (store.content .database) generation dataEnd last tail hasTime state infos walk checked := by
  unfold checkSegments at ran
  obtain ⟨walk, walked, ran⟩ := bind_ok (reads_walkSegments _ _ _ _ _) ran
  obtain ⟨infos, count, passed⟩ := passed_of_walk (congrArg Prod.fst walked)
  obtain ⟨ends, ran⟩ := require_ok ran
  have fields : checked.tail = walk.previous ∧ checked.spanStart = walk.spanStart ∧ checked.live = walk.live := by
    cases final : walk.segment with
    | none =>
        rw [final] at ran
        cases ran
        exact ⟨rfl, rfl, rfl⟩
    | some segment =>
        rw [final] at ran
        simp only at ran
        by_cases sorted : segment.ordered = true ∧ state.enabled = false
        · rw [if_pos sorted] at ran
          obtain ⟨_, ran⟩ := require_ok ran
          cases ran
          exact ⟨rfl, rfl, rfl⟩
        · rw [if_neg sorted] at ran
          by_cases timeless : hasTime = false
          · rw [if_pos timeless] at ran
            obtain ⟨time, _, ran⟩ := bind_ok (reads_lastFrameTime _ _ _ _ _) ran
            cases ran
            exact ⟨rfl, rfl, rfl⟩
          · rw [if_neg timeless] at ran
            cases ran
            exact ⟨rfl, rfl, rfl⟩
  exact ⟨infos, walk, count, passed, ends.1, ends.2.1, ends.2.2.1, ends.2.2.2, fields.1, fields.2.1, fields.2.2⟩

end Checking

end Timelite.Walking
