import Timelite.Visibility

/-!
The cursor of an open handle has a logical position, a sequence number. The calls
move it as the source promises, and next returns the first live batch at or after
it, whatever checkpoints and expirations have moved in the files.
-/
namespace Timelite.Delivering
open ByteFile Program Durable Codec Backend BackendLaws Layout HeaderWalk WalLaws Contents Crashes Databases Calls
  Appending Checkpointing Retaining Cursor Expiring Seeking Ranging BatchApi Opening Creating Atomicity System Refinement
  Soundness Observing Interrupting
variable {host : Host} {identity : Bytes} {v v' : View} {act : Act}

/-- A handle that create or open has just returned. -/
def Started (host : Host) : Prop :=
  Created host ∨ ∃ before mode scratchSize, Reached before ∧
    Step before (.returned (.openPair mode scratchSize) (.ok .none)) host

/-- The live batch with the smallest sequence number at or after the position. -/
def Soonest (content : Content) (position : Nat) (item : Item) : Prop :=
  item ∈ listed content ∧ position ≤ item.1 ∧ ∀ other ∈ listed content, position ≤ other.1 → item.1 ≤ other.1

/-- Where a call leaves the cursor. -/
def moved (v : View) : Act → Except Error Answer → Nat
  | .next .., .ok (.batch sequence _) => sequence + 1
  | .nextRange .., .ok (.batch sequence _) => sequence + 1
  | .rewind, .ok _ => 1
  | .seek from_us _, .ok _ =>
      match sought v.content from_us with
      | some item => item.1
      | none => v.position
  | .seek .., .error .endOfData => v.content.high + 1
  | _, _ => v.position

/-- One call: the abstract database takes a step, the cursor moves by the rule, and next
returns the batch the cursor is due. -/
structure Ruled (v : View) (act : Act) (result : Except Error Answer) (v' : View) : Prop where
  answers : Answers act v result v'
  position : v'.position = moved v act result
  next : ∀ capacity scratchSize, act = .next capacity scratchSize → maxRecords ≤ capacity → batchScratch ≤ scratchSize →
    (∃ item, Soonest v.content v.position item ∧ result = .ok (.batch item.1 item.2)) ∨
      (∀ other ∈ listed v.content, other.1 < v.position) ∧ result = .error .endOfData

/-- The calls of a list, one after the other on the same handle. -/
def Courses (identity : Bytes) : Host → View → List Act → Prop
  | _, _, [] => True
  | host, v, act :: later => ∃ v', Ruled v act (host.call act).1 v' ∧ Holding (host.call act).2 identity v' ∧
      Courses identity (host.call act).2 v' later

theorem soonest_due {content : Content} {position : Nat} {item : Nat × Batch} {later : List (Nat × Batch)}
    (first : due content position = item :: later) : Soonest content position (shown item) := by
  have order := (exposed_increasing content).filter fun other => decide (position ≤ other.1)
  change (due content position).Pairwise _ at order
  rw [first, List.pairwise_cons] at order
  have member : item ∈ due content position := by
    rw [first]
    exact List.mem_cons_self
  have parts := List.mem_filter.mp member
  refine ⟨List.mem_map_of_mem parts.1, of_decide_eq_true parts.2, fun other inside late => ?_⟩
  obtain ⟨inner, exposed, rfl⟩ := List.mem_map.mp inside
  have ahead : inner ∈ due content position := List.mem_filter.mpr ⟨exposed, decide_eq_true late⟩
  rw [first] at ahead
  rcases List.mem_cons.mp ahead with same | after
  · rw [same]
  · exact Nat.le_of_lt (order.1 inner after)

theorem none_due {content : Content} {position : Nat} (none : due content position = []) :
    ∀ other ∈ listed content, other.1 < position := by
  intro other inside
  obtain ⟨inner, exposed, rfl⟩ := List.mem_map.mp inside
  have passed := List.filter_eq_nil_iff.mp none inner exposed
  rw [decide_eq_true_eq, not_le] at passed
  exact passed

theorem answers_moved {result : Except Error Answer} (answers : Answers act v result v') :
    v'.position = moved v act result := by
  cases answers with
  | seek from_us scratchSize v item large found => simp only [moved, found]
  | seekEnd from_us scratchSize v large none => rfl
  | appendRefused records scratchSize v error refused => rfl
  | rangeRefused range capacity scratchSize v error refused => rfl
  | aggregate range scratchSize v result exact => cases result <;> rfl
  | _ => rfl

theorem answers_ruled {result : Except Error Answer} (answers : Answers act v result v') : Ruled v act result v' where
  answers := answers
  position := answers_moved answers
  next := by
    rintro capacity scratchSize rfl room large
    cases answers with
    | nextSmall capacity scratchSize v small => omega
    | nextEnd capacity scratchSize v large none => exact .inr ⟨none_due none, rfl⟩
    | nextShort capacity scratchSize v sequence batch later large first short =>
        have few := batch.few
        omega
    | next capacity scratchSize v sequence batch later large first fits => exact .inl ⟨_, soonest_due first, rfl⟩

theorem holding_courses {acts : List Act} (holding : Holding host identity v) (open_ : ∀ act ∈ acts, act ≠ .close) :
    Courses identity host v acts := by
  induction acts generalizing host v with
  | nil => trivial
  | cons act later ih =>
      obtain ⟨v', answers, held⟩ := @holding_call host identity v act holding (open_ act List.mem_cons_self)
      exact ⟨v', answers_ruled answers, held, ih held fun act member => open_ act (List.mem_cons_of_mem _ member)⟩

theorem started_holding (started : Started host) : ∃ identity v, Holding host identity v ∧ v.position = 1 := by
  rcases started with created | ⟨before, mode, scratchSize, ⟨start, events, created, run⟩, step⟩
  · obtain ⟨identity, live⟩ := created_live created
    exact ⟨identity, ⟨.empty, createdManifests, 1⟩, ⟨live, honest_empty⟩, rfl⟩
  · obtain ⟨identity, sound⟩ := reachable_sound created run
    cases step with
    | returned execution =>
        have cases_ := @returned_cases Honest identity before ⟨_, _⟩ _ _ sound (fun _ honest => honest)
          (fun v honest _ content' effect => honest_effect honest effect) execution
        cases cases_ with
        | answered v v' holds holds' live answers live' => cases answers
        | closed close same unready => cases close
        | opened v mode scratchSize reopened unready holds start success live =>
            exact ⟨identity, v, ⟨live, holds⟩, start⟩
        | failed v code holds live refused same => cases refused
        | poisoned v code holds live refused unready safe => cases refused
        | refused error unready refusal same safe => cases refusal

/-- From open on, in any interleaving of the calls, every next returns the live batch with
the smallest sequence number at or after the position of the cursor. -/
theorem cursor_exact (started : Started host) : ∃ identity v, Holding host identity v ∧ v.position = 1 ∧
    ∀ acts, (∀ act ∈ acts, act ≠ .close) → Courses identity host v acts := by
  obtain ⟨identity, v, holding, start⟩ := started_holding started
  exact ⟨identity, v, holding, start, fun acts open_ => holding_courses holding open_⟩

theorem cursor_exact_fresh : ∃ identity v, Holding fresh identity v ∧ v.position = 1 ∧
    ∀ acts, (∀ act ∈ acts, act ≠ .close) → Courses identity fresh v acts :=
  cursor_exact (.inl fresh_created)

end Timelite.Delivering
