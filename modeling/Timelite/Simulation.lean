import Mathlib.Tactic

/-!
Labelled steps, the runs they make, and forward simulation: where every step of one
system is matched by a step of another with the same label, every run is matched by
a run with the same labels.
-/
namespace Simulation
variable {State Other Label : Type} {step : State → Label → State → Prop} {step' : Other → Label → Other → Prop}

/-- The labels of the steps from one state to another, in order. -/
inductive Runs (step : State → Label → State → Prop) : State → List Label → State → Prop where
  | start (state : State) : Runs step state [] state
  | step {first middle last : State} {labels : List Label} {label : Label} (before : Runs step first labels middle)
      (after : step middle label last) : Runs step first (labels ++ [label]) last

/-- What every step keeps, every run keeps; what every step tells where that holds, the
labels of every run tell. -/
theorem runs_keep {holds : State → Prop} {tells : Label → Prop} {first last : State} {labels : List Label}
    (runs : Runs step first labels last) (start : holds first)
    (keeps : ∀ state label next, holds state → step state label next → holds next ∧ tells label) :
    holds last ∧ ∀ label ∈ labels, tells label := by
  induction runs with
  | start => exact ⟨start, fun label none => by cases none⟩
  | step _ after ih =>
      obtain ⟨next, told⟩ := keeps _ _ _ ih.1 after
      refine ⟨next, fun label among => ?_⟩
      rcases List.mem_append.mp among with old | new
      · exact ih.2 label old
      · exact List.mem_singleton.mp new ▸ told

/-- The other system can follow every step. -/
def Simulates (step : State → Label → State → Prop) (step' : Other → Label → Other → Prop) (related : State → Other → Prop) : Prop :=
  ∀ state label next other, related state other → step state label next → ∃ next', step' other label next' ∧ related next next'

theorem runs_simulate {related : State → Other → Prop} (simulates : Simulates step step' related) {first last : State}
    {other : Other} {labels : List Label} (runs : Runs step first labels last) (start : related first other) :
    ∃ last', Runs step' other labels last' ∧ related last last' := by
  induction runs with
  | start => exact ⟨other, .start other, start⟩
  | step _ after ih =>
      obtain ⟨middle, before, here⟩ := ih
      obtain ⟨next, matched, there⟩ := simulates _ _ _ _ here after
      exact ⟨next, .step before matched, there⟩

end Simulation
