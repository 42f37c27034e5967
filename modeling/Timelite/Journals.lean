import Timelite.Trials

/-!
What the entries of an accepted journal make of the ledger, and the states that the
oracle computes from it.
-/
namespace Timelite.Journals
open ByteFile Program Durable Codec BatchApi System Dumping Trials
variable {state next : Tally} {ledger : Ledger} {line : Command} {number : Option Nat} {journal : List Entry} {entry : Entry}

/-- What an operation that applies makes of a tally. -/
inductive Applied (state : Tally) : Command → Option Nat → Tally → Prop where
  | append {value : Nat} {number : Option Nat} (above : state.floor < value)
      (numbered : ∀ given, number = some given → given = state.high + 1) :
      Applied state ⟨.append, value⟩ number { state with
        high := state.high + 1
        floor := value
        pending := state.pending ++ [(state.high + 1, value)] }
  | bare {value : Nat} {number : Option Nat} (bare : state.pending = []) : Applied state ⟨.checkpoint, value⟩ number state
  | checkpoint {value : Nat} {number : Option Nat} (some : state.pending ≠ []) :
      Applied state ⟨.checkpoint, value⟩ number { state with
        segments := state.segments ++ [⟨state.pending, some⟩]
        pending := [] }
  | retain {value : Nat} {number : Option Nat} :
      Applied state ⟨.retain, value⟩ number { state with
        segments := state.segments.filter fun segment => decide (value ≤ newest segment.records) }

theorem apply_applied (applied : state.apply line number = .ok next) : Applied state line number next := by
  obtain ⟨op, value⟩ := line
  rw [Tally.apply] at applied
  cases valid : command ⟨op, value⟩ with
  | error complaint =>
      rw [valid] at applied
      cases applied
  | ok _ =>
      rw [valid] at applied
      simp only [bind, Except.bind] at applied
      cases op with
      | append =>
          simp only at applied
          by_cases low : value ≤ state.floor
          · rw [if_pos low] at applied
            cases applied
          · rw [if_neg low] at applied
            by_cases other : (number.any fun given => decide (given ≠ state.high + 1)) = true
            · rw [if_pos other] at applied
              cases applied
            · rw [if_neg other] at applied
              cases applied
              refine .append (Nat.lt_of_not_le low) fun given same => ?_
              subst same
              simpa using other
      | checkpoint =>
          simp only at applied
          by_cases some : state.pending ≠ []
          · rw [dif_pos some] at applied
            cases applied
            exact .checkpoint some
          · rw [dif_neg some] at applied
            cases applied
            exact .bare (not_not.mp some)
      | retain =>
          cases applied
          exact .retain

/-- What an entry that is accepted makes of the ledger. -/
inductive Noted (ledger : Ledger) : Entry → Ledger → Prop where
  | start : Noted ledger .start { ledger with started := true }
  | intent {line : Command} : Noted ledger (.intent line) { ledger with pending := some line }
  | ack {line : Command} {sequence : Nat} {state : Tally} (open_ : ledger.pending = some line)
      (applied : Applied ledger.state line (if line.op = .append then some sequence else none) state) :
      Noted ledger (.ack line sequence) { ledger with state, pending := none }
  | ended : Noted ledger .ended ledger
  | uncertain : Noted ledger .uncertain ledger

theorem note_noted {next : Ledger} (noted : ledger.note entry = .ok next) : Noted ledger entry next := by
  cases entry with
  | start =>
      rw [Ledger.note] at noted
      split at noted
      · cases noted
      · cases noted
        exact .start
  | intent line =>
      rw [Ledger.note] at noted
      split at noted
      · cases noted
      · cases valid : command line with
        | error complaint =>
            rw [valid] at noted
            cases noted
        | ok _ =>
            rw [valid] at noted
            cases noted
            exact .intent
  | ack line sequence =>
      rw [Ledger.note] at noted
      by_cases unpaired : ledger.pending ≠ some line
      · rw [if_pos unpaired] at noted
        cases noted
      · rw [if_neg unpaired] at noted
        split at noted
        · cases noted
        · cases applied : ledger.state.apply line (if line.op = .append then some sequence else none) with
          | error complaint =>
              rw [applied] at noted
              cases noted
          | ok state =>
              rw [applied] at noted
              cases noted
              exact .ack (not_not.mp unpaired) (apply_applied applied)
  | ended =>
      cases noted
      exact .ended
  | uncertain =>
      cases noted
      exact .uncertain
  | unknown => cases noted

theorem scan_snoc (journal : List Entry) (entry : Entry) : scan (journal ++ [entry]) = (scan journal).bind fun ledger => ledger.note entry := by
  simp only [scan, List.foldlM_append]
  cases List.foldlM Ledger.note ⟨.empty, none, false⟩ journal with
  | error complaint => rfl
  | ok ledger => exact bind_pure (ledger.note entry)

-- The induction over a journal that is accepted.
theorem scan_invariant {P : List Entry → Ledger → Prop} (start : P [] ⟨.empty, none, false⟩)
    (step : ∀ journal ledger entry next, P journal ledger → Noted ledger entry next → P (journal ++ [entry]) next)
    (scanned : scan journal = .ok ledger) : P journal ledger := by
  induction journal using List.reverseRecOn generalizing ledger with
  | nil =>
      cases scanned
      exact start
  | append_singleton journal entry ih =>
      rw [scan_snoc] at scanned
      cases before : scan journal with
      | error complaint =>
          rw [before] at scanned
          cases scanned
      | ok middle =>
          rw [before] at scanned
          exact step journal middle entry ledger (ih before) (note_noted scanned)

def Intended (journal : List Entry) (line : Command) : Prop := .intent line ∈ journal

/-- The states are the one that the ledger ends in and, behind an open operation, the next one. -/
theorem candidates_cases {states : List Tally} (computed : candidates journal = .ok states) :
    ∃ ledger, scan journal = .ok ledger ∧ (ledger.pending = none ∧ states = [ledger.state] ∨
      ∃ line after, ledger.pending = some line ∧ Applied ledger.state line none after ∧ states = [ledger.state, after]) := by
  rw [candidates] at computed
  cases scanned : scan journal with
  | error complaint =>
      rw [scanned] at computed
      cases computed
  | ok ledger =>
      refine ⟨ledger, rfl, ?_⟩
      rw [scanned] at computed
      simp only [bind, Except.bind] at computed
      split at computed
      · cases computed
      · cases open_ : ledger.pending with
        | none =>
            rw [open_] at computed
            cases computed
            exact .inl ⟨rfl, rfl⟩
        | some line =>
            rw [open_] at computed
            simp only at computed
            cases applied : ledger.state.apply line none with
            | error complaint =>
                rw [applied] at computed
                cases computed
            | ok after =>
                rw [applied] at computed
                cases computed
                exact .inr ⟨line, after, rfl, apply_applied applied, rfl⟩

end Timelite.Journals
