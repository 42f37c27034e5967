import Mathlib.Data.List.Chain
import Mathlib.Tactic

/-!
Running extremes and order of a list of numbers: least, greatest, first, last,
and whether the list never decreases, each with its rule for one more element.
The empty list has extremes 0.
-/
namespace Spans

def leastOf : List Nat → Nat
  | [] => 0
  | value :: rest => rest.foldl min value

def greatestOf : List Nat → Nat
  | [] => 0
  | value :: rest => rest.foldl max value

def firstOf (values : List Nat) : Nat := values.head?.getD 0

def finalOf (values : List Nat) : Nat := values.getLast?.getD 0

def rising (values : List Nat) : Bool := decide (values.IsChain (· ≤ ·))

variable {values : List Nat}

@[simp] theorem least_nil : leastOf [] = 0 := rfl
@[simp] theorem greatest_nil : greatestOf [] = 0 := rfl
@[simp] theorem first_nil : firstOf [] = 0 := rfl
@[simp] theorem final_nil : finalOf [] = 0 := rfl
@[simp] theorem rising_nil : rising [] = true := by simp [rising]

theorem least_snoc (values : List Nat) (value : Nat) :
    leastOf (values ++ [value]) = if values = [] then value else min (leastOf values) value := by
  cases values with
  | nil => rfl
  | cons head rest => simp [leastOf]

theorem greatest_snoc (values : List Nat) (value : Nat) :
    greatestOf (values ++ [value]) = if values = [] then value else max (greatestOf values) value := by
  cases values with
  | nil => rfl
  | cons head rest => simp [greatestOf]

theorem least_append (left right : List Nat) (some : right ≠ []) :
    leastOf (left ++ right) = if left = [] then leastOf right else min (leastOf left) (leastOf right) := by
  induction right using List.reverseRecOn with
  | nil => exact absurd rfl some
  | append_singleton front value ih =>
      rw [← List.append_assoc, least_snoc, least_snoc]
      by_cases empty : front = []
      · subst empty
        simp
      · rw [ih empty]
        by_cases none : left = []
        · simp [none, empty]
        · simp [none, empty, Nat.min_assoc]

theorem greatest_append (left right : List Nat) (some : right ≠ []) :
    greatestOf (left ++ right) =
      if left = [] then greatestOf right else max (greatestOf left) (greatestOf right) := by
  induction right using List.reverseRecOn with
  | nil => exact absurd rfl some
  | append_singleton front value ih =>
      rw [← List.append_assoc, greatest_snoc, greatest_snoc]
      by_cases empty : front = []
      · subst empty
        simp
      · rw [ih empty]
        by_cases none : left = []
        · simp [none, empty]
        · simp [none, empty, Nat.max_assoc]

theorem first_append (left right : List Nat) :
    firstOf (left ++ right) = if left = [] then firstOf right else firstOf left := by
  cases left with
  | nil => simp
  | cons head rest => simp [firstOf]

@[simp] theorem final_snoc (values : List Nat) (value : Nat) : finalOf (values ++ [value]) = value := by
  simp [finalOf]

theorem final_append (left right : List Nat) :
    finalOf (left ++ right) = if right = [] then finalOf left else finalOf right := by
  rcases List.eq_nil_or_concat right with none | ⟨front, value, shape⟩
  · simp [none]
  · rw [List.concat_eq_append] at shape
    subst shape
    rw [if_neg (by simp), ← List.append_assoc, final_snoc, final_snoc]

theorem rising_iff : rising values = true ↔ values.Pairwise (· ≤ ·) := by
  rw [rising, decide_eq_true_eq, List.isChain_iff_pairwise]

theorem rising_append (left right : List Nat) :
    rising (left ++ right) = (rising left && rising right &&
      (left.isEmpty || right.isEmpty || decide (finalOf left ≤ firstOf right))) := by
  rw [Bool.eq_iff_iff]
  simp only [rising, decide_eq_true_eq, Bool.and_eq_true, Bool.or_eq_true, List.isEmpty_iff]
  rw [List.isChain_append, and_assoc]
  refine and_congr_right fun _ => and_congr_right fun _ => ?_
  rcases List.eq_nil_or_concat left with none | ⟨front, value, shape⟩
  · simp [none]
  · rw [List.concat_eq_append] at shape
    subst shape
    cases right with
    | nil => simp
    | cons head rest => simp [firstOf]

theorem rising_snoc (values : List Nat) (value : Nat) :
    rising (values ++ [value]) = (rising values && (values.isEmpty || decide (finalOf values ≤ value))) := by
  have single : rising [value] = true := by simp [rising]
  have head : firstOf [value] = value := rfl
  rw [rising_append, single, head]
  simp

theorem least_spec (some : values ≠ []) :
    leastOf values ∈ values ∧ ∀ value ∈ values, leastOf values ≤ value := by
  cases values with
  | nil => exact absurd rfl some
  | cons head rest =>
      have found : (head :: rest).min? = .some (leastOf (head :: rest)) := List.min?_cons'
      exact List.min?_eq_some_iff.mp found

theorem greatest_spec (some : values ≠ []) :
    greatestOf values ∈ values ∧ ∀ value ∈ values, value ≤ greatestOf values := by
  cases values with
  | nil => exact absurd rfl some
  | cons head rest =>
      have found : (head :: rest).max? = .some (greatestOf (head :: rest)) := List.max?_cons'
      exact List.max?_eq_some_iff.mp found

theorem least_le_greatest (values : List Nat) : leastOf values ≤ greatestOf values := by
  cases values with
  | nil => exact Nat.le_refl 0
  | cons head rest => exact (greatest_spec (by simp)).2 _ (least_spec (by simp)).1

theorem final_mem (some : values ≠ []) : finalOf values ∈ values := by
  rw [finalOf, List.getLast?_eq_some_getLast some]
  exact List.getLast_mem some

theorem first_mem (some : values ≠ []) : firstOf values ∈ values := by
  rw [firstOf, List.head?_eq_some_head some]
  exact List.head_mem some

-- A rising list has its extremes at its ends.
theorem rising_le_final (sorted : rising values = true) {value : Nat} (member : value ∈ values) :
    value ≤ finalOf values := by
  rcases List.eq_nil_or_concat values with none | ⟨front, final, shape⟩
  · rw [none] at member
    cases member
  · rw [List.concat_eq_append] at shape
    subst shape
    have pairs := List.pairwise_append.mp (rising_iff.mp sorted)
    rw [final_snoc]
    rcases List.mem_append.mp member with inside | last
    · exact pairs.2.2 value inside final (by simp)
    · simp only [List.mem_singleton] at last
      omega

theorem rising_first_le (sorted : rising values = true) {value : Nat} (member : value ∈ values) :
    firstOf values ≤ value := by
  cases values with
  | nil => cases member
  | cons head rest =>
      have pairs := List.pairwise_cons.mp (rising_iff.mp sorted)
      rcases List.mem_cons.mp member with same | inside
      · simp [firstOf, same]
      · exact pairs.1 value inside

theorem rising_greatest (sorted : rising values = true) : greatestOf values = finalOf values := by
  by_cases none : values = []
  · simp [none]
  · have greatest := greatest_spec none
    have upper := rising_le_final sorted greatest.1
    have lower := greatest.2 _ (final_mem none)
    omega

theorem rising_least (sorted : rising values = true) : leastOf values = firstOf values := by
  by_cases none : values = []
  · simp [none]
  · have least := least_spec none
    have upper := rising_first_le sorted least.1
    have lower := least.2 _ (first_mem none)
    omega

end Spans
