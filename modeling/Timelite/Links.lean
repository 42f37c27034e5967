import Timelite.Layout

/-!
The arithmetic of the backward links. Ordinal n links to n - lowBit n, and the
table kept while walking or copying holds, for each bit, the last offset at a
multiple of 2^bit.
-/
namespace Timelite.Links
open Codec Reader Layout

section LowBit

-- Below bit `b` the predecessor has ones, at `b` a zero, above it the same bits.
theorem low_bit_odd {b k : Nat} (small : 2 ^ b * (2 * k + 1) < 18446744073709551616) :
    lowBit (2 ^ b * (2 * k + 1)) = 2 ^ b := by
  have pos := Nat.two_pow_pos b
  have step : 2 ^ b * (2 * k + 1) = 2 ^ b * (2 * k) + 2 ^ b := by ring
  have before : 2 ^ b * (2 * k + 1) = (2 ^ b * (2 * k) + (2 ^ b - 1)) + 1 := by omega
  have inverse : (18446744073709551616 - 2 ^ b * (2 * k + 1)) % 18446744073709551616 =
      2 ^ 64 - ((2 ^ b * (2 * k) + (2 ^ b - 1)) + 1) := by
    rw [Nat.mod_eq_of_lt (by omega), before]
    norm_num
  apply Nat.eq_of_testBit_eq
  intro i
  rw [lowBit, inverse, Nat.testBit_and, Nat.testBit_two_pow_sub_succ (by omega),
    Nat.testBit_two_pow_mul_add _ (by omega), Nat.testBit_two_pow_mul, Nat.testBit_two_pow]
  by_cases below : i < b
  · have apart : ¬ b ≤ i := by omega
    have other : b ≠ i := by omega
    simp [apart, other]
  · by_cases same : i = b
    · subst same
      have wide : i < 64 := by
        by_contra big
        have grown : 2 ^ 64 ≤ 2 ^ i := Nat.pow_le_pow_right (by omega) (by omega)
        have : 2 ^ i ≤ 2 ^ i * (2 * k + 1) := Nat.le_mul_of_pos_right _ (by omega)
        omega
      have even : (2 * k).testBit 0 = false := by simp
      have odd : (2 * k + 1).testBit 0 = true := by simp
      simp [wide, even, odd]
    · have other : b ≠ i := by omega
      obtain ⟨d, rfl⟩ : ∃ d, i = b + (d + 1) := ⟨i - b - 1, by omega⟩
      have shift : b + (d + 1) - b = d + 1 := by omega
      have upper : (2 * k + 1).testBit (d + 1) = (2 * k).testBit (d + 1) := by
        rw [Nat.testBit_succ, Nat.testBit_succ]
        congr 1
        omega
      rw [shift, upper]
      simp only [below, if_false]
      cases (2 * k).testBit (d + 1) <;> simp

theorem level_odd {b k : Nat} (small : 2 ^ b * (2 * k + 1) < 18446744073709551616) :
    linkLevel (2 ^ b * (2 * k + 1)) = b := by
  have wide : b < 64 := by
    by_contra big
    have grown : 2 ^ 64 ≤ 2 ^ b := Nat.pow_le_pow_right (by omega) (by omega)
    have : 2 ^ b ≤ 2 ^ b * (2 * k + 1) := Nat.le_mul_of_pos_right _ (by omega)
    omega
  have found : (List.range 64).find? (fun bit => 1 <<< bit == lowBit (2 ^ b * (2 * k + 1))) = some b := by
    rw [low_bit_odd small, List.find?_range_eq_some]
    refine ⟨by simp [Nat.one_shiftLeft], by simpa using wide, fun j below => ?_⟩
    have less : 2 ^ j < 2 ^ b := Nat.pow_lt_pow_right (by omega) below
    simp only [Nat.one_shiftLeft, Bool.not_eq_true', beq_eq_false_iff_ne]
    omega
  rw [linkLevel, found]
  rfl

/-- What the links need from the lowest bit of an ordinal. -/
theorem level_spec {n : Nat} (some : n ≠ 0) (small : n < 18446744073709551616) :
    ∃ k, n = 2 ^ linkLevel n * (2 * k + 1) ∧ lowBit n = 2 ^ linkLevel n := by
  obtain ⟨b, m, ⟨k, odd⟩, split⟩ := Nat.exists_eq_two_pow_mul_odd some
  rw [odd] at split
  subst split
  rw [level_odd small, low_bit_odd small]
  exact ⟨k, rfl, rfl⟩

theorem low_bit_pos {n : Nat} (some : n ≠ 0) (small : n < 18446744073709551616) : 0 < lowBit n := by
  obtain ⟨k, _, low⟩ := level_spec some small
  rw [low]
  exact Nat.two_pow_pos _

theorem low_bit_le {n : Nat} (some : n ≠ 0) (small : n < 18446744073709551616) : lowBit n ≤ n := by
  obtain ⟨k, split, low⟩ := level_spec some small
  have grown : 2 ^ linkLevel n ≤ 2 ^ linkLevel n * (2 * k + 1) := Nat.le_mul_of_pos_right _ (by omega)
  rw [← split] at grown
  omega

theorem level_lt {n : Nat} (some : n ≠ 0) (small : n < 16777216) : linkLevel n < 24 := by
  have low := low_bit_le some (by omega)
  obtain ⟨_, _, power⟩ := level_spec some (by omega : n < 18446744073709551616)
  by_contra big
  have grown : 2 ^ 24 ≤ 2 ^ linkLevel n := Nat.pow_le_pow_right (by omega) (by omega)
  omega

end LowBit

section Multiples

-- The multiple of 2^j at or below n.
def floorTo (n j : Nat) : Nat := n / 2 ^ j * 2 ^ j

theorem floor_low {n j : Nat} (some : n ≠ 0) (small : n < 18446744073709551616)
    (low : j ≤ linkLevel n) : floorTo n j = n := by
  obtain ⟨k, split, _⟩ := level_spec some small
  apply Nat.div_mul_cancel
  rw [split]
  exact Dvd.dvd.mul_right (Nat.pow_dvd_pow 2 low) _

theorem floor_high {m j : Nat} (small : m + 1 < 18446744073709551616)
    (high : linkLevel (m + 1) < j) : floorTo (m + 1) j = floorTo m j := by
  obtain ⟨k, split, _⟩ := level_spec (Nat.add_one_ne_zero m) small
  have pos := Nat.two_pow_pos j
  have odd : ¬ 2 ^ j ∣ m + 1 := by
    intro divides
    rw [split] at divides
    have more := dvd_trans (Nat.pow_dvd_pow 2 (Nat.succ_le_of_lt high)) divides
    rw [Nat.succ_eq_add_one, Nat.pow_succ] at more
    have two := Nat.dvd_of_mul_dvd_mul_left (Nat.two_pow_pos _) more
    omega
  unfold floorTo
  rw [Nat.succ_div, if_neg odd, Nat.add_zero]

theorem floor_level {m : Nat} (small : m + 1 < 18446744073709551616) :
    floorTo m (linkLevel (m + 1)) = m + 1 - lowBit (m + 1) := by
  obtain ⟨k, split, low⟩ := level_spec (Nat.add_one_ne_zero m) small
  have pos := Nat.two_pow_pos (linkLevel (m + 1))
  generalize linkLevel (m + 1) = b at *
  rw [low]
  have shape : m = 2 ^ b * (2 * k) + (2 ^ b - 1) := by
    have : 2 ^ b * (2 * k + 1) = 2 ^ b * (2 * k) + 2 ^ b := by ring
    omega
  have quotient : m / 2 ^ b = 2 * k := by
    rw [shape, Nat.mul_add_div pos, Nat.div_eq_of_lt (by omega), Nat.add_zero]
  unfold floorTo
  rw [quotient, Nat.mul_comm]
  omega

theorem floor_le (n j : Nat) : floorTo n j ≤ n := Nat.div_mul_le_self n _

end Multiples

section Table

/-- The link table after the segments `done`. -/
def Levels (root : Nat) (done : List Segment) (offsets : List Nat) : Prop :=
  offsets.length = 24 ∧ ∀ j, j < 24 → offsets.getD j 0 = linkTo root done (floorTo done.length j)

theorem levels_start (root : Nat) : Levels root [] (List.replicate 24 0) := by
  refine ⟨rfl, fun j small => ?_⟩
  rw [List.getD_eq_getElem?_getD, List.getElem?_replicate, if_pos small]
  simp [floorTo]

theorem levels_skip {root : Nat} {done : List Segment} {offsets : List Nat}
    (levels : Levels root done offsets) (small : done.length + 1 < 16777216) :
    offsets.getD (linkLevel (done.length + 1)) 0 =
      linkTo root done (done.length + 1 - lowBit (done.length + 1)) := by
  rw [levels.2 _ (level_lt (Nat.add_one_ne_zero _) small), floor_level (by omega)]

theorem mark_levels_get (offsets : List Nat) (bit offset j : Nat) :
    (markLevels offsets bit offset).getD j 0 = if j ≤ bit then offset else offsets.getD j 0 := by
  simp only [markLevels, List.getD_eq_getElem?_getD]
  by_cases low : j ≤ bit
  · rw [if_pos low, List.getElem?_append_left (by simp; omega), List.getElem?_replicate,
      if_pos (by omega), Option.getD_some]
  · rw [if_neg low, List.getElem?_append_right (by simp; omega), List.getElem?_drop]
    congr 2
    simp only [List.length_replicate]
    omega

theorem levels_mark {root : Nat} {done : List Segment} {offsets : List Nat}
    (levels : Levels root done offsets) (segment : Segment) (small : done.length + 1 < 16777216) :
    Levels root (done ++ [segment])
      (markLevels offsets (linkLevel (done.length + 1)) (root + extent done)) := by
  have bound := level_lt (Nat.add_one_ne_zero done.length) small
  constructor
  · have length := levels.1
    simp only [markLevels, List.length_append, List.length_replicate, List.length_drop]
    omega
  · intro j near
    rw [mark_levels_get, List.length_append, List.length_singleton]
    split
    · rename_i low
      rw [floor_low (Nat.add_one_ne_zero _) (by omega) low, link_succ]
      simp
    · rename_i high
      rw [floor_high (by omega) (by omega), levels.2 j near,
        link_append _ _ _ (by have := floor_le done.length j; omega)]

end Table

end Timelite.Links
