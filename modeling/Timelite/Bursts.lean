import Mathlib.Tactic

/-!
Reflected cyclic redundancy checks and error bursts. A string of bits is a number,
its first bit the lowest one. Feeding it to the register is to add it and to
shift it out, so that the register is linear in the string. The shift keeps every
nonzero register nonzero, which makes a burst that fits the register visible.
-/
namespace Bursts

section Register
variable (poly : Nat)

/-- One shift of the register. -/
def shift (r : Nat) : Nat := (r >>> 1) ^^^ (if r % 2 = 1 then poly else 0)

/-- The register after the first `count` bits of a string. -/
def feed (count r bits : Nat) : Nat := (shift poly)^[count] (r ^^^ bits)

variable {poly : Nat}

theorem shift_xor (a b : Nat) : shift poly (a ^^^ b) = shift poly a ^^^ shift poly b := by
  have swap : ∀ c d e : Nat, (c ^^^ d) ^^^ e = (c ^^^ e) ^^^ d := fun c d e => by
    rw [Nat.xor_assoc, Nat.xor_comm d e, ← Nat.xor_assoc]
  simp only [shift, Nat.shiftRight_xor_distrib, Nat.xor_mod_two_eq_one]
  by_cases left : a % 2 = 1
  · by_cases right : b % 2 = 1
    · have cancel : ((a >>> 1) ^^^ poly) ^^^ ((b >>> 1) ^^^ poly) = (a >>> 1) ^^^ (b >>> 1) := by
        rw [← Nat.xor_assoc, swap (a >>> 1) poly (b >>> 1), Nat.xor_assoc, Nat.xor_self, Nat.xor_zero]
      simp [left, right, cancel]
    · simpa [left, right] using swap (a >>> 1) (b >>> 1) poly
  · by_cases right : b % 2 = 1
    · simp [left, right, Nat.xor_assoc]
    · simp [left, right]

theorem iterate_xor (count a b : Nat) :
    (shift poly)^[count] (a ^^^ b) = (shift poly)^[count] a ^^^ (shift poly)^[count] b := by
  induction count generalizing a b with
  | zero => rfl
  | succ count ih => rw [Function.iterate_succ_apply, shift_xor, ih, ← Function.iterate_succ_apply, ← Function.iterate_succ_apply]

@[simp] theorem shift_double (a : Nat) : shift poly (2 * a) = a := by
  have even : ¬ 2 * a % 2 = 1 := by omega
  rw [shift, if_neg even, Nat.xor_zero, Nat.shiftRight_one]
  omega

-- What is above the low bits only moves down.
theorem iterate_high (count a : Nat) : (shift poly)^[count] (2 ^ count * a) = a := by
  induction count with
  | zero => simp
  | succ count ih =>
      have halves : 2 ^ (count + 1) * a = 2 * (2 ^ count * a) := by ring
      rw [halves, Function.iterate_succ_apply, shift_double, ih]

/-- A string may be fed in two pieces. -/
theorem feed_append {low : Nat} {m : Nat} (small : low < 2 ^ m) (n r high : Nat) :
    feed poly (m + n) r (low + 2 ^ m * high) = feed poly n (feed poly m r low) high := by
  have pieces : low + 2 ^ m * high = low ^^^ (2 ^ m * high) := by
    apply Nat.eq_of_testBit_eq
    intro i
    rw [Nat.add_comm, Nat.testBit_two_pow_mul_add high small, Nat.testBit_xor, Nat.testBit_two_pow_mul]
    by_cases below : i < m
    · have apart : ¬ i ≥ m := by omega
      simp [below, apart]
    · have large : low.testBit i = false :=
        Nat.testBit_lt_two_pow (Nat.lt_of_lt_of_le small (Nat.pow_le_pow_right (by omega) (by omega)))
      have above : i ≥ m := by omega
      simp [below, large, above]
  rw [feed, feed, feed, pieces, ← Nat.xor_assoc, Nat.add_comm m n, Function.iterate_add_apply, iterate_xor m, iterate_high]

/-- The difference of two registers is that of the strings, shifted out. -/
theorem feed_difference (count r a error : Nat) :
    feed poly count r (a ^^^ error) = feed poly count r a ^^^ (shift poly)^[count] error := by
  rw [feed, feed, ← Nat.xor_assoc, iterate_xor]

end Register

section Nonzero
variable {poly width : Nat}

/-- The generator has the full width. -/
structure Full (poly width : Nat) : Prop where
  small : poly < 2 ^ width
  top : poly.testBit (width - 1) = true

theorem Full.shift_lt (full : Full poly width) {r : Nat} (small : r < 2 ^ width) : shift poly r < 2 ^ width := by
  have half : r >>> 1 < 2 ^ width := by
    rw [Nat.shiftRight_one]
    omega
  rw [shift]
  split
  · exact Nat.xor_lt_two_pow half full.small
  · rw [Nat.xor_zero]
    exact half

theorem Full.shift_pos (full : Full poly width) {r : Nat} (small : r < 2 ^ width) (some : r ≠ 0) :
    shift poly r ≠ 0 := by
  rw [shift]
  by_cases odd : r % 2 = 1
  · rw [if_pos odd]
    -- The top bit of the half is clear and that of the generator is set.
    intro zero
    have bit := congrArg (Nat.testBit · (width - 1)) zero
    simp only [Nat.testBit_xor, full.top, Nat.zero_testBit, Nat.testBit_shiftRight] at bit
    have beyond : r.testBit (1 + (width - 1)) = false :=
      Nat.testBit_lt_two_pow (Nat.lt_of_lt_of_le small (Nat.pow_le_pow_right (by omega) (by omega)))
    rw [beyond] at bit
    cases bit
  · rw [if_neg odd, Nat.xor_zero, Nat.shiftRight_one]
    omega

theorem Full.iterate_pos (full : Full poly width) {r : Nat} (small : r < 2 ^ width) (some : r ≠ 0) (count : Nat) :
    (shift poly)^[count] r ≠ 0 := by
  induction count generalizing r with
  | zero => exact some
  | succ count ih =>
      rw [Function.iterate_succ_apply]
      exact ih (full.shift_lt small) (full.shift_pos small some)

end Nonzero

section Errors
variable {poly width error : Nat}

/-- A nonzero error within `width` consecutive bits. -/
structure Burst (width error : Nat) : Prop where
  some : error ≠ 0
  inside : ∃ start, ∀ i, error.testBit i = true → start ≤ i ∧ i < start + width

theorem Burst.shape (burst : Burst width error) : ∃ start piece, error = 2 ^ start * piece ∧ piece ≠ 0 ∧ piece < 2 ^ width := by
  obtain ⟨start, inside⟩ := burst.inside
  have split : error = 2 ^ start * (error / 2 ^ start) := by
    apply Nat.eq_of_testBit_eq
    intro i
    rw [Nat.testBit_two_pow_mul, Nat.testBit_div_two_pow]
    by_cases above : i ≥ start
    · simp [above]
    · have clear : error.testBit i = false := by
        by_contra set
        exact above (inside i (by simpa using set)).1
      simp [above, clear]
  refine ⟨start, error / 2 ^ start, split, fun zero => burst.some (by rw [split, zero, Nat.mul_zero]), ?_⟩
  apply Nat.lt_pow_two_of_testBit
  intro i above
  rw [Nat.testBit_div_two_pow]
  by_contra set
  have bound := (inside _ (by simpa using set)).2
  omega

-- A piece of a burst is a burst or nothing.
theorem Burst.low (burst : Burst width error) (count : Nat) (some : error % 2 ^ count ≠ 0) :
    Burst width (error % 2 ^ count) := by
  obtain ⟨start, inside⟩ := burst.inside
  refine ⟨some, start, fun i set => inside i ?_⟩
  rw [Nat.testBit_mod_two_pow, Bool.and_eq_true] at set
  exact set.2

theorem Burst.high (burst : Burst width error) (count : Nat) (some : error / 2 ^ count ≠ 0) :
    Burst width (error / 2 ^ count) := by
  obtain ⟨start, inside⟩ := burst.inside
  refine ⟨some, start - count, fun i set => ?_⟩
  rw [Nat.testBit_div_two_pow] at set
  have bounds := inside _ set
  -- Bits below the cut move the start no further than to 0.
  by_cases cut : start ≤ count
  · have zero : start - count = 0 := by omega
    omega
  · omega

/-- No burst of the register's width leaves the register as it was. -/
theorem burst_changes (full : Full poly width) (burst : Burst width error) {count : Nat} (inside : error < 2 ^ count)
    (r a : Nat) : feed poly count r (a ^^^ error) ≠ feed poly count r a := by
  obtain ⟨start, piece, rfl, some, small⟩ := burst.shape
  have early : start ≤ count := by
    by_contra late
    have grown : 2 ^ count ≤ 2 ^ start := Nat.pow_le_pow_right (by omega) (by omega)
    have more : 2 ^ start ≤ 2 ^ start * piece := Nat.le_mul_of_pos_right _ (Nat.pos_of_ne_zero some)
    omega
  have out : (shift poly)^[count] (2 ^ start * piece) = (shift poly)^[count - start] piece := by
    have sum : count = (count - start) + start := by omega
    rw [sum, Function.iterate_add_apply, iterate_high, Nat.add_sub_cancel]
  rw [feed_difference, out]
  intro same
  refine full.iterate_pos small some (count - start) ?_
  have cancelled := congrArg (feed poly count r a ^^^ ·) same
  simpa [← Nat.xor_assoc] using cancelled

end Errors

end Bursts
