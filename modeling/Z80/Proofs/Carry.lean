import Mathlib.Algebra.Group.Nat.Defs
import Z80.Arithmetic.Accumulator
import Z80.Arithmetic.Pair

/-!
# Carries and borrows

A sum together with its carry, and a difference together with its borrow, are exact: nothing of the
operands is lost. So a sum of words can be made in two steps, the low bytes first and then the high
bytes with the carry between them. All flags of the sixteen-bit operations but zero are those of the
second step.

## Main definitions

* `Arithmetic.inTwoSteps`: a word made by an operation on bytes, low byte first
* `Arithmetic.Fits`: a number that two's complement can hold

## Main results

* `Arithmetic.toNat_sum`, `Arithmetic.toNat_difference`: sums and differences are exact
* `Arithmetic.sumOverflows_iff`, `Arithmetic.differenceOverflows_iff`: signed overflow of a byte
* `Arithmetic.pairs_in_two_steps`: the sixteen-bit operations are the eight-bit ones, twice
-/

namespace Z80.Arithmetic

/-! ### Exact sums and differences -/

section Exact

variable {width : Nat} (left right : BitVec width) (carry : Bool)

/-- A sum and its carry hold all of the operands. -/
theorem toNat_sum :
    (sum left right carry).toNat + 2 ^ width * (carries width left right carry).toNat =
      left.toNat + right.toNat + carry.toNat := by
  have leftBound := left.isLt
  have rightBound := right.isLt
  have carryBound := carry.toNat_le
  have wrapped : (sum left right carry).toNat =
      (left.toNat + right.toNat + carry.toNat) % 2 ^ width := by
    simp [sum, BitVec.toNat_add]
  have carried : carries width left right carry =
      decide (2 ^ width ≤ left.toNat + right.toNat + carry.toNat) := by
    simp [carries, BitVec.carry, Nat.mod_eq_of_lt leftBound, Nat.mod_eq_of_lt rightBound]
  rw [wrapped, carried]
  -- Two numbers that fit and a carry go round at most once.
  by_cases reached : 2 ^ width ≤ left.toNat + right.toNat + carry.toNat
  · rw [Nat.mod_eq_sub_mod reached, Nat.mod_eq_of_lt (by omega)]
    simp only [reached, decide_true, Bool.toNat_true]
    omega
  · rw [Nat.mod_eq_of_lt (by omega)]
    simp [reached]

/-- A difference is what gives back the minuend when the subtrahend and the borrow are added. -/
theorem sum_difference : sum (difference left right carry) right carry = left := by
  rw [sum, difference, BitVec.sub_sub, BitVec.add_assoc]
  exact BitVec.sub_add_cancel ..

/-- The addition that gives back the minuend carries where the subtraction borrowed. -/
theorem carries_difference :
    carries width (difference left right carry) right carry = borrows width left right carry := by
  have exact := toNat_sum (difference left right carry) right carry
  have bound := (difference left right carry).isLt
  rw [sum_difference] at exact
  rw [borrows, BitVec.setWidth_eq, BitVec.setWidth_eq]
  cases carried : carries width (difference left right carry) right carry with
  | false =>
    simp only [carried, Bool.toNat_false] at exact
    exact (decide_eq_false (by omega)).symm
  | true =>
    simp only [carried, Bool.toNat_true] at exact
    exact (decide_eq_true (by omega)).symm

/-- A difference and its borrow hold all of the operands. -/
theorem toNat_difference :
    (difference left right carry).toNat + right.toNat + carry.toNat =
      left.toNat + 2 ^ width * (borrows width left right carry).toNat := by
  rw [← carries_difference, ← toNat_sum, sum_difference]

end Exact

/-! ### Signed overflow -/

/-- Two's complement can hold the value if it has `size` numbers in all. -/
def Fits (size value : Int) : Prop := -size ≤ 2 * value ∧ 2 * value < size

instance (size value : Int) : Decidable (Fits size value) := inferInstanceAs (Decidable (_ ∧ _))

section Signed

variable (left right : Byte) (carry : Bool)

/-- The signed numbers that a byte holds. -/
theorem signed_range (byte : Byte) : -128 ≤ byte.toInt ∧ byte.toInt < 128 :=
  ⟨byte.le_toInt, byte.toInt_lt⟩

/-- A sum wraps as a signed number. -/
theorem toInt_sum :
    (sum left right carry).toInt = (left.toInt + right.toInt + carry.toNat).bmod 256 := by
  cases carry <;> simp [sum, BitVec.toInt_add]

/-- A difference wraps as a signed number. -/
theorem toInt_difference :
    (difference left right carry).toInt = (left.toInt - right.toInt - carry.toNat).bmod 256 := by
  cases carry <;> simp [difference, BitVec.toInt_sub]

/-- A sum of bytes overflows exactly if a signed byte cannot hold the sum. -/
theorem sumOverflows_iff :
    sumOverflows left right carry = true ↔ ¬ Fits 256 (left.toInt + right.toInt + carry.toNat) := by
  have leftRange := signed_range left
  have rightRange := signed_range right
  have once := carry.toNat_le
  have wraps := toInt_sum left right carry
  simp only [sumOverflows, Fits, BitVec.msb_eq_toInt, Bool.and_eq_true, beq_iff_eq, bne_iff_ne,
    ne_eq, decide_eq_decide]
  rw [Int.bmod_def] at wraps
  split at wraps <;> omega

/-- A difference of bytes overflows exactly if a signed byte cannot hold the difference. -/
theorem differenceOverflows_iff :
    differenceOverflows left right carry = true ↔
      ¬ Fits 256 (left.toInt - right.toInt - carry.toNat) := by
  have leftRange := signed_range left
  have rightRange := signed_range right
  have once := carry.toNat_le
  have wraps := toInt_difference left right carry
  simp only [differenceOverflows, Fits, BitVec.msb_eq_toInt, Bool.and_eq_true, bne_iff_ne, ne_eq,
    decide_eq_decide]
  rw [Int.bmod_def] at wraps
  split at wraps <;> omega

/-- The sign of a difference is wrong exactly on overflow, so the two tell which number is less. -/
theorem msb_difference_ne_overflows_iff :
    (difference left right carry).msb ≠ differenceOverflows left right carry ↔
      left.toInt < right.toInt + carry.toNat := by
  have leftRange := signed_range left
  have rightRange := signed_range right
  have once := carry.toNat_le
  have wraps := toInt_difference left right carry
  rw [ne_eq, Bool.eq_iff_iff, differenceOverflows_iff, BitVec.msb_eq_toInt, decide_eq_true_iff,
    Fits]
  rw [Int.bmod_def] at wraps
  split at wraps <;> omega

end Signed

/-! ### Two steps -/

section Halves

variable (left right : Word) (carry : Bool)

theorem msb_high (word : Word) : (Word.high word).msb = word.msb := by
  rw [BitVec.msb_eq_decide, BitVec.msb_eq_decide, Word.toNat_high, decide_eq_decide]
  omega

/-- A carry across a bit of the high byte is a carry of the second step. -/
theorem carries_high (bits : Nat) :
    carries (8 + bits) left right carry =
      carries bits (Word.high left) (Word.high right)
        (carries 8 (Word.low left) (Word.low right) carry) := by
  have bound := carry.toNat_le
  simp only [carries, BitVec.carry, Word.toNat_high, Word.toNat_low, Nat.pow_add, Nat.mod_mul,
    Nat.reducePow, Nat.mod_mod, ge_iff_le, decide_eq_decide]
  -- The bits of the high bytes know the low bytes only by whether these carry.
  by_cases carried : 256 ≤ left.toNat % 256 + right.toNat % 256 + carry.toNat
  · rw [decide_eq_true carried, Bool.toNat_true]
    omega
  · rw [decide_eq_false carried, Bool.toNat_false]
    omega

/-- A borrow across a bit of the high byte is a borrow of the second step. -/
theorem borrows_high (bits : Nat) :
    borrows (8 + bits) left right carry =
      borrows bits (Word.high left) (Word.high right)
        (borrows 8 (Word.low left) (Word.low right) carry) := by
  have bound := carry.toNat_le
  simp only [borrows, BitVec.toNat_setWidth, Word.toNat_high, Word.toNat_low, Nat.pow_add,
    Nat.mod_mul, Nat.reducePow, Nat.mod_mod, decide_eq_decide]
  by_cases borrowed : left.toNat % 256 < right.toNat % 256 + carry.toNat
  · rw [decide_eq_true borrowed, Bool.toNat_true]
    omega
  · rw [decide_eq_false borrowed, Bool.toNat_false]
    omega

/-- The bytes of a sum are those of the two steps. -/
theorem sum_bytes :
    sum left right carry =
      Word.ofBytes
        (sum (Word.high left) (Word.high right)
          (carries 8 (Word.low left) (Word.low right) carry))
        (sum (Word.low left) (Word.low right) carry) := by
  have whole := toNat_sum left right carry
  have lower := toNat_sum (Word.low left) (Word.low right) carry
  have upper := toNat_sum (Word.high left) (Word.high right)
    (carries 8 (Word.low left) (Word.low right) carry)
  rw [← carries_high] at upper
  apply BitVec.eq_of_toNat_eq
  simp only [Word.toNat_ofBytes, Word.toNat_high, Word.toNat_low] at whole lower upper ⊢
  omega

/-- The bytes of a difference are those of the two steps. -/
theorem difference_bytes :
    difference left right carry =
      Word.ofBytes
        (difference (Word.high left) (Word.high right)
          (borrows 8 (Word.low left) (Word.low right) carry))
        (difference (Word.low left) (Word.low right) carry) := by
  have whole := toNat_difference left right carry
  have lower := toNat_difference (Word.low left) (Word.low right) carry
  have upper := toNat_difference (Word.high left) (Word.high right)
    (borrows 8 (Word.low left) (Word.low right) carry)
  rw [← borrows_high] at upper
  apply BitVec.eq_of_toNat_eq
  simp only [Word.toNat_ofBytes, Word.toNat_high, Word.toNat_low] at whole lower upper ⊢
  omega

/-- The second step makes the high byte of a sum. -/
theorem high_sum :
    Word.high (sum left right carry) =
      sum (Word.high left) (Word.high right)
        (carries 8 (Word.low left) (Word.low right) carry) := by
  rw [sum_bytes, Word.high_ofBytes]

/-- The second step makes the high byte of a difference. -/
theorem high_difference :
    Word.high (difference left right carry) =
      difference (Word.high left) (Word.high right)
        (borrows 8 (Word.low left) (Word.low right) carry) := by
  rw [difference_bytes, Word.high_ofBytes]

/-- A sum of words overflows if its second step does. -/
theorem sumOverflows_high :
    sumOverflows left right carry =
      sumOverflows (Word.high left) (Word.high right)
        (carries 8 (Word.low left) (Word.low right) carry) := by
  simp only [sumOverflows, ← high_sum, msb_high]

/-- A difference of words overflows if its second step does. -/
theorem differenceOverflows_high :
    differenceOverflows left right carry =
      differenceOverflows (Word.high left) (Word.high right)
        (borrows 8 (Word.low left) (Word.low right) carry) := by
  simp only [differenceOverflows, ← high_difference, msb_high]

end Halves

/-- A word made by an operation on bytes: first on the low bytes, then on the high bytes with the
carry of the first step. The flags are those of the second step. -/
def inTwoSteps (operation : Byte → Byte → Bool → Outcome 8) (left right : Word) (carry : Bool) :
    Outcome 16 :=
  let lower := operation (Word.low left) (Word.low right) carry
  let upper := operation (Word.high left) (Word.high right) lower.flags.c
  { value := Word.ofBytes upper.value lower.value, flags := upper.flags }

/-- The sixteen-bit operations agree with two eight-bit steps, in the value and in all flags but a
few: zero looks at the whole word, and the addition without a carry keeps sign, zero and parity. -/
theorem pairs_in_two_steps (left right : Word) (carry : Bool) (flags : Flags) :
    let added := inTwoSteps add left right carry
    let subtracted := inTwoSteps subtract left right carry
    let plain := inTwoSteps add left right false
    addPairCarry left right carry =
        { added with flags := { added.flags with z := added.value == 0 } } ∧
      subtractPair left right carry =
        { subtracted with flags := { subtracted.flags with z := subtracted.value == 0 } } ∧
      addPair left right flags =
        { plain with flags := { plain.flags with s := flags.s, z := flags.z, p := flags.p } } := by
  intro added subtracted plain
  refine ⟨?_, ?_, ?_⟩
  · have half : carries 12 left right carry = _ := carries_high left right carry 4
    have full : carries 16 left right carry = _ := carries_high left right carry 8
    simp only [added, addPairCarry, inTwoSteps, add, ← sum_bytes, high_sum, sumOverflows_high, half,
      full, Flags.ofResult]
  · have half : borrows 12 left right carry = _ := borrows_high left right carry 4
    have full : borrows 16 left right carry = _ := borrows_high left right carry 8
    simp only [subtracted, subtractPair, inTwoSteps, subtract, ← difference_bytes, high_difference,
      differenceOverflows_high, half, full, Flags.ofResult]
  · have half : carries 12 left right false = _ := carries_high left right false 4
    have full : carries 16 left right false = _ := carries_high left right false 8
    simp only [plain, addPair, inTwoSteps, add, ← sum_bytes, high_sum, half, full, Flags.ofResult,
      Flags.withCopies]

end Z80.Arithmetic
