import Z80.Proofs.LongNumbers

/-!
# Packed decimal numbers

A byte holds two decimal digits. An addition or subtraction of such bytes counts to sixteen where it
should count to ten, and DAA puts right what that spoils. It finds out which digits went over from
the accumulator and the flags H, C and N alone, and leaves in C the carry of the decimal number. So
ADC or SBC with DAA behind it is exact to base 100 on packed bytes, and chains of them add and
subtract decimal numbers of any length.

## Main definitions

* `Radix.decimal`: packed bytes as digits to base 100
* `Arithmetic.adjusted`: an operation on the accumulator with DAA behind it

## Main results

* `Arithmetic.adjusted_addCarry`, `Arithmetic.adjusted_subtractCarry`: what becomes of the digits
* `Arithmetic.chain_adjusted`: decimal numbers of any length are added and subtracted
-/

namespace Z80

/-- Packed bytes, each of two decimal digits, as digits to base 100. -/
def Radix.decimal : Radix where
  base := 100
  IsDigit byte := byte.toNat % 16 < 10 ∧ byte.toNat / 16 < 10
  digit byte := 10 * (byte.toNat / 16) + byte.toNat % 16
  one_lt_base := by decide
  digit_lt := by omega

namespace Arithmetic

/-- ADC, SBC or another operation on the accumulator, with DAA behind it. -/
def adjusted (op : AccumulatorOp) (left right : Byte) (flags : Flags) : Outcome 8 :=
  let combined := accumulate op left right flags
  decimalAdjust combined.value combined.flags

/-- DAA finds the low digit out of range. -/
def lowOff (accumulator : Byte) (flags : Flags) : Bool :=
  flags.h || decide (9 < accumulator.toNat % 16)

/-- DAA finds the high digit out of range. -/
def highOff (accumulator : Byte) (flags : Flags) : Bool :=
  flags.c || decide (0x99 < accumulator.toNat)

/-- What DAA adds or takes away: six at each digit that is out of range. -/
def correction (accumulator : Byte) (flags : Flags) : Byte :=
  (if lowOff accumulator flags then 0x06 else 0) + if highOff accumulator flags then 0x60 else 0

theorem toNat_correction (accumulator : Byte) (flags : Flags) :
    (correction accumulator flags).toNat =
      6 * (lowOff accumulator flags).toNat + 96 * (highOff accumulator flags).toNat := by
  rw [correction]
  cases lowOff accumulator flags <;> cases highOff accumulator flags <;> rfl

theorem value_decimalAdjust (accumulator : Byte) (flags : Flags) :
    (decimalAdjust accumulator flags).value =
      if flags.n then accumulator - correction accumulator flags
      else accumulator + correction accumulator flags := rfl

/-- DAA carries exactly if it corrects the high digit. -/
theorem c_decimalAdjust (accumulator : Byte) (flags : Flags) :
    (decimalAdjust accumulator flags).flags.c = highOff accumulator flags := rfl

/-- Two digits and a carry hold one ten if they are out of the range of a digit, and none if not. -/
theorem div_ten_eq_toNat {total : Nat} (small : total < 20) :
    total / 10 = (decide (10 ≤ total)).toNat := by
  by_cases reached : 10 ≤ total
  · rw [decide_eq_true reached, Bool.toNat_true]
    omega
  · rw [decide_eq_false reached, Bool.toNat_false]
    omega

/-- What a digit leaves of another one borrows a ten if it is below zero. -/
theorem ediv_ten_eq_neg_toNat {rest : Int} (least : -10 ≤ rest) (most : rest < 10) :
    rest / 10 = -(decide (rest < 0)).toNat := by
  by_cases under : rest < 0
  · rw [decide_eq_true under, Bool.toNat_true]
    omega
  · rw [decide_eq_false under, Bool.toNat_false]
    omega

section Digits

variable {left right : Byte} (flags : Flags) (leftDigit : Radix.decimal.IsDigit left)
  (rightDigit : Radix.decimal.IsDigit right)

include leftDigit rightDigit

/-- ADC with DAA behind it adds the digits: the low ones with the carry, the high ones with what the
low ones carry. -/
theorem adjusted_addCarry :
    let low := left.toNat % 16 + right.toNat % 16 + flags.c.toNat
    let high := left.toNat / 16 + right.toNat / 16 + low / 10
    let result := adjusted .addCarry left right flags
    result.value.toNat % 16 = low % 10 ∧ result.value.toNat / 16 = high % 10 ∧
      result.flags.c.toNat = high / 10 := by
  intro low high result
  obtain ⟨leftLow, leftHigh⟩ := leftDigit
  obtain ⟨rightLow, rightHigh⟩ := rightDigit
  have once := flags.c.toNat_le
  have exact : (sum left right flags.c).toNat + 256 * (carries 8 left right flags.c).toNat =
      16 * (left.toNat / 16 + right.toNat / 16) + low := by
    have whole := toNat_sum left right flags.c
    omega
  have bound := (sum left right flags.c).isLt
  have tens : low / 10 = (decide (10 ≤ low)).toNat := div_ten_eq_toNat (by omega)
  have hundreds : high / 10 = (decide (10 ≤ high)).toNat := div_ten_eq_toNat (by omega)
  -- A low digit out of range shows as one above nine, or as a half carry if it went past fifteen.
  have lowTold : lowOff (sum left right flags.c) (add left right flags.c).flags =
      decide (10 ≤ low) := by
    rw [lowOff, Bool.eq_iff_iff]
    simp only [add, carries, BitVec.carry, Bool.or_eq_true, decide_eq_true_iff]
    omega
  have highTold : highOff (sum left right flags.c) (add left right flags.c).flags =
      decide (10 ≤ high) := by
    have carried := (carries 8 left right flags.c).toNat_le
    rw [highOff, Bool.eq_iff_iff]
    simp only [add, Bool.or_eq_true, decide_eq_true_iff]
    rw [← Bool.toNat_eq_one]
    omega
  have value : result.value =
      sum left right flags.c + correction (sum left right flags.c) (add left right flags.c).flags :=
    value_decimalAdjust ..
  have carry : result.flags.c = decide (10 ≤ high) := (c_decimalAdjust ..).trans highTold
  -- Six at a digit that carries makes of its sixteen a ten.
  rw [value, carry, BitVec.toNat_add, toNat_correction, lowTold, highTold, ← tens, ← hundreds]
  omega

/-- SBC with DAA behind it subtracts the digits: the low ones with the borrow, the high ones with
what the low ones borrow. -/
theorem adjusted_subtractCarry :
    let low : Int := (left.toNat % 16 : Nat) - (right.toNat % 16 : Nat) - flags.c.toNat
    let high : Int := (left.toNat / 16 : Nat) - (right.toNat / 16 : Nat) + low / 10
    let result := adjusted .subtractCarry left right flags
    (result.value.toNat % 16 : Nat) = low % 10 ∧ (result.value.toNat / 16 : Nat) = high % 10 ∧
      -result.flags.c.toNat = high / 10 := by
  intro low high result
  obtain ⟨leftLow, leftHigh⟩ := leftDigit
  obtain ⟨rightLow, rightHigh⟩ := rightDigit
  have once := flags.c.toNat_le
  have exact : ((difference left right flags.c).toNat : Int) =
      16 * ((left.toNat / 16 : Nat) - (right.toNat / 16 : Nat)) + low +
        256 * (borrows 8 left right flags.c).toNat := by
    have whole := toNat_difference left right flags.c
    omega
  have bound := (difference left right flags.c).isLt
  have tens : low / 10 = -(decide (low < 0)).toNat := ediv_ten_eq_neg_toNat (by omega) (by omega)
  have hundreds : high / 10 = -(decide (high < 0)).toNat :=
    ediv_ten_eq_neg_toNat (by omega) (by omega)
  -- A low digit that went below zero always borrowed; nothing else is above nine.
  have lowTold : lowOff (difference left right flags.c) (subtract left right flags.c).flags =
      decide (low < 0) := by
    rw [lowOff, Bool.eq_iff_iff]
    simp only [subtract, borrows, BitVec.toNat_setWidth, Bool.or_eq_true, decide_eq_true_iff]
    omega
  have highTold : highOff (difference left right flags.c) (subtract left right flags.c).flags =
      decide (high < 0) := by
    have borrowed := (borrows 8 left right flags.c).toNat_le
    rw [highOff, Bool.eq_iff_iff]
    simp only [subtract, Bool.or_eq_true, decide_eq_true_iff]
    rw [← Bool.toNat_eq_one]
    by_cases under : low < 0
    · omega
    · omega
  have value : result.value =
      difference left right flags.c -
        correction (difference left right flags.c) (subtract left right flags.c).flags :=
    value_decimalAdjust ..
  have borrow : result.flags.c = decide (high < 0) := (c_decimalAdjust ..).trans highTold
  rw [value, borrow, BitVec.toNat_sub, toNat_correction, lowTold, highTold]
  omega

end Digits

/-- ADC with DAA is exact on packed bytes. -/
theorem adjusted_addCarry_balances : Radix.decimal.Balances 1 (adjusted .addCarry) where
  isDigit := by
    intro left right flags leftDigit rightDigit
    obtain ⟨low, high, -⟩ := adjusted_addCarry flags leftDigit rightDigit
    simp only [Radix.decimal]
    omega
  exact := by
    intro left right flags leftDigit rightDigit
    obtain ⟨low, high, carried⟩ := adjusted_addCarry flags leftDigit rightDigit
    simp only [Radix.decimal]
    omega

/-- SBC with DAA is exact on packed bytes. -/
theorem adjusted_subtractCarry_balances :
    Radix.decimal.Balances (-1) (adjusted .subtractCarry) where
  isDigit := by
    intro left right flags leftDigit rightDigit
    obtain ⟨low, high, -⟩ := adjusted_subtractCarry flags leftDigit rightDigit
    simp only [Radix.decimal]
    omega
  exact := by
    intro left right flags leftDigit rightDigit
    obtain ⟨low, high, borrowed⟩ := adjusted_subtractCarry flags leftDigit rightDigit
    simp only [Radix.decimal]
    omega

/-- ADC and SBC with DAA behind each, byte by byte and lowest byte first, add and subtract packed
decimal numbers of any length. What they leave is packed again, and the last carry or borrow is that
of the whole numbers. -/
theorem chain_adjusted {left right : List Byte} (same : left.length = right.length)
    (leftDigits : ∀ byte ∈ left, Radix.decimal.IsDigit byte)
    (rightDigits : ∀ byte ∈ right, Radix.decimal.IsDigit byte) (flags : Flags) :
    Radix.decimal.Adds left right flags.c (chain (adjusted .addCarry) left right flags) ∧
      Radix.decimal.Subtracts left right flags.c
        (chain (adjusted .subtractCarry) left right flags) := by
  constructor
  · exact adjusted_addCarry_balances.adds same leftDigits rightDigits flags
  · exact adjusted_subtractCarry_balances.subtracts same leftDigits rightDigits flags

/-- A thousand and 9999 with the carry set: both the sum and the difference are a thousand, with a
carry and with a borrow. -/
theorem chain_adjusted_thousand :
    let thousand : List Byte := [0x00, 0x10]
    let greatest : List Byte := [0x99, 0x99]
    let sum := chain (adjusted .addCarry) thousand greatest { c := true }
    let difference := chain (adjusted .subtractCarry) thousand greatest { c := true }
    thousand.length = greatest.length ∧ (∀ byte ∈ thousand, Radix.decimal.IsDigit byte) ∧
      (∀ byte ∈ greatest, Radix.decimal.IsDigit byte) ∧
      sum.bytes = thousand ∧ Radix.decimal.value sum.bytes = 1000 ∧ sum.flags.c = true ∧
      difference.bytes = thousand ∧ (Radix.decimal.value difference.bytes : Int) = 1000 ∧
      difference.flags.c = true := by
  intro thousand greatest sum difference
  have same : thousand.length = greatest.length := rfl
  have digits : (∀ byte ∈ thousand, Radix.decimal.IsDigit byte) ∧
      ∀ byte ∈ greatest, Radix.decimal.IsDigit byte := by
    simp [thousand, greatest, Radix.decimal]
  obtain ⟨adds, subtracts⟩ := chain_adjusted same digits.1 digits.2 { c := true }
  exact ⟨same, digits.1, digits.2, by decide, adds.value.trans (by decide),
    adds.carry.mpr (by decide), by decide, subtracts.value.trans (by decide),
    subtracts.carry.mpr (by decide)⟩

end Arithmetic

end Z80
