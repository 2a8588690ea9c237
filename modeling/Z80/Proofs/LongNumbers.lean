import Mathlib.Data.Nat.Digits.Lemmas
import Mathlib.Tactic.LinearCombination
import Z80.Proofs.Carry

/-!
# Numbers of many bytes

A program works on a number of many bytes one byte after the other, lowest byte first, and the carry
goes from each byte to the next through the flags. If the step at one byte is exact in some number
base, the chain of steps is exact in that base, whatever its length: the carry that is left at its
end is all that the bytes of the result lack.

## Main definitions

* `Radix`: a way to read bytes as digits
* `Arithmetic.chain`: an operation byte by byte, with the flags going from each byte to the next
* `Radix.Balances`: the step at one byte is exact
* `Radix.Adds`, `Radix.Subtracts`: what a sum and a difference of many bytes are
* `Arithmetic.signed`: many bytes as a number in two's complement

## Main results

* `Radix.Balances.value_chain`: chains of exact steps are exact
* `Arithmetic.chain_top`: sign and overflow of a chain are those of its last byte
* `Arithmetic.chain_accumulate`: ADC and SBC byte by byte add and subtract numbers of any length
-/

namespace Z80

/-! ### Bytes as digits -/

/-- A way to read bytes as the digits of a number. -/
structure Radix where
  base : Nat
  IsDigit : Byte → Prop
  /-- The value of a digit. -/
  digit : Byte → Nat
  one_lt_base : 1 < base
  digit_lt : ∀ {byte}, IsDigit byte → digit byte < base

namespace Radix

variable (radix : Radix)

/-- The number that bytes stand for, lowest digit first. -/
def value (bytes : List Byte) : Nat := Nat.ofDigits radix.base (bytes.map radix.digit)

@[simp] theorem value_nil : radix.value [] = 0 := rfl

@[simp] theorem value_cons (byte : Byte) (rest : List Byte) :
    radix.value (byte :: rest) = radix.digit byte + radix.base * radix.value rest :=
  Nat.ofDigits_cons ..

theorem value_concat (lower : List Byte) (top : Byte) :
    radix.value (lower ++ [top]) =
      radix.value lower + radix.base ^ lower.length * radix.digit top := by
  simp [value, Nat.ofDigits_append]

variable {radix}

theorem value_lt {bytes : List Byte} (digits : ∀ byte ∈ bytes, radix.IsDigit byte) :
    radix.value bytes < radix.base ^ bytes.length := by
  have small : ∀ digit ∈ bytes.map radix.digit, digit < radix.base := by
    intro digit among
    obtain ⟨byte, held, rfl⟩ := List.mem_map.mp among
    exact radix.digit_lt (digits byte held)
  have bound := Nat.ofDigits_lt_base_pow_length radix.one_lt_base small
  rwa [List.length_map] at bound

end Radix

/-! ### Chains -/

namespace Arithmetic

/-- The bytes that a chain of operations gives, and the flags that it leaves. -/
structure LongOutcome where
  /-- Lowest byte first. -/
  bytes : List Byte
  flags : Flags

/-- An operation on the bytes of two numbers, lowest bytes first, each under the flags that the one
before left. -/
def chain (operation : Byte → Byte → Flags → Outcome 8) :
    List Byte → List Byte → Flags → LongOutcome
  | left :: lefts, right :: rights, flags =>
    let lowest := operation left right flags
    let rest := chain operation lefts rights lowest.flags
    { rest with bytes := lowest.value :: rest.bytes }
  | _, _, flags => { bytes := [], flags }

section Chain

variable (operation : Byte → Byte → Flags → Outcome 8) {left right : List Byte}

theorem length_chain (same : left.length = right.length) (flags : Flags) :
    (chain operation left right flags).bytes.length = left.length := by
  induction left generalizing right flags with
  | nil => rfl
  | cons byte rest ih =>
    cases right with
    | nil => cases same
    | cons other others => simp [chain, ih (Nat.succ.inj same)]

/-- The highest bytes come last. -/
theorem chain_concat (same : left.length = right.length) (top other : Byte) (flags : Flags) :
    chain operation (left ++ [top]) (right ++ [other]) flags =
      let lower := chain operation left right flags
      let last := operation top other lower.flags
      ⟨lower.bytes ++ [last.value], last.flags⟩ := by
  induction left generalizing right flags with
  | nil =>
    cases right with
    | nil => rfl
    | cons _ _ => cases same
  | cons byte rest ih =>
    cases right with
    | nil => cases same
    | cons _ _ => simp [chain, ih (Nat.succ.inj same)]

end Chain

end Arithmetic

namespace Radix

open Arithmetic

variable {radix : Radix} {operation : Byte → Byte → Flags → Outcome 8} {sign : Int}
  {left right : List Byte}

/-- On digits the operation gives a digit, and it is exact: the carry flag takes what the digit
lacks. The sign is 1 for an addition and -1 for a subtraction. -/
structure Balances (radix : Radix) (sign : Int) (operation : Byte → Byte → Flags → Outcome 8) :
    Prop where
  isDigit : ∀ {left right : Byte} (flags : Flags), radix.IsDigit left → radix.IsDigit right →
    radix.IsDigit (operation left right flags).value
  exact : ∀ {left right : Byte} (flags : Flags), radix.IsDigit left → radix.IsDigit right →
    (radix.digit left : Int) + sign * (radix.digit right + flags.c.toNat) =
      radix.digit (operation left right flags).value +
        sign * (radix.base * (operation left right flags).flags.c.toNat)

theorem Balances.isDigit_chain (balances : radix.Balances sign operation)
    (leftDigits : ∀ byte ∈ left, radix.IsDigit byte)
    (rightDigits : ∀ byte ∈ right, radix.IsDigit byte) (flags : Flags) :
    ∀ byte ∈ (chain operation left right flags).bytes, radix.IsDigit byte := by
  induction left generalizing right flags with
  | nil => simp [chain]
  | cons byte rest ih =>
    cases right with
    | nil => simp [chain]
    | cons other others =>
      rw [List.forall_mem_cons] at leftDigits rightDigits
      rw [chain, List.forall_mem_cons]
      exact ⟨balances.isDigit flags leftDigits.1 rightDigits.1,
        ih leftDigits.2 rightDigits.2 _⟩

/-- A chain of exact operations is exact: the last carry takes what the bytes lack. -/
theorem Balances.value_chain (balances : radix.Balances sign operation)
    (same : left.length = right.length) (leftDigits : ∀ byte ∈ left, radix.IsDigit byte)
    (rightDigits : ∀ byte ∈ right, radix.IsDigit byte) (flags : Flags) :
    (radix.value left : Int) + sign * (radix.value right + flags.c.toNat) =
      radix.value (chain operation left right flags).bytes +
        sign * (radix.base ^ left.length * (chain operation left right flags).flags.c.toNat) := by
  induction left generalizing right flags with
  | nil =>
    cases right with
    | nil => simp [chain]
    | cons _ _ => cases same
  | cons byte rest ih =>
    cases right with
    | nil => cases same
    | cons other others =>
      rw [List.forall_mem_cons] at leftDigits rightDigits
      have lowest := balances.exact flags leftDigits.1 rightDigits.1
      have higher := ih (Nat.succ.inj same) leftDigits.2 rightDigits.2
        (operation byte other flags).flags
      simp only [chain, value_cons, List.length_cons, pow_succ]
      push_cast
      -- The carry of the lowest digits is the one that the higher digits begin with.
      linear_combination lowest + radix.base * higher

/-- The result is the sum of two numbers of many digits and a carry: as many of its digits as the
numbers have, and a carry that tells whether it has more. -/
structure Adds (radix : Radix) (left right : List Byte) (carry : Bool) (result : LongOutcome) :
    Prop where
  length : result.bytes.length = left.length
  digits : ∀ byte ∈ result.bytes, radix.IsDigit byte
  value : radix.value result.bytes =
    (radix.value left + radix.value right + carry.toNat) % radix.base ^ left.length
  carry : result.flags.c = true ↔
    radix.base ^ left.length ≤ radix.value left + radix.value right + carry.toNat

/-- The result is the difference of two numbers of many digits and a borrow: as many of its digits
as the numbers have, and a carry that tells whether it is negative. -/
structure Subtracts (radix : Radix) (left right : List Byte) (borrow : Bool)
    (result : LongOutcome) : Prop where
  length : result.bytes.length = left.length
  digits : ∀ byte ∈ result.bytes, radix.IsDigit byte
  value : (radix.value result.bytes : Int) =
    (radix.value left - radix.value right - borrow.toNat) % radix.base ^ left.length
  carry : result.flags.c = true ↔ radix.value left < radix.value right + borrow.toNat

section Results

variable (same : left.length = right.length) (leftDigits : ∀ byte ∈ left, radix.IsDigit byte)
  (rightDigits : ∀ byte ∈ right, radix.IsDigit byte) (flags : Flags)

include same leftDigits rightDigits

/-- The bytes of a chain stand for less than its carry does. -/
theorem Balances.value_chain_lt (balances : radix.Balances sign operation) :
    radix.value (chain operation left right flags).bytes < radix.base ^ left.length := by
  rw [← length_chain operation same flags]
  exact value_lt (balances.isDigit_chain leftDigits rightDigits flags)

/-- A chain of exact additions adds. -/
theorem Balances.adds (balances : radix.Balances 1 operation) :
    radix.Adds left right flags.c (chain operation left right flags) := by
  have exact := balances.value_chain same leftDigits rightDigits flags
  have bound := balances.value_chain_lt same leftDigits rightDigits flags
  have whole : radix.value left + radix.value right + flags.c.toNat =
      radix.value (chain operation left right flags).bytes +
        radix.base ^ left.length * (chain operation left right flags).flags.c.toNat := by
    zify
    linear_combination exact
  refine ⟨length_chain operation same flags,
    balances.isDigit_chain leftDigits rightDigits flags, ?_, ?_⟩
  · rw [whole, Nat.add_mul_mod_self_left, Nat.mod_eq_of_lt bound]
  · rw [whole]
    cases (chain operation left right flags).flags.c with
    | false => simpa using bound
    | true => simp

/-- A chain of exact subtractions subtracts. -/
theorem Balances.subtracts (balances : radix.Balances (-1) operation) :
    radix.Subtracts left right flags.c (chain operation left right flags) := by
  have exact := balances.value_chain same leftDigits rightDigits flags
  have bound := balances.value_chain_lt same leftDigits rightDigits flags
  have whole : (radix.value left - radix.value right - flags.c.toNat : Int) =
      radix.value (chain operation left right flags).bytes +
        radix.base ^ left.length * -(chain operation left right flags).flags.c.toNat := by
    linear_combination exact
  refine ⟨length_chain operation same flags,
    balances.isDigit_chain leftDigits rightDigits flags, ?_, ?_⟩
  · rw [whole, Int.add_mul_emod_self_left, Int.emod_eq_of_lt (Int.natCast_nonneg _)]
    exact_mod_cast bound
  · have least := Int.natCast_nonneg (radix.value (chain operation left right flags).bytes)
    have most : (radix.value (chain operation left right flags).bytes : Int) <
        radix.base ^ left.length := by exact_mod_cast bound
    -- The difference is what the bytes stand for, or that less a place that they do not reach.
    cases borrowed : (chain operation left right flags).flags.c with
    | false =>
      simp only [borrowed, Bool.toNat_false, Nat.cast_zero, neg_zero, mul_zero] at whole
      simp only [Bool.false_eq_true, false_iff]
      omega
    | true =>
      simp only [borrowed, Bool.toNat_true, Nat.cast_one, mul_neg, mul_one] at whole
      simp only [true_iff]
      omega

end Results

end Radix

/-! ### Plain bytes -/

/-- Bytes as digits to base 256. -/
def Radix.binary : Radix where
  base := 256
  IsDigit _ := True
  digit byte := byte.toNat
  one_lt_base := by decide
  digit_lt _ := BitVec.isLt _

theorem Radix.isDigit_binary (bytes : List Byte) : ∀ byte ∈ bytes, Radix.binary.IsDigit byte :=
  fun _ _ => trivial

namespace Arithmetic

/-- Many bytes as a number in two's complement, lowest byte first. -/
def signed (bytes : List Byte) : Int :=
  if 2 * Radix.binary.value bytes < 256 ^ bytes.length then Radix.binary.value bytes
  else Radix.binary.value bytes - 256 ^ bytes.length

/-- A number below one place and a multiple of it are less than a multiple of the place exactly if
the multiples are. -/
theorem add_mul_lt_mul_iff {place rest : Int} (least : 0 ≤ rest) (most : rest < place)
    (digit bound : Int) : rest + place * digit < place * bound ↔ digit < bound := by
  constructor
  · intro less
    by_contra reached
    nlinarith
  · intro less
    nlinarith

/-- Only the highest byte of a signed number counts as a signed byte. -/
theorem signed_concat (lower : List Byte) (top : Byte) :
    signed (lower ++ [top]) =
      Radix.binary.value lower + 256 ^ lower.length * top.toInt := by
  have bound := Radix.value_lt (Radix.isDigit_binary lower)
  have most : (Radix.binary.value lower : Int) < 256 ^ lower.length := by exact_mod_cast bound
  -- The whole is below half of its range exactly if the highest byte is below half of a byte's.
  have half := add_mul_lt_mul_iff (Int.natCast_nonneg _) most top.toNat 128
  have value : (Radix.binary.value (lower ++ [top]) : Int) =
      Radix.binary.value lower + 256 ^ lower.length * top.toNat := by
    exact_mod_cast Radix.binary.value_concat lower top
  have positive : 2 * Radix.binary.value (lower ++ [top]) < 256 ^ (lower ++ [top]).length ↔
      2 * top.toNat < 2 ^ 8 := by
    zify
    rw [value, List.length_append, List.length_singleton, pow_succ]
    constructor <;> intro less
    · linarith [half.mp (by linarith)]
    · linarith [half.mpr (by linarith)]
  rw [signed, BitVec.toInt_eq_toNat_cond]
  simp only [positive]
  split
  · exact value
  · rw [value, List.length_append, List.length_singleton, pow_succ]
    push_cast
    ring

/-- A long number fits where its highest digit fits. -/
theorem fits_place {place rest : Int} (least : 0 ≤ rest) (most : rest < place) (digit : Int) :
    Fits (place * 256) (rest + place * digit) ↔ Fits 256 digit := by
  have above := add_mul_lt_mul_iff least most digit 128
  have below := add_mul_lt_mul_iff least most digit (-128)
  unfold Fits
  constructor
  · rintro ⟨enough, little⟩
    have notAbove : digit < 128 := above.mp (by linarith)
    have notBelow : ¬digit < -128 := mt below.mpr (by linarith)
    omega
  · rintro ⟨enough, little⟩
    have notAbove : rest + place * digit < place * 128 := above.mpr (by linarith)
    have notBelow : ¬rest + place * digit < place * -128 := mt below.mp (by linarith)
    constructor <;> linarith

/-- A chain of exact operations on bytes ends as its highest bytes do: the sign and the overflow
that the flags of the last operation tell are those of the whole. -/
theorem chain_top {operation : Byte → Byte → Flags → Outcome 8} {sign : Int}
    (balances : Radix.binary.Balances sign operation) {left right : List Byte}
    (same : left.length = right.length) (nonempty : left ≠ []) (flags : Flags) :
    ∃ (top other : Byte) (before : Flags),
      let last := operation top other before
      let whole := signed left + sign * (signed right + flags.c.toNat)
      let digit := top.toInt + sign * (other.toInt + before.c.toNat)
      (chain operation left right flags).flags = last.flags ∧
        (signed (chain operation left right flags).bytes < 0 ↔ last.value.toInt < 0) ∧
        (Fits (256 ^ left.length) whole ↔ Fits 256 digit) ∧ (whole < 0 ↔ digit < 0) := by
  obtain rfl | ⟨lower, top, rfl⟩ := left.eq_nil_or_concat
  · exact absurd rfl nonempty
  obtain rfl | ⟨others, other, rfl⟩ := right.eq_nil_or_concat
  · simp at same
  simp only [List.concat_eq_append, List.length_append, List.length_singleton,
    Nat.add_right_cancel_iff] at same ⊢
  have exact := balances.value_chain same (Radix.isDigit_binary _) (Radix.isDigit_binary _) flags
  have bound := balances.value_chain_lt same (Radix.isDigit_binary _) (Radix.isDigit_binary _) flags
  have length := length_chain operation same flags
  have last := chain_concat operation same top other flags
  generalize chain operation lower others flags = result at *
  have least := Int.natCast_nonneg (Radix.binary.value result.bytes)
  have most : (Radix.binary.value result.bytes : Int) < 256 ^ lower.length := by
    exact_mod_cast bound
  -- What the lower bytes leave of the whole is less than the place of the highest byte.
  have whole : signed (lower ++ [top]) + sign * (signed (others ++ [other]) + flags.c.toNat) =
      Radix.binary.value result.bytes +
        256 ^ lower.length * (top.toInt + sign * (other.toInt + result.flags.c.toNat)) := by
    have base : (Radix.binary.base : Int) = 256 := rfl
    rw [base] at exact
    rw [signed_concat, signed_concat, ← same]
    linear_combination exact
  refine ⟨top, other, result.flags, ?_⟩
  rw [last, whole, pow_succ]
  refine ⟨rfl, ?_, fits_place least most _, ?_⟩
  · rw [signed_concat, length]
    simpa using add_mul_lt_mul_iff least most _ 0
  · simpa using add_mul_lt_mul_iff least most _ 0

theorem addCarry_balances : Radix.binary.Balances 1 (accumulate .addCarry) where
  isDigit _ _ _ := trivial
  exact := by
    intro left right flags _ _
    have exact := toNat_sum left right flags.c
    simp only [Radix.binary, accumulate, add]
    omega

theorem subtractCarry_balances : Radix.binary.Balances (-1) (accumulate .subtractCarry) where
  isDigit _ _ _ := trivial
  exact := by
    intro left right flags _ _
    have exact := toNat_difference left right flags.c
    simp only [Radix.binary, accumulate, subtract]
    omega

/-- The sign flag of a result tells whether the signed byte is negative. -/
theorem s_ofResult (result : Byte) : (Flags.ofResult result).s = true ↔ result.toInt < 0 := by
  have sign : (Flags.ofResult result).s = result.msb := rfl
  rw [sign, BitVec.msb_eq_toInt, decide_eq_true_iff]

/-- ADC and SBC, byte by byte and lowest byte first, add and subtract numbers of any length. Carry
and borrow are those of the whole numbers, the sign of a sum is that of the whole, overflow tells
whether the signed result has a place in as many bytes, and a difference is negative exactly if sign
and overflow differ. -/
theorem chain_accumulate {left right : List Byte} (same : left.length = right.length)
    (nonempty : left ≠ []) (flags : Flags) :
    let sum := chain (accumulate .addCarry) left right flags
    let difference := chain (accumulate .subtractCarry) left right flags
    let size := 256 ^ left.length
    (Radix.binary.Adds left right flags.c sum ∧
      (sum.flags.s = true ↔ signed sum.bytes < 0) ∧
      (sum.flags.p = true ↔ ¬ Fits size (signed left + signed right + flags.c.toNat))) ∧
    Radix.binary.Subtracts left right flags.c difference ∧
      (difference.flags.p = true ↔ ¬ Fits size (signed left - signed right - flags.c.toNat)) ∧
      (difference.flags.s ≠ difference.flags.p ↔
        signed left < signed right + flags.c.toNat) := by
  intro sum difference size
  constructor
  · obtain ⟨top, other, before, last, sign, fits, -⟩ :=
      chain_top addCarry_balances same nonempty flags
    simp only [one_mul, ← add_assoc] at fits
    refine ⟨addCarry_balances.adds same (Radix.isDigit_binary _) (Radix.isDigit_binary _) flags,
      ?_, ?_⟩
    · rw [sign, show sum.flags = _ from last]
      exact s_ofResult _
    · rw [fits, show sum.flags = _ from last]
      exact sumOverflows_iff top other before.c
  · obtain ⟨top, other, before, last, -, fits, less⟩ :=
      chain_top subtractCarry_balances same nonempty flags
    have taken (number other carry : Int) :
        number + -1 * (other + carry) = number - other - carry := by ring
    simp only [taken] at fits less
    refine ⟨subtractCarry_balances.subtracts same (Radix.isDigit_binary _)
      (Radix.isDigit_binary _) flags, ?_, ?_⟩
    · rw [fits, show difference.flags = _ from last]
      exact differenceOverflows_iff top other before.c
    · have tells := msb_difference_ne_overflows_iff top other before.c
      rw [show difference.flags = _ from last]
      refine tells.trans ?_
      omega

/-- The least number of two bytes and the greatest, with the carry set: their sum comes to nothing
but a carry, and their difference to nothing but an overflow. -/
theorem chain_accumulate_extremes :
    let least : List Byte := [0x00, 0x80]
    let greatest : List Byte := [0xFF, 0x7F]
    let sum := chain (accumulate .addCarry) least greatest { c := true }
    let difference := chain (accumulate .subtractCarry) least greatest { c := true }
    least.length = greatest.length ∧ least ≠ [] ∧
      sum.bytes = [0x00, 0x00] ∧ sum.flags.c = true ∧ sum.flags.p = false ∧
      difference.bytes = [0x00, 0x00] ∧ difference.flags.c = false ∧ difference.flags.p = true ∧
      signed least < signed greatest + 1 := by
  intro least greatest sum difference
  have same : least.length = greatest.length := rfl
  have nonempty : least ≠ [] := by decide
  obtain ⟨⟨adds, -, overflows⟩, subtracts, differs, less⟩ :=
    chain_accumulate same nonempty { c := true }
  refine ⟨same, nonempty, by decide, adds.carry.mpr (by decide), ?_, by decide, ?_,
    differs.mpr (by decide), less.mp (by decide)⟩
  · exact Bool.eq_false_iff.mpr (mt overflows.mp (by decide))
  · exact Bool.eq_false_iff.mpr (mt subtracts.carry.mp (by decide))

end Arithmetic

end Z80
