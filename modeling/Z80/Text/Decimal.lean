/-!
# Decimal text

Numbers are written with decimal digits. Reading also takes leading zeros and a plus sign, so that
it gives back what was written (`read?_write`) and refuses everything else.
-/

namespace Z80.Text.Decimal

/-- The digits of a number. -/
def write (value : Nat) : String := String.ofList (Nat.toDigits 10 value)

/-- The number after some more digits. -/
def accumulate (value : Nat) (digits : List Char) : Nat :=
  digits.foldl (fun total digit => total * 10 + (digit.toNat - 48)) value

/-- The number that digits stand for. -/
def ofDigits? (digits : List Char) : Option Nat :=
  if digits ≠ [] ∧ digits.all Char.isDigit then some (accumulate 0 digits) else none

/-- The number that a text stands for. -/
def read? (text : String) : Option Nat :=
  match text.toList with
  | '+' :: digits => ofDigits? digits
  | digits => ofDigits? digits

theorem accumulate_append (value : Nat) (first second : List Char) :
    accumulate value (first ++ second) = accumulate (accumulate value first) second :=
  List.foldl_append

theorem accumulate_toDigits (value : Nat) : accumulate 0 (Nat.toDigits 10 value) = value := by
  induction value using Nat.strongRecOn with
  | ind value ih =>
    by_cases small : value < 10
    · rw [Nat.toDigits_of_lt_base small]
      simp [accumulate, Nat.toNat_digitChar_sub_48_of_lt_ten small]
    · rw [Nat.toDigits_of_base_le (by decide) (by omega), accumulate_append,
        ih (value / 10) (by omega)]
      have digit : value % 10 < 10 := by omega
      simp only [accumulate, List.foldl_cons, List.foldl_nil,
        Nat.toNat_digitChar_sub_48_of_lt_ten digit]
      omega

theorem ofDigits?_toDigits (value : Nat) : ofDigits? (Nat.toDigits 10 value) = some value := by
  rw [ofDigits?, if_pos, accumulate_toDigits]
  refine ⟨Nat.toDigits_ne_nil, List.all_eq_true.mpr fun digit member => ?_⟩
  exact Nat.isDigit_of_mem_toDigits (by decide) (by decide) member

/-- Reading gives back the number that was written. -/
theorem read?_write (value : Nat) : read? (write value) = some value := by
  rw [read?, write, String.toList_ofList]
  split
  · next digits same =>
    -- No digit is a plus sign.
    have plus : '+' ∈ Nat.toDigits 10 value := by rw [same]; exact List.mem_cons_self
    exact absurd (Nat.isDigit_of_mem_toDigits (by decide) (by decide) plus) (by decide)
  · exact ofDigits?_toDigits value

end Z80.Text.Decimal
