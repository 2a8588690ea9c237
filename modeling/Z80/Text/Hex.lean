import Z80.Word

/-!
# Hexadecimal text

Bytes are written with two digits and words with four, in upper case. A block of bytes is written
without separators.
-/

namespace Z80.Text.Hex

/-- The upper-case digit of a number below sixteen. -/
def digit (value : Nat) : Char :=
  if value < 10 then Char.ofNat (48 + value) else Char.ofNat (55 + value)

/-- The number that a digit of either case stands for. -/
def digit? (char : Char) : Option Nat :=
  let code := char.toNat
  if 48 ≤ code ∧ code ≤ 57 then some (code - 48)
  else if 65 ≤ code ∧ code ≤ 70 then some (code - 55)
  else if 97 ≤ code ∧ code ≤ 102 then some (code - 87)
  else none

/-- The two digits of a byte. -/
def byteDigits (byte : Byte) : List Char :=
  [digit (byte.toNat / 16), digit (byte.toNat % 16)]

/-- The four digits of a word. -/
def wordDigits (word : Word) : List Char :=
  byteDigits (Word.high word) ++ byteDigits (Word.low word)

/-- A byte with two digits. -/
def ofByte (byte : Byte) : String := String.ofList (byteDigits byte)

/-- A word with four digits. -/
def ofWord (word : Word) : String := String.ofList (wordDigits word)

/-- Bytes one after the other. -/
def ofBytes (bytes : List Byte) : String := String.ofList (bytes.flatMap byteDigits)

/-- The bytes written by pairs of digits. -/
def bytesOfDigits? : List Char → Option (List Byte)
  | [] => some []
  | [_] => none
  | first :: second :: rest => do
    let upper ← digit? first
    let lower ← digit? second
    let bytes ← bytesOfDigits? rest
    return BitVec.ofNat 8 (upper * 16 + lower) :: bytes

/-- The bytes that a text holds. -/
def toBytes? (text : String) : Option (List Byte) := bytesOfDigits? text.toList

theorem digit?_digit {value : Nat} (bound : value < 16) : digit? (digit value) = some value := by
  revert value
  decide

/-- Different bytes have different digits. -/
theorem byteDigits_injective {byte other : Byte} (same : byteDigits byte = byteDigits other) :
    byte = other := by
  have bound := byte.isLt
  have otherBound := other.isLt
  injection same with upper rest
  injection rest with lower _
  -- Reading the digits back compares the halves of the bytes.
  have upperValue := congrArg digit? upper
  have lowerValue := congrArg digit? lower
  rw [digit?_digit (by omega), digit?_digit (by omega), Option.some.injEq] at upperValue lowerValue
  apply BitVec.eq_of_toNat_eq
  omega

end Z80.Text.Hex
