import Z80.Tacts
import Z80.Text.Hex

/-!
# Answers to queries

The state of the machine is queried by path, and a path answers with a truth value, a byte, a
word, a count or a text.
-/

namespace Z80

/-- The answer to a query. -/
inductive Value where
  | bool (value : Bool)
  | byte (value : Byte)
  | word (value : Word)
  | count (value : Tacts)
  | text (value : String)
deriving DecidableEq

namespace Value

/-- How an answer is written: bytes and words in hexadecimal, counts in decimal. -/
def display : Value → String
  | .bool value => if value then "true" else "false"
  | .byte value => "0x" ++ Text.Hex.ofByte value
  | .word value => "0x" ++ Text.Hex.ofWord value
  | .count value => Tacts.text value
  | .text value => value

/-- The number of an answer that is one. -/
def number? : Value → Option (BitVec 64)
  | .bool value => some (BitVec.ofNat 64 value.toNat)
  | .byte value => some (value.setWidth 64)
  | .word value => some (value.setWidth 64)
  | .count value => some value
  | .text _ => none

end Value

end Z80
