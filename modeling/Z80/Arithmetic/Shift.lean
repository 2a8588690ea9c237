import Z80.Arithmetic.Sum

/-!
# Rotations, shifts and single bits

The eight rotations and shifts of a byte, their short forms on the accumulator, and the
operations that test, clear or set one bit.
-/

namespace Z80

/-- The eight rotations and shifts. -/
inductive Shift where
  | rotateLeft | rotateRight | rotateLeftCarry | rotateRightCarry
  | shiftLeft | shiftRightSigned | shiftLeftOne | shiftRight
deriving DecidableEq, Inhabited

/-- The shift named by a three-bit opcode field. -/
def Shift.ofField (field : BitVec 3) : Shift :=
  match field.toNat with
  | 0 => .rotateLeft
  | 1 => .rotateRight
  | 2 => .rotateLeftCarry
  | 3 => .rotateRightCarry
  | 4 => .shiftLeft
  | 5 => .shiftRightSigned
  | 6 => .shiftLeftOne
  | _ => .shiftRight

/-- The shift moves bits towards bit 7. -/
def Shift.isLeft : Shift → Bool
  | .rotateLeft | .rotateLeftCarry | .shiftLeft | .shiftLeftOne => true
  | .rotateRight | .rotateRightCarry | .shiftRightSigned | .shiftRight => false

/-- The bit that leaves the byte and becomes the carry. -/
def Shift.outgoing (shift : Shift) (value : Byte) : Bool :=
  if shift.isLeft then value.getLsbD 7 else value.getLsbD 0

/-- The bit that enters the byte at the end left free. -/
def Shift.incoming (shift : Shift) (value : Byte) (carry : Bool) : Bool :=
  match shift with
  | .rotateLeft => value.getLsbD 7
  | .rotateRight => value.getLsbD 0
  | .rotateLeftCarry | .rotateRightCarry => carry
  | .shiftRightSigned => value.getLsbD 7
  | .shiftLeftOne => true
  | .shiftLeft | .shiftRight => false

namespace Arithmetic

/-- The byte moved by one place, with the incoming bit at the end left free. -/
def moved (shift : Shift) (value : Byte) (carry : Bool) : Byte :=
  let bit := BitVec.ofBool (shift.incoming value carry)
  if shift.isLeft then value.extractLsb' 0 7 ++ bit else bit ++ value.extractLsb' 1 7

/-- A rotation or shift of a byte, with the flags of a logical result and the outgoing bit. -/
def shift (kind : Shift) (value : Byte) (carry : Bool) : Outcome 8 :=
  let result := moved kind value carry
  { value := result
    flags := { Flags.ofLogic result with c := kind.outgoing value } }

/-- The short rotations of the accumulator: sign, zero and parity survive. -/
def rotateAccumulator (kind : Shift) (accumulator : Byte) (flags : Flags) : Outcome 8 :=
  let result := moved kind accumulator flags.c
  { value := result
    flags :=
      { flags.withCopies result with
        h := false, n := false, c := kind.outgoing accumulator } }

/-- BIT. The undocumented copies come from `source`: the operand itself for a register, the high
byte of an address for memory. -/
def testBit (bit : BitVec 3) (value source : Byte) (flags : Flags) : Flags :=
  let tested := value.getLsbD bit.toNat
  { s := tested && bit == 7
    z := !tested
    y := source.getLsbD 5
    h := true
    x := source.getLsbD 3
    p := !tested
    n := false
    c := flags.c }

/-- SET. -/
def setBit (bit : BitVec 3) (value : Byte) : Byte := value ||| BitVec.twoPow 8 bit.toNat

/-- RES. -/
def resetBit (bit : BitVec 3) (value : Byte) : Byte := value &&& ~~~BitVec.twoPow 8 bit.toNat

end Arithmetic

end Z80
