import Z80.Arithmetic.Sum

/-!
# Eight-bit arithmetic

Operations on the accumulator and on single bytes. Each takes its operands, and the old flags
where some of them survive, and gives the result with the complete new flags.
-/

namespace Z80

/-- The eight operations that combine the accumulator with a byte. -/
inductive AccumulatorOp where
  | add | addCarry | subtract | subtractCarry | and | xor | or | compare
deriving DecidableEq, Inhabited

/-- The operation named by a three-bit opcode field. -/
def AccumulatorOp.ofField (field : BitVec 3) : AccumulatorOp :=
  match field.toNat with
  | 0 => .add
  | 1 => .addCarry
  | 2 => .subtract
  | 3 => .subtractCarry
  | 4 => .and
  | 5 => .xor
  | 6 => .or
  | _ => .compare

namespace Arithmetic

/-- ADD and ADC. -/
def add (left right : Byte) (carry : Bool) : Outcome 8 :=
  let value := sum left right carry
  { value
    flags :=
      { Flags.ofResult value with
        h := carries 4 left right carry
        p := sumOverflows left right carry
        c := carries 8 left right carry } }

/-- SUB and SBC. -/
def subtract (left right : Byte) (borrow : Bool) : Outcome 8 :=
  let value := difference left right borrow
  { value
    flags :=
      { Flags.ofResult value with
        h := borrows 4 left right borrow
        p := differenceOverflows left right borrow
        n := true
        c := borrows 8 left right borrow } }

/-- CP: the flags of a subtraction, with the undocumented copies taken from the operand. -/
def compare (left right : Byte) : Flags :=
  (subtract left right false).flags.withCopies right

/-- AND. -/
def and (left right : Byte) : Outcome 8 :=
  { value := left &&& right, flags := { Flags.ofLogic (left &&& right) with h := true } }

/-- OR. -/
def or (left right : Byte) : Outcome 8 :=
  { value := left ||| right, flags := Flags.ofLogic (left ||| right) }

/-- XOR. -/
def xor (left right : Byte) : Outcome 8 :=
  { value := left ^^^ right, flags := Flags.ofLogic (left ^^^ right) }

/-- The new accumulator and flags of one of the eight operations. -/
def accumulate (op : AccumulatorOp) (accumulator operand : Byte) (flags : Flags) : Outcome 8 :=
  match op with
  | .add => add accumulator operand false
  | .addCarry => add accumulator operand flags.c
  | .subtract => subtract accumulator operand false
  | .subtractCarry => subtract accumulator operand flags.c
  | .and => and accumulator operand
  | .xor => xor accumulator operand
  | .or => or accumulator operand
  | .compare => { value := accumulator, flags := compare accumulator operand }

/-- INC of a byte. The carry survives. -/
def increment (value : Byte) (flags : Flags) : Outcome 8 :=
  let result := value + 1
  { value := result
    flags :=
      { Flags.ofResult result with
        h := value.toNat % 16 == 15
        p := value == 0x7F
        c := flags.c } }

/-- DEC of a byte. The carry survives. -/
def decrement (value : Byte) (flags : Flags) : Outcome 8 :=
  let result := value - 1
  { value := result
    flags :=
      { Flags.ofResult result with
        h := value.toNat % 16 == 0
        p := value == 0x80
        n := true
        c := flags.c } }

/-- NEG. -/
def negate (value : Byte) : Outcome 8 := subtract 0 value false

/-- CPL. -/
def complement (value : Byte) (flags : Flags) : Outcome 8 :=
  { value := ~~~value
    flags := { flags.withCopies (~~~value) with h := true, n := true } }

/-- DAA: correct the accumulator after an addition or subtraction of packed decimal digits. -/
def decimalAdjust (accumulator : Byte) (flags : Flags) : Outcome 8 :=
  let digit := accumulator.toNat % 16
  let lowOff := flags.h || decide (9 < digit)
  let highOff := flags.c || decide (0x99 < accumulator.toNat)
  let correction : Byte := (if lowOff then 0x06 else 0) + (if highOff then 0x60 else 0)
  let value := if flags.n then accumulator - correction else accumulator + correction
  { value
    flags :=
      { Flags.ofLogic value with
        h := if flags.n then flags.h && decide (digit < 6) else decide (9 < digit)
        n := flags.n
        c := highOff } }

/-- The undocumented copies that SCF and CCF make: the accumulator, joined with the flags unless
the instruction before has just written them. -/
def carryCopies (accumulator : Byte) (flags written : Flags) : Flags :=
  { flags with
    y := (written.y ^^ flags.y) || accumulator.getLsbD 5
    x := (written.x ^^ flags.x) || accumulator.getLsbD 3 }

/-- SCF. `written` holds the flags if the instruction before wrote them, and is clear otherwise. -/
def setCarry (accumulator : Byte) (flags written : Flags) : Flags :=
  { carryCopies accumulator flags written with h := false, n := false, c := true }

/-- CCF. The half carry takes the old carry. -/
def complementCarry (accumulator : Byte) (flags written : Flags) : Flags :=
  { carryCopies accumulator flags written with h := flags.c, n := false, c := !flags.c }

end Arithmetic

end Z80
