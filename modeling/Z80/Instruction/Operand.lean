import Z80.Flags
import Z80.Registers

/-!
# Opcode fields and what they name

An opcode splits into a two-bit group and two three-bit fields. The fields name registers, register
pairs, conditions and bit positions.
-/

namespace Z80

namespace Opcode

/-- Bits 6 and 7: the group of the opcode. -/
def group (opcode : Byte) : BitVec 2 := opcode.extractLsb' 6 2

/-- Bits 3 to 5: the target, the operation or the condition. -/
def target (opcode : Byte) : BitVec 3 := opcode.extractLsb' 3 3

/-- Bits 0 to 2: the source, or the kind of instruction within the group. -/
def source (opcode : Byte) : BitVec 3 := opcode.extractLsb' 0 3

/-- Bits 4 and 5: the register pair. -/
def pair (opcode : Byte) : BitVec 2 := opcode.extractLsb' 4 2

end Opcode

/-- A byte register that an opcode field can name. -/
inductive Reg where
  | b | c | d | e | h | l | a
deriving DecidableEq, Inhabited

/-- An eight-bit operand: a register, or the byte that HL, IX or IY points to. -/
inductive Place where
  | register (register : Reg)
  | memory
deriving DecidableEq, Inhabited

/-- The operand named by a three-bit field. -/
def Place.ofField (field : BitVec 3) : Place :=
  match field.toNat with
  | 0 => .register .b
  | 1 => .register .c
  | 2 => .register .d
  | 3 => .register .e
  | 4 => .register .h
  | 5 => .register .l
  | 6 => .memory
  | _ => .register .a

/-- The register of an operand that is one. -/
def Place.register? : Place → Option Reg
  | .register reg => some reg
  | .memory => none

/-- The register that stands where the main page has HL. -/
inductive Index where
  | hl | ix | iy
deriving DecidableEq, Inhabited

/-- A register pair of the arithmetical instructions. -/
inductive Pair where
  | bc | de | index | sp
deriving DecidableEq, Inhabited

/-- The pair named by a two-bit field. -/
def Pair.ofField (field : BitVec 2) : Pair :=
  match field.toNat with
  | 0 => .bc
  | 1 => .de
  | 2 => .index
  | _ => .sp

/-- A register pair that is pushed and popped. -/
inductive StackPair where
  | bc | de | index | af
deriving DecidableEq, Inhabited

/-- The stacked pair named by a two-bit field. -/
def StackPair.ofField (field : BitVec 2) : StackPair :=
  match field.toNat with
  | 0 => .bc
  | 1 => .de
  | 2 => .index
  | _ => .af

/-- A pair that points to the byte loaded into the accumulator or stored from it. -/
inductive AddressPair where
  | bc | de
deriving DecidableEq, Inhabited

/-- A condition on the flags. -/
inductive Condition where
  | notZero | zero | noCarry | carry | parityOdd | parityEven | plus | minus
deriving DecidableEq, Inhabited

/-- The condition named by a three-bit field. -/
def Condition.ofField (field : BitVec 3) : Condition :=
  match field.toNat with
  | 0 => .notZero
  | 1 => .zero
  | 2 => .noCarry
  | 3 => .carry
  | 4 => .parityOdd
  | 5 => .parityEven
  | 6 => .plus
  | _ => .minus

/-- The flags meet the condition. -/
def Condition.holds (condition : Condition) (flags : Flags) : Bool :=
  match condition with
  | .notZero => !flags.z
  | .zero => flags.z
  | .noCarry => !flags.c
  | .carry => flags.c
  | .parityOdd => !flags.p
  | .parityEven => flags.p
  | .plus => !flags.s
  | .minus => flags.s

end Z80
