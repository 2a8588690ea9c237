import Z80.Arithmetic.Accumulator
import Z80.Arithmetic.Shift
import Z80.Instruction.Operand

/-!
# Operations

What the opcodes of each page do: the operations of the main page, which the index pages share
with another register in the place of HL, the operations on single bits and rotations, and the
extended operations with the block instructions.
-/

namespace Z80

/-- An operation of the main page or of an index page. -/
inductive Operation where
  | nop
  | exchangeAccumulators
  /-- DJNZ. -/
  | countAndJump
  | jumpRelative
  | jumpRelativeIf (condition : Condition)
  | loadPair (pair : Pair)
  | addPair (pair : Pair)
  /-- LD (BC),A and LD (DE),A. -/
  | storeIndirect (pair : AddressPair)
  /-- LD A,(BC) and LD A,(DE). -/
  | loadIndirect (pair : AddressPair)
  /-- LD (nn),HL. -/
  | storeIndex
  /-- LD HL,(nn). -/
  | loadIndex
  /-- LD (nn),A. -/
  | storeAccumulator
  /-- LD A,(nn). -/
  | loadAccumulator
  | incrementPair (pair : Pair)
  | decrementPair (pair : Pair)
  | increment (place : Place)
  | decrement (place : Place)
  | loadImmediate (place : Place)
  | rotateAccumulator (kind : Shift)
  | decimalAdjust
  | complement
  | setCarry
  | complementCarry
  | halt
  | load (target source : Reg)
  | loadMemory (target : Reg)
  | storeMemory (source : Reg)
  | accumulate (op : AccumulatorOp) (place : Place)
  | accumulateImmediate (op : AccumulatorOp)
  | returnIf (condition : Condition)
  | pop (pair : StackPair)
  | ret
  /-- EXX. -/
  | exchangeGeneral
  /-- JP (HL). -/
  | jumpIndex
  /-- LD SP,HL. -/
  | loadStackPointer
  | jumpIf (condition : Condition)
  | jump
  /-- OUT (n),A. -/
  | outputImmediate
  /-- IN A,(n). -/
  | inputImmediate
  /-- EX (SP),HL. -/
  | exchangeStack
  /-- EX DE,HL. -/
  | exchangePairs
  | disableInterrupts
  | enableInterrupts
  | callIf (condition : Condition)
  | push (pair : StackPair)
  | call
  | restart (number : BitVec 3)
deriving DecidableEq, Inhabited

/-- An operation on the bits of one byte. -/
inductive BitOperation where
  | shift (kind : Shift)
  | test (bit : BitVec 3)
  | reset (bit : BitVec 3)
  | set (bit : BitVec 3)
deriving DecidableEq, Inhabited

/-- What one step of a block instruction does. -/
inductive BlockAction where
  | transfer | compare | input | output
deriving DecidableEq, Inhabited

/-- A block instruction: its action, the direction in which addresses move and whether it
repeats. -/
structure BlockOperation where
  action : BlockAction
  upward : Bool
  repeats : Bool
deriving DecidableEq, Inhabited

/-- An operation of the extended page. -/
inductive ExtendedOperation where
  /-- IN r,(C); without a target only the flags are written. -/
  | input (target : Option Reg)
  /-- OUT (C),r; without a source a zero is written. -/
  | output (source : Option Reg)
  | subtractPair (pair : Pair)
  | addPair (pair : Pair)
  | storePair (pair : Pair)
  | loadPair (pair : Pair)
  | negate
  /-- RETN, or RETI if the bus is told. -/
  | returnFromInterrupt (told : Bool)
  | setMode (mode : InterruptMode)
  /-- LD I,A. -/
  | storeVectorPage
  /-- LD R,A. -/
  | storeRefresh
  /-- LD A,I. -/
  | loadVectorPage
  /-- LD A,R. -/
  | loadRefresh
  /-- RRD. -/
  | rotateDigitsRight
  /-- RLD. -/
  | rotateDigitsLeft
  | nop
  | block (operation : BlockOperation)
  /-- Does nothing, but holds interrupts off for one boundary. -/
  | undefined
deriving DecidableEq, Inhabited

/-- The operation of a main opcode, or nothing for the four bytes that select another page. -/
def Operation.ofOpcode? (opcode : Byte) : Option Operation :=
  let target := Opcode.target opcode
  let source := Opcode.source opcode
  let pair := Opcode.pair opcode
  match (Opcode.group opcode).toNat, source.toNat, target.toNat with
  | 0, 0, 0 => some .nop
  | 0, 0, 1 => some .exchangeAccumulators
  | 0, 0, 2 => some .countAndJump
  | 0, 0, 3 => some .jumpRelative
  | 0, 0, _ => some (.jumpRelativeIf (.ofField (target - 4)))
  | 0, 1, number =>
    some (if number % 2 = 0 then .loadPair (.ofField pair) else .addPair (.ofField pair))
  | 0, 2, 0 => some (.storeIndirect .bc)
  | 0, 2, 1 => some (.loadIndirect .bc)
  | 0, 2, 2 => some (.storeIndirect .de)
  | 0, 2, 3 => some (.loadIndirect .de)
  | 0, 2, 4 => some .storeIndex
  | 0, 2, 5 => some .loadIndex
  | 0, 2, 6 => some .storeAccumulator
  | 0, 2, _ => some .loadAccumulator
  | 0, 3, number =>
    some (if number % 2 = 0 then .incrementPair (.ofField pair) else .decrementPair (.ofField pair))
  | 0, 4, _ => some (.increment (.ofField target))
  | 0, 5, _ => some (.decrement (.ofField target))
  | 0, 6, _ => some (.loadImmediate (.ofField target))
  | 0, _, 4 => some .decimalAdjust
  | 0, _, 5 => some .complement
  | 0, _, 6 => some .setCarry
  | 0, _, 7 => some .complementCarry
  | 0, _, _ => some (.rotateAccumulator (.ofField target))
  | 1, _, _ =>
    match Place.ofField target, Place.ofField source with
    | .memory, .memory => some .halt
    | .register into, .memory => some (.loadMemory into)
    | .memory, .register origin => some (.storeMemory origin)
    | .register into, .register origin => some (.load into origin)
  | 2, _, _ => some (.accumulate (.ofField target) (.ofField source))
  | _, 0, _ => some (.returnIf (.ofField target))
  | _, 1, 1 => some .ret
  | _, 1, 3 => some .exchangeGeneral
  | _, 1, 5 => some .jumpIndex
  | _, 1, 7 => some .loadStackPointer
  | _, 1, _ => some (.pop (.ofField pair))
  | _, 2, _ => some (.jumpIf (.ofField target))
  | _, 3, 0 => some .jump
  | _, 3, 1 => none
  | _, 3, 2 => some .outputImmediate
  | _, 3, 3 => some .inputImmediate
  | _, 3, 4 => some .exchangeStack
  | _, 3, 5 => some .exchangePairs
  | _, 3, 6 => some .disableInterrupts
  | _, 3, _ => some .enableInterrupts
  | _, 4, _ => some (.callIf (.ofField target))
  | _, 5, 1 => some .call
  | _, 5, number => if number % 2 = 0 then some (.push (.ofField pair)) else none
  | _, 6, _ => some (.accumulateImmediate (.ofField target))
  | _, _, _ => some (.restart target)

/-- The operation of an opcode of the bit pages. -/
def BitOperation.ofOpcode (opcode : Byte) : BitOperation :=
  let target := Opcode.target opcode
  match (Opcode.group opcode).toNat with
  | 0 => .shift (.ofField target)
  | 1 => .test target
  | 2 => .reset target
  | _ => .set target

/-- The action named by the low field of a block opcode. -/
def BlockAction.ofField (field : BitVec 3) : BlockAction :=
  match field.toNat with
  | 0 => .transfer
  | 1 => .compare
  | 2 => .input
  | _ => .output

/-- The operation of an extended opcode, or nothing for the byte that selects the page again. -/
def ExtendedOperation.ofOpcode? (opcode : Byte) : Option ExtendedOperation :=
  let target := Opcode.target opcode
  let source := Opcode.source opcode
  let pair := Opcode.pair opcode
  match (Opcode.group opcode).toNat, source.toNat, target.toNat with
  | 1, 0, _ => some (.input (Place.ofField target).register?)
  | 1, 1, _ => some (.output (Place.ofField target).register?)
  | 1, 2, number =>
    some (if number % 2 = 0 then .subtractPair (.ofField pair) else .addPair (.ofField pair))
  | 1, 3, number =>
    some (if number % 2 = 0 then .storePair (.ofField pair) else .loadPair (.ofField pair))
  | 1, 4, _ => some .negate
  | 1, 5, number => some (.returnFromInterrupt (number == 1))
  | 1, 6, number =>
    match number % 4 with
    | 2 => some (.setMode .restart)
    | 3 => some (.setMode .vectored)
    | _ => some (.setMode .injected)
  | 1, _, 0 => some .storeVectorPage
  | 1, _, 1 => some .storeRefresh
  | 1, _, 2 => some .loadVectorPage
  | 1, _, 3 => some .loadRefresh
  | 1, _, 4 => some .rotateDigitsRight
  | 1, _, 5 => some .rotateDigitsLeft
  | 1, _, _ => some .nop
  | 2, kind, number =>
    if 4 ≤ number ∧ kind < 4 then
      some (.block
        { action := .ofField source, upward := number % 2 == 0, repeats := 6 ≤ number })
    else some .undefined
  | _, _, _ => if opcode = 0xED then none else some .undefined

end Z80
