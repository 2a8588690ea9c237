import Z80.Arithmetic.Accumulator
import Z80.Arithmetic.Pair
import Z80.Arithmetic.Shift
import Z80.Cpu.Access
import Z80.Instruction.Operation

/-!
# Executing the main operations

Each operation makes its accesses in the order of the hardware. The answer tells whether a
conditional jump, call or return was taken, which makes the operation longer.
-/

namespace Z80

open Exec

namespace Exec

/-- A computation that no condition makes longer. -/
def untaken (body : Exec Unit) : Exec Bool := do
  body
  return false

/-- Jump by a signed offset. -/
def jumpBy (offset : Byte) : Exec Unit := do
  let target := Word.displaced (← registers).pc offset
  goTo target
  latch target

/-- Jump to an address and latch it. -/
def jumpTo (target : Word) : Exec Unit := do
  goTo target
  latch target

/-- Return to the address on the stack. -/
def returnToCaller : Exec Unit := do
  let target ← popWord
  jumpTo target

/-- Call an address. -/
def callTo (target : Word) : Exec Unit := do
  pushWord (← registers).pc
  goTo target

/-- The flags as they are. -/
def flags : Exec Flags := return (← registers).f

/-- Read an operand of eight bits. -/
def readPlace (index : Index) (place : Place) : Exec Byte :=
  match place with
  | .register register => return (← registers).reg index register
  | .memory => do read (← operandAddress index)

/-- Change an operand of eight bits and write the flags. -/
def modifyPlace (index : Index) (place : Place)
    (change : Byte → Flags → Arithmetic.Outcome 8) : Exec Unit :=
  match place with
  | .register register => do
    let outcome := change ((← registers).reg index register) (← flags)
    updateRegisters (·.setReg index register outcome.value)
    writeFlags outcome.flags
  | .memory => do
    let address ← operandAddress index
    let outcome := change (← read address) (← flags)
    write address outcome.value
    writeFlags outcome.flags

/-- Combine the accumulator with an operand. -/
def combine (op : AccumulatorOp) (operand : Byte) : Exec Unit := do
  writeAccumulator (Arithmetic.accumulate op (← registers).a operand (← flags))

/-- What storing the accumulator leaves in the address latch. -/
def latchStore (address : Word) : Exec Unit := do
  latch (Word.ofBytes (← registers).a (Word.low (address + 1)))

end Exec

/-- Run an operation with a register in the place of HL. -/
def Operation.execute (index : Index) : Operation → Exec Bool
  | .nop => untaken (return ())
  | .exchangeAccumulators => untaken (updateRegisters (·.swapAccumulator))
  | .countAndJump => do
    let offset ← fetchOperand
    let count := (← byteValue .b) - 1
    updateRegisters (·.setReg .hl .b count)
    if count ≠ 0 then
      jumpBy offset
      return true
    else return false
  | .jumpRelative => untaken do
    let offset ← fetchOperand
    jumpBy offset
  | .jumpRelativeIf condition => do
    let offset ← fetchOperand
    if condition.holds (← flags) then
      jumpBy offset
      return true
    else return false
  | .loadPair pair => untaken do
    let value ← fetchWord
    updateRegisters (·.setPair index pair value)
  | .addPair pair => untaken do
    let regs ← registers
    let outcome := Arithmetic.addPair (regs.index index) (regs.pair index pair) regs.f
    latch (regs.index index + 1)
    updateRegisters (·.setIndex index outcome.value)
    writeFlags outcome.flags
  | .storeIndirect pair => untaken do
    let address ← pointer pair.toSource
    write address (← registers).a
    latchStore address
  | .loadIndirect pair => untaken do
    let address ← pointer pair.toSource
    let value ← read address
    updateRegisters (·.setA value)
    latch (address + 1)
  | .storeIndex => untaken do
    let address ← fetchWord
    writeWord address ((← registers).index index)
    latch (address + 1)
  | .loadIndex => untaken do
    let address ← fetchWord
    let value ← readWord address
    updateRegisters (·.setIndex index value)
    latch (address + 1)
  | .storeAccumulator => untaken do
    let address ← fetchWord
    write address (← registers).a
    latchStore address
  | .loadAccumulator => untaken do
    let address ← fetchWord
    let value ← read address
    updateRegisters (·.setA value)
    latch (address + 1)
  | .incrementPair pair => untaken
    (updateRegisters fun regs => regs.setPair index pair (regs.pair index pair + 1))
  | .decrementPair pair => untaken
    (updateRegisters fun regs => regs.setPair index pair (regs.pair index pair - 1))
  | .increment place => untaken (modifyPlace index place Arithmetic.increment)
  | .decrement place => untaken (modifyPlace index place Arithmetic.decrement)
  | .loadImmediate (.register register) => untaken do
    let value ← fetchOperand
    updateRegisters (·.setReg index register value)
  | .loadImmediate .memory => untaken do
    let address ← operandAddress index
    let value ← fetchOperand
    write address value
  | .rotateAccumulator kind => untaken do
    writeAccumulator (Arithmetic.rotateAccumulator kind (← registers).a (← flags))
  | .decimalAdjust => untaken do
    writeAccumulator (Arithmetic.decimalAdjust (← registers).a (← flags))
  | .complement => untaken do
    writeAccumulator (Arithmetic.complement (← registers).a (← flags))
  | .setCarry => untaken do
    writeFlags (Arithmetic.setCarry (← registers).a (← flags) (← get).writtenBefore)
  | .complementCarry => untaken do
    writeFlags (Arithmetic.complementCarry (← registers).a (← flags) (← get).writtenBefore)
  | .halt => untaken (modify fun cpu => { cpu with halted := true })
  | .load target source => untaken
    (updateRegisters fun regs => regs.setReg index target (regs.reg index source))
  -- Beside a memory operand, H and L are always the real ones.
  | .loadMemory target => untaken do
    let value ← read (← operandAddress index)
    updateRegisters (·.setReg .hl target value)
  | .storeMemory source => untaken do
    let address ← operandAddress index
    write address ((← registers).reg .hl source)
  | .accumulate op place => untaken do
    let operand ← readPlace index place
    combine op operand
  | .accumulateImmediate op => untaken do
    let operand ← fetchOperand
    combine op operand
  | .returnIf condition => do
    if condition.holds (← flags) then
      returnToCaller
      return true
    else return false
  | .pop pair => untaken do
    let value ← popWord
    updateRegisters (·.setStackPair index pair value)
  | .ret => untaken returnToCaller
  | .exchangeGeneral => untaken (updateRegisters (·.swapGeneral))
  | .jumpIndex => untaken (updateRegisters fun regs => { regs with pc := regs.index index })
  | .loadStackPointer => untaken
    (updateRegisters fun regs => { regs with sp := regs.index index })
  | .jumpIf condition => untaken do
    let target ← fetchWord
    latch target
    if condition.holds (← flags) then goTo target
  | .jump => untaken do
    let target ← fetchWord
    jumpTo target
  | .outputImmediate => untaken do
    let low ← fetchOperand
    let value := (← registers).a
    let high ← portAddress .a
    output (Word.ofBytes (Word.low high) low) value
    latch (Word.ofBytes value (low + 1))
  | .inputImmediate => untaken do
    let low ← fetchOperand
    let high ← portAddress .a
    let port := Word.ofBytes (Word.low high) low
    let value ← input port
    updateRegisters (·.setA value)
    latch (port + 1)
  | .exchangeStack => untaken do
    let sp ← pointer .sp
    let value ← readWord sp
    let old := (← registers).index index
    -- The bytes are read upwards and written downwards.
    write (sp + 1) (Word.high old)
    write sp (Word.low old)
    updateRegisters (·.setIndex index value)
    latch value
  -- This exchange has HL itself on every page.
  | .exchangePairs => untaken
    (updateRegisters fun regs => (regs.setDE regs.hl).setHL regs.de)
  | .disableInterrupts => untaken
    (updateRegisters fun regs => { regs with iff1 := false, iff2 := false })
  | .enableInterrupts => untaken (modify fun cpu =>
    { cpu.updateRegisters fun regs => { regs with iff1 := true, iff2 := true } with
      suppressed := true })
  | .callIf condition => do
    let target ← fetchWord
    latch target
    if condition.holds (← flags) then
      callTo target
      return true
    else return false
  | .push pair => untaken do pushWord ((← registers).stackPair index pair)
  | .call => untaken do
    let target ← fetchWord
    latch target
    callTo target
  | .restart number => untaken do
    let target : Word := number.setWidth 16 * 8
    callTo target
    latch target

end Z80
