import Z80.Arithmetic.Sum
import Z80.Cpu.Exec
import Z80.Instruction.Operand

/-!
# Accesses

The parts that instructions are made of: fetches from the instruction stream, data accesses, the
stack, the registers that opcode fields name, and the questions that let the bus replace a register
value.
-/

namespace Z80

namespace Registers

/-- The value of a register that is put to work, as a word. -/
def sourceValue (regs : Registers) : Source → Word
  | .a => Word.ofBytes 0 regs.a
  | .b => Word.ofBytes 0 regs.general.b
  | .i => Word.ofBytes 0 regs.i
  | .bc => regs.bc
  | .de => regs.de
  | .hl => regs.hl
  | .ix => regs.ix
  | .iy => regs.iy
  | .sp => regs.sp

/-- The register that stands in the place of HL. -/
def index (regs : Registers) : Index → Word
  | .hl => regs.hl
  | .ix => regs.ix
  | .iy => regs.iy

/-- Write the register that stands in the place of HL. -/
def setIndex (regs : Registers) (index : Index) (word : Word) : Registers :=
  match index with
  | .hl => regs.setHL word
  | .ix => { regs with ix := word }
  | .iy => { regs with iy := word }

/-- A register named by an opcode field. H and L are the halves of the register that stands in the
place of HL. -/
def reg (regs : Registers) (index : Index) : Reg → Byte
  | .b => regs.general.b
  | .c => regs.general.c
  | .d => regs.general.d
  | .e => regs.general.e
  | .h => Word.high (regs.index index)
  | .l => Word.low (regs.index index)
  | .a => regs.a

/-- Write a register named by an opcode field. -/
def setReg (regs : Registers) (index : Index) (register : Reg) (byte : Byte) : Registers :=
  match register with
  | .b => { regs with general := { regs.general with b := byte } }
  | .c => { regs with general := { regs.general with c := byte } }
  | .d => { regs with general := { regs.general with d := byte } }
  | .e => { regs with general := { regs.general with e := byte } }
  | .h => regs.setIndex index (Word.withHigh (regs.index index) byte)
  | .l => regs.setIndex index (Word.withLow (regs.index index) byte)
  | .a => regs.setA byte

/-- A register pair named by an opcode field. -/
def pair (regs : Registers) (index : Index) : Pair → Word
  | .bc => regs.bc
  | .de => regs.de
  | .index => regs.index index
  | .sp => regs.sp

/-- Write a register pair named by an opcode field. -/
def setPair (regs : Registers) (index : Index) (pair : Pair) (word : Word) : Registers :=
  match pair with
  | .bc => regs.setBC word
  | .de => regs.setDE word
  | .index => regs.setIndex index word
  | .sp => { regs with sp := word }

/-- A pair that is pushed. -/
def stackPair (regs : Registers) (index : Index) : StackPair → Word
  | .bc => regs.bc
  | .de => regs.de
  | .index => regs.index index
  | .af => regs.af

/-- Write a pair that is popped. -/
def setStackPair (regs : Registers) (index : Index) (pair : StackPair) (word : Word) :
    Registers :=
  match pair with
  | .bc => regs.setBC word
  | .de => regs.setDE word
  | .index => regs.setIndex index word
  | .af => regs.setAF word

end Registers

/-- The register as one whose value is put to work. -/
def Index.toSource : Index → Source
  | .hl => .hl
  | .ix => .ix
  | .iy => .iy

/-- The pair as one whose value is put to work. -/
def AddressPair.toSource : AddressPair → Source
  | .bc => .bc
  | .de => .de

namespace Exec

/-- Write the flags, and note that they were written. -/
def writeFlags (flags : Flags) : Exec Unit :=
  modify fun cpu => { cpu.updateRegisters (·.setF flags) with written := flags }

/-- Write the accumulator and the flags. -/
def writeAccumulator (outcome : Arithmetic.Outcome 8) : Exec Unit := do
  updateRegisters (·.setA outcome.value)
  writeFlags outcome.flags

/-- Write the address latch. -/
def latch (address : Word) : Exec Unit := updateRegisters fun regs => { regs with wz := address }

/-- Write the program counter. -/
def goTo (address : Word) : Exec Unit := updateRegisters fun regs => { regs with pc := address }

/-- Fetch an opcode or prefix byte. This refreshes and asserts M1. -/
def fetchOpcode : Exec Byte := do
  let opcode ← readFor .opcode (← registers).pc
  modify fun cpu =>
    { cpu.updateRegisters fun regs => { regs.refresh with pc := regs.pc + 1 } with
      lastFetched := opcode
      outputs := { cpu.outputs with m1 := true } }
  return opcode

/-- Fetch another byte of the instruction stream. -/
def fetchOperand : Exec Byte := do
  let byte ← readFor .operand (← registers).pc
  updateRegisters fun regs => { regs with pc := regs.pc + 1 }
  return byte

/-- Fetch a word of the instruction stream, low byte first. -/
def fetchWord : Exec Word := do
  let low ← fetchOperand
  let high ← fetchOperand
  return Word.ofBytes high low

/-- Read a byte to work with. -/
def read (address : Word) : Exec Byte := readFor .data address

/-- Read a word, low byte first. -/
def readWord (address : Word) : Exec Word := do
  let low ← read address
  let high ← read (address + 1)
  return Word.ofBytes high low

/-- Write a word, low byte first. -/
def writeWord (address : Word) (value : Word) : Exec Unit := do
  write address (Word.low value)
  write (address + 1) (Word.high value)

/-- The address to use for a register. -/
def pointer (source : Source) : Exec Word := do
  pointerFor source ((← registers).sourceValue source)

/-- The port to use for a register. -/
def portAddress (source : Source) : Exec Word := do
  portFor source ((← registers).sourceValue source)

/-- The byte to use for a register. -/
def byteValue (source : Source) : Exec Byte := do
  byteFor source (Word.low ((← registers).sourceValue source))

/-- The count to use for a pair. -/
def pairValue (source : Source) : Exec Word := do
  pairFor source ((← registers).sourceValue source)

/-- Push a word, high byte first. -/
def pushWord (value : Word) : Exec Unit := do
  -- The stack pointer goes on from the address that the bus gives for it.
  let sp ← pointer .sp
  write (sp - 1) (Word.high value)
  write (sp - 2) (Word.low value)
  updateRegisters fun regs => { regs with sp := sp - 2 }

/-- Pop a word. -/
def popWord : Exec Word := do
  let sp ← pointer .sp
  let value ← readWord sp
  updateRegisters fun regs => { regs with sp := sp + 2 }
  return value

/-- The address of a memory operand: HL, or an index register with the offset that follows the
opcode. An indexed address is latched. -/
def operandAddress (index : Index) : Exec Word :=
  match index with
  | .hl => pointer .hl
  | index => do
    -- The offset is fetched before the bus is asked for the base.
    let offset ← fetchOperand
    let base ← pointer index.toSource
    let address := Word.displaced base offset
    latch address
    return address

end Exec

end Z80
