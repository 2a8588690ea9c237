import Z80.Arithmetic.Block
import Z80.Cpu.Execute

/-!
# Executing the extended operations

The extended page, with the block instructions. A block instruction runs one step at a time: while
its count lasts it goes back to its own prefix byte, so that interrupts can come between two steps.
-/

namespace Z80

open Exec

namespace BlockOperation

/-- The address, port or register one step further on. -/
def advance {width : Nat} (operation : BlockOperation) (value : BitVec width) : BitVec width :=
  if operation.upward then value + 1 else value - 1

/-- Count BC down, from the value that the bus gives for it. -/
def countPair : Exec Word := do
  let count := (← pairValue .bc) - 1
  updateRegisters (·.setBC count)
  return count

/-- Count B down. -/
def countByte : Exec Byte := do
  let count := (← registers).general.b - 1
  updateRegisters (·.setReg .hl .b count)
  return count

/-- If the instruction repeats, go back to its first byte. The high byte of that address supplies
the undocumented flags. -/
def rewind (repeating : Bool) : Exec (Option Byte) := do
  if repeating then
    let start := (← registers).pc - 2
    goTo start
    latch (start + 1)
    return some (Word.high start)
  else return none

/-- Move a byte from HL to DE. -/
def transfer (operation : BlockOperation) (address : Word) : Exec Bool := do
  let value ← read address
  let target ← pointer .de
  write target value
  updateRegisters fun regs =>
    (regs.setHL (operation.advance address)).setDE (operation.advance target)
  let count ← countPair
  let repeating := operation.repeats && count != 0
  let rewound ← rewind repeating
  writeFlags (Arithmetic.blockTransfer (← flags) (← registers).a value count rewound)
  return repeating

/-- Compare the accumulator with the byte at HL. A match ends the repetition. -/
def compare (operation : BlockOperation) (address : Word) : Exec Bool := do
  let value ← read address
  updateRegisters (·.setHL (operation.advance address))
  let count ← countPair
  -- The address latch moves by itself here, and does not follow HL.
  updateRegisters fun regs => { regs with wz := operation.advance regs.wz }
  let repeating := operation.repeats && count != 0 && (← registers).a != value
  let rewound ← rewind repeating
  writeFlags (Arithmetic.blockCompare (← flags) (← registers).a value count rewound)
  return repeating

/-- Move a byte from port BC to HL. -/
def input (operation : BlockOperation) (address : Word) : Exec Bool := do
  -- The port has the count before this step in its high byte.
  let port ← portAddress .bc
  let value ← Exec.input port
  latch (operation.advance port)
  let count ← countByte
  write address value
  updateRegisters (·.setHL (operation.advance address))
  let stepped := operation.advance (← registers).general.c
  let repeating := operation.repeats && count != 0
  let rewound ← rewind repeating
  writeFlags
    (Arithmetic.blockPort value count (value.setWidth 16 + stepped.setWidth 16) rewound)
  return repeating

/-- Move a byte from HL to port BC, after B has counted down. -/
def output (operation : BlockOperation) (address : Word) : Exec Bool := do
  let value ← read address
  -- The port has the count after this step in its high byte.
  let count ← countByte
  let port ← portAddress .bc
  Exec.output port value
  latch (operation.advance port)
  updateRegisters (·.setHL (operation.advance address))
  let stepped := (← registers).general.l
  let repeating := operation.repeats && count != 0
  let rewound ← rewind repeating
  writeFlags
    (Arithmetic.blockPort value count (value.setWidth 16 + stepped.setWidth 16) rewound)
  return repeating

/-- What the action of a block instruction does with the address in HL. -/
def act (operation : BlockOperation) (address : Word) : Exec Bool :=
  match operation.action with
  | .transfer => operation.transfer address
  | .compare => operation.compare address
  | .input => operation.input address
  | .output => operation.output address

/-- Run one step of a block instruction. The answer tells whether it repeats. -/
def execute (operation : BlockOperation) : Exec Bool := do
  let repeating ← operation.act (← pointer .hl)
  modify fun cpu => { cpu with looping := repeating }
  return repeating

end BlockOperation

namespace Exec

/-- Load the accumulator from I or R. Parity takes the saved interrupt enable. -/
def loadSpecial (value : Byte) : Exec Unit := do
  let regs ← registers
  updateRegisters (·.setA value)
  writeFlags { Flags.ofResult value with p := regs.iff2, c := regs.f.c }
  modify fun cpu => { cpu with enableCopied := true }

/-- Rotate the three digits in the low half of the accumulator and in the byte at HL. `change`
gives the new digit of the accumulator and the new byte from the old digit and byte. -/
def rotateDigits (change : Byte → Byte → Byte × Byte) : Exec Unit := do
  let address ← pointer .hl
  let value ← read address
  let accumulator := (← registers).a
  let (digit, byte) := change (accumulator &&& 0x0F) value
  write address byte
  latch (address + 1)
  let result := (accumulator &&& 0xF0) ||| digit
  updateRegisters (·.setA result)
  writeFlags { Flags.ofLogic result with c := (← flags).c }

end Exec

/-- Run an extended operation. The answer tells whether a block instruction repeats. -/
def ExtendedOperation.execute : ExtendedOperation → Exec Bool
  | .input target => untaken do
    let port ← portAddress .bc
    let value ← Exec.input port
    latch (port + 1)
    writeFlags { Flags.ofLogic value with c := (← flags).c }
    match target with
    | some register => updateRegisters (·.setReg .hl register value)
    | none => return ()
  | .output source => untaken do
    let port ← portAddress .bc
    let regs ← registers
    Exec.output port (source.elim 0 (regs.reg .hl))
    latch (port + 1)
  | .subtractPair pair => untaken do
    let regs ← registers
    let outcome := Arithmetic.subtractPair regs.hl (regs.pair .hl pair) regs.f.c
    latch (regs.hl + 1)
    updateRegisters (·.setHL outcome.value)
    writeFlags outcome.flags
  | .addPair pair => untaken do
    let regs ← registers
    let outcome := Arithmetic.addPairCarry regs.hl (regs.pair .hl pair) regs.f.c
    latch (regs.hl + 1)
    updateRegisters (·.setHL outcome.value)
    writeFlags outcome.flags
  | .storePair pair => untaken do
    let address ← fetchWord
    writeWord address ((← registers).pair .hl pair)
    latch (address + 1)
  | .loadPair pair => untaken do
    let address ← fetchWord
    let value ← readWord address
    updateRegisters (·.setPair .hl pair value)
    latch (address + 1)
  | .negate => untaken do writeAccumulator (Arithmetic.negate (← registers).a)
  | .returnFromInterrupt told => untaken do
    returnToCaller
    modify fun cpu =>
      { cpu.updateRegisters fun regs => { regs with iff1 := regs.iff2 } with
        looping := cpu.loopInterrupted }
    if told then noteReturn
  | .setMode mode => untaken (updateRegisters fun regs => { regs with im := mode })
  | .storeVectorPage => untaken (updateRegisters fun regs => { regs with i := regs.a })
  | .storeRefresh => untaken (updateRegisters fun regs => { regs with r := regs.a })
  | .loadVectorPage => untaken do loadSpecial (← registers).i
  | .loadRefresh => untaken do loadSpecial (← registers).r
  | .rotateDigitsRight => untaken
    (rotateDigits fun digit byte => (byte &&& 0x0F, (digit <<< 4) ||| (byte >>> 4)))
  | .rotateDigitsLeft => untaken
    (rotateDigits fun digit byte => (byte >>> 4, (byte <<< 4) ||| digit))
  | .nop => untaken (return ())
  | .block operation => operation.execute
  | .undefined => untaken (modify fun cpu => { cpu with suppressed := true })

end Z80
