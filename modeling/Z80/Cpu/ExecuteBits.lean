import Z80.Cpu.Execute

/-!
# Executing the bit operations

Rotations, shifts and single bits, on a register, on the byte that HL points to, and on an indexed
byte. An indexed operation can also copy what it stores into a register, and that is never an
index half.
-/

namespace Z80

open Exec

/-- Apply a bit operation to a byte. The byte to store comes back, or nothing for a test, whose
undocumented flags come from `source`. -/
def BitOperation.apply (operation : BitOperation) (value source : Byte) : Exec (Option Byte) :=
  match operation with
  | .shift kind => do
    let outcome := Arithmetic.shift kind value (← flags).c
    writeFlags outcome.flags
    return some outcome.value
  | .test bit => do
    writeFlags (Arithmetic.testBit bit value source (← flags))
    return none
  | .reset bit => return some (Arithmetic.resetBit bit value)
  | .set bit => return some (Arithmetic.setBit bit value)

/-- Run a bit operation on a register or on the byte that HL points to. -/
def BitOperation.execute (operation : BitOperation) : Place → Exec Unit
  | .register register => do
    let value := (← registers).reg .hl register
    match ← operation.apply value value with
    | some result => updateRegisters (·.setReg .hl register result)
    | none => return ()
  | .memory => do
    let address ← pointer .hl
    let value ← read address
    match ← operation.apply value (Word.high (← registers).wz) with
    | some result => write address result
    | none => return ()

/-- Run a bit operation on an indexed byte. -/
def BitOperation.executeIndexed (operation : BitOperation) (index : Index) (offset : Byte)
    (copy : Option Reg) : Exec Unit := do
  let address := Word.displaced (← pointer index.toSource) offset
  latch address
  let value ← read address
  match ← operation.apply value (Word.high address) with
  | some result =>
    write address result
    match copy with
    | some register => updateRegisters (·.setReg .hl register result)
    | none => return ()
  | none => return ()

end Z80
