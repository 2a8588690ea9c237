import Z80.Cpu
import Z80.Text.Hex

/-!
# The state as text

The state string has the registers, the interrupt state and the last opcodes. The latch string has
what the state string leaves out. Words are written with four hexadecimal digits and bytes with
two.
-/

namespace Z80

open Text

/-- How a truth value is written out. -/
def truthText (value : Bool) : String := if value then "true" else "false"

/-- How a truth value is written with one digit. -/
def digitText (value : Bool) : String := if value then "1" else "0"

/-- A name and a value. -/
def fieldText (field : String × String) : String := field.1 ++ "=" ++ field.2

/-- Fields one after the other, parted by commas. -/
def fieldsText (fields : List (String × String)) : String :=
  ",".intercalate (fields.map fieldText)

namespace Cpu

/-- The fields of the state string. -/
def stateFields (cpu : Cpu) : List (String × String) :=
  let regs := cpu.registers
  [("PC", Hex.ofWord regs.pc), ("SP", Hex.ofWord regs.sp),
    ("IX", Hex.ofWord regs.ix), ("IY", Hex.ofWord regs.iy),
    ("AF", Hex.ofWord regs.af), ("BC", Hex.ofWord regs.bc),
    ("DE", Hex.ofWord regs.de), ("HL", Hex.ofWord regs.hl),
    ("AF'", Hex.ofWord regs.accumulatorAlternate.af),
    ("BC'", Hex.ofWord regs.generalAlternate.bc),
    ("DE'", Hex.ofWord regs.generalAlternate.de),
    ("HL'", Hex.ofWord regs.generalAlternate.hl),
    ("R", Hex.ofByte regs.r), ("I", Hex.ofByte regs.i),
    ("IM", Decimal.write regs.im.number.toNat),
    ("IFF1", truthText regs.iff1), ("IFF2", truthText regs.iff2),
    ("M1", Hex.ofByte cpu.lastFetched), ("OP", Hex.ofByte cpu.lastOpcode)]

/-- The state string. -/
def stateText (cpu : Cpu) : String := fieldsText cpu.stateFields

/-- The fields of the latch string. -/
def latchFields (cpu : Cpu) : List (String × String) :=
  [("WZ", Hex.ofWord cpu.registers.wz),
    ("Q", Hex.ofByte cpu.written.toByte), ("LQ", Hex.ofByte cpu.writtenBefore.toByte),
    ("HALT", digitText cpu.halted), ("PRE", cpu.pending.elim "-" Page.name),
    ("EI", digitText cpu.suppressed), ("P", digitText cpu.enableCopied),
    ("NMI", digitText cpu.nmiPending), ("LOOP", digitText cpu.looping),
    ("SAVED", digitText cpu.loopInterrupted),
    ("OUT", Decimal.write cpu.outputs.toBits.toNat),
    ("ST", Decimal.write cpu.stepTacts), ("TT", cpu.total.text)]

/-- The latch string. -/
def latchText (cpu : Cpu) : String := fieldsText cpu.latchFields

end Cpu

end Z80
