import Z80.Cpu
import Z80.Registers.Selection

/-!
# Keeping processors together

Boards that run several processors from one clock keep them together by giving one the interrupt
state and some registers of another.
-/

namespace Z80.Cpu

/-- Take the interrupt and prefix state of another processor, and the selected registers. -/
def align (cpu source : Cpu) (selection : Selection) : Cpu :=
  let regs :=
    { cpu.registers with
      iff1 := source.registers.iff1
      iff2 := source.registers.iff2
      im := source.registers.im
      i := source.registers.i
      r := source.registers.r }
  { cpu with
    registers := selection.copy source.registers regs
    pending := source.pending
    looping := source.looping
    loopInterrupted := source.loopInterrupted
    suppressed := source.suppressed
    nmiPending := source.nmiPending }

end Z80.Cpu
