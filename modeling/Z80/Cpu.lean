import Z80.Instruction.Page
import Z80.Lines
import Z80.Registers
import Z80.Tacts

/-!
# The state of the processor

A snapshot holds all that decides what the processor does from now on: the registers and the
latches between one step and the next. The processor itself also holds its output lines, the time
of the last step, and the part of that time that single ticks have still to spend.
-/

namespace Z80

/-- The registers and latches. -/
structure Snapshot where
  registers : Registers := {}
  /-- HALT has run, and no interrupt was accepted since. -/
  halted : Bool := false
  /-- The page selected by the prefix bytes fetched so far. -/
  pending : Option Page := none
  /-- Interrupts are not sampled at the next boundary. -/
  suppressed : Bool := false
  /-- The last instruction loaded the accumulator from I or R. -/
  enableCopied : Bool := false
  /-- The flags as this instruction wrote them; clear if it left them alone. -/
  written : Flags := {}
  /-- What `written` was after the instruction before. -/
  writtenBefore : Flags := {}
  /-- A non-maskable interrupt was seen and not yet acknowledged. -/
  nmiPending : Bool := false
  /-- The last step went back to repeat a block instruction. -/
  looping : Bool := false
  /-- Whether the instruction that the last interrupt came after was a repeating one. -/
  loopInterrupted : Bool := false
  /-- The last byte fetched as an opcode or prefix, or taken from the data lines. -/
  lastFetched : Byte := 0
  /-- The last opcode executed. -/
  lastOpcode : Byte := 0
  /-- The time since the processor was made. -/
  total : Tacts := 0
deriving DecidableEq, Inhabited

/-- The processor. -/
structure Cpu extends Snapshot where
  outputs : Outputs := {}
  /-- Tacts of the last step. -/
  stepTacts : Nat := 0
  /-- Tacts of the last step that ticks have not spent yet. -/
  backlog : Nat := 0
deriving DecidableEq, Inhabited

namespace Cpu

/-- Bring the registers and latches into the state that a reset gives. The general registers, the
index registers, WZ, the time and the last opcodes stay. -/
def clear (cpu : Cpu) : Cpu :=
  { cpu with
    registers :=
      { cpu.registers with
        accumulator := .ofWord 0xFFFF
        accumulatorAlternate := .ofWord 0xFFFF
        pc := 0
        sp := 0xFFFF
        i := 0
        r := 0
        iff1 := false
        iff2 := false
        im := .injected }
    halted := false
    pending := none
    suppressed := false
    enableCopied := false
    written := {}
    writtenBefore := {}
    nmiPending := false
    looping := false
    loopInterrupted := false
    outputs := {}
    backlog := 0 }

/-- Reset at once, in no time. -/
def reset (cpu : Cpu) : Cpu := { cpu.clear with stepTacts := 0 }

/-- A processor that was just reset. -/
def fresh : Cpu := clear {}

/-- The registers and latches of the processor. -/
def snapshot (cpu : Cpu) : Snapshot := cpu.toSnapshot

/-- The processor that a snapshot describes, at the end of a step. -/
def ofSnapshot (snapshot : Snapshot) : Cpu :=
  { snapshot with outputs := { m1 := false, halt := snapshot.halted } }

/-- Put a snapshot back into a processor. All of its state is replaced. -/
def restore (_cpu : Cpu) (snapshot : Snapshot) : Cpu := ofSnapshot snapshot

/-- A prefix was fetched and its opcode was not. -/
def prefixPending (cpu : Cpu) : Bool := cpu.pending.isSome

/-- The processor with its registers changed. -/
def updateRegisters (cpu : Cpu) (change : Registers → Registers) : Cpu :=
  { cpu with registers := change cpu.registers }

/-- Two processors hold the same registers, apart from WZ, and, if `opcodes` asks for it, last saw
the same opcodes. -/
def sameState (cpu other : Cpu) (opcodes : Bool) : Bool :=
  ({ cpu.registers with wz := 0 } : Registers) == { other.registers with wz := 0 } &&
    (!opcodes || (cpu.lastFetched == other.lastFetched && cpu.lastOpcode == other.lastOpcode))

end Cpu

end Z80
