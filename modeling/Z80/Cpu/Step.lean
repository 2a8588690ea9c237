import Z80.Cpu.ExecuteBits
import Z80.Cpu.ExecuteExtended
import Z80.Instruction.Entry

/-!
# Steps

A step is one segment of the machine's work: a prefix byte, an opcode with its execution, the
acknowledgement of an interrupt, a reset, the fetch that a halted machine repeats, or one tact
spent waiting. Interrupts and resets are only looked at on an instruction boundary, so prefix
bytes are never parted from the opcode they belong to.

## Main definitions

* `Cpu.turn`: what the lines and latches make of the next step
* `Segment`: what a step was, with its time
* `Exec.step`: one step
-/

namespace Z80

/-- What a step has to do. -/
inductive Turn where
  /-- WAIT holds the machine. -/
  | stall
  /-- Fetch in the page that the prefix bytes have selected. -/
  | proceed (page : Page)
  | reset
  | nonMaskable
  | maskable
  /-- Fetch without going on, because the machine is halted. -/
  | idle
  /-- Begin an instruction. -/
  | begin
deriving DecidableEq

/-- What a step was. -/
inductive Segment where
  | stalled
  | reset
  /-- A non-maskable interrupt was acknowledged. -/
  | nonMaskable
  /-- A maskable interrupt was answered by a restart. -/
  | restarted
  /-- A maskable interrupt was answered through the vector table. -/
  | vectored
  | idle
  /-- A byte that selects another page was fetched. -/
  | selector (page : Page) (opcode : Byte)
  /-- An instruction ran. -/
  | instruction (page : Page) (opcode : Byte) (taken : Bool)
  /-- A maskable interrupt was answered by a byte that selects another page. -/
  | injectedSelector (opcode : Byte)
  /-- A maskable interrupt was answered by an instruction. -/
  | injected (opcode : Byte) (taken : Bool)
deriving DecidableEq

namespace Segment

/-- Tacts of an entry, less those spent on the prefix bytes that select its page. -/
def entryTacts (page : Page) (opcode : Byte) (taken : Bool) : Nat :=
  let entry := page.entry opcode
  entry.tacts + (if taken then entry.extraTacts else 0) - page.prefixTacts

/-- The time of the segment. -/
def tacts : Segment → Nat
  | .stalled => 1
  | .reset => 3
  | .nonMaskable => 11
  | .restarted => 13
  | .vectored => 19
  | .idle => 4
  | .selector page opcode => (page.entry opcode).tacts
  | .instruction page opcode taken => entryTacts page opcode taken
  | .injectedSelector opcode => 2 + (Page.main.entry opcode).tacts
  | .injected opcode taken => 2 + entryTacts .main opcode taken

/-- The instruction goes on after the segment. -/
def busy : Segment → Bool
  | .stalled | .selector _ _ | .injectedSelector _ => true
  | _ => false

end Segment

namespace Cpu

/-- What the lines and latches make of the next step. -/
def turn (cpu : Cpu) (lines : Lines) : Turn :=
  if lines.wait then .stall
  else match cpu.pending with
    | some page => .proceed page
    | none =>
      if lines.reset then .reset
      else if !cpu.suppressed && cpu.nmiPending then .nonMaskable
      else if !cpu.suppressed && cpu.registers.iff1 && lines.int then .maskable
      else if cpu.halted then .idle
      else .begin

/-- Note a non-maskable interrupt if its line is asserted. -/
def sampleNmi (cpu : Cpu) (lines : Lines) : Cpu :=
  { cpu with nmiPending := cpu.nmiPending || lines.nmi }

/-- The processor at the start of a step. -/
def beginStep (cpu : Cpu) (lines : Lines) : Cpu :=
  { cpu.sampleNmi lines with
    outputs := { cpu.outputs with m1 := false }
    stepTacts := 0
    backlog := 0 }

/-- The processor at the end of a step that took some tacts. -/
def endStep (cpu : Cpu) (tacts : Nat) : Cpu :=
  { cpu with
    outputs := { cpu.outputs with halt := cpu.halted }
    stepTacts := tacts
    total := cpu.total.after tacts }

/-- The note of written flags moves on by one instruction. -/
def ageFlags (cpu : Cpu) : Cpu := { cpu with writtenBefore := cpu.written, written := {} }

/-- The latches that live for one instruction move on. -/
def beginInstruction (cpu : Cpu) : Cpu := { cpu.ageFlags with enableCopied := false }

/-- The changes common to all acknowledgements. An interrupt straight after the accumulator was
loaded from I or R spoils the copy of the interrupt enable in the parity flag. -/
def acknowledged (cpu : Cpu) (looping : Bool) : Cpu :=
  let flags := { cpu.registers.f with p := cpu.registers.f.p && !cpu.enableCopied }
  { cpu.ageFlags with
    registers := cpu.registers.refresh.setF flags
    halted := false
    enableCopied := false
    loopInterrupted := looping
    outputs := { cpu.outputs with m1 := true } }

end Cpu

/-- Run an instruction. `offset` is the one fetched before the opcode, if there was one. -/
def Instruction.execute (offset : Byte) : Instruction → Exec Bool
  | .main index operation => operation.execute index
  | .bits operation place => Exec.untaken (operation.execute place)
  | .indexedBits index operation copy =>
    Exec.untaken (operation.executeIndexed index offset copy)
  | .extended operation => operation.execute

namespace Exec

/-- Fetch an opcode in a page, and select another page or run the instruction. On the indexed bit
pages the offset comes first, and the opcode is read like an operand. -/
def fetch (page : Page) : Exec Segment := do
  -- Only the first byte of an instruction is fetched in the main page.
  if page = .main then modify (·.beginInstruction)
  let offset ← if page.displacementFirst then fetchOperand else pure 0
  let opcode ← if page.displacementFirst then fetchOperand else fetchOpcode
  match page.role opcode with
  | .selector =>
    modify fun cpu => { cpu with pending := some (page.next opcode) }
    return .selector page opcode
  | .instruction instruction =>
    -- The opcode is noted before the instruction runs, which may touch the latches itself.
    modify fun cpu => { cpu with pending := none, lastOpcode := opcode }
    let taken ← instruction.execute offset
    return .instruction page opcode taken

/-- Fetch the byte at the program counter and ignore it. -/
def idle : Exec Segment := do
  modify (·.beginInstruction)
  let _ ← readFor .opcode (← registers).pc
  modify fun cpu =>
    { cpu.updateRegisters (·.refresh) with outputs := { cpu.outputs with m1 := true } }
  return .idle

/-- Push the program counter and go on at an address. -/
def interruptTo (target : Word) : Exec Unit := do
  pushWord (← registers).pc
  jumpTo target

/-- Acknowledge the non-maskable interrupt. -/
def acknowledgeNonMaskable (looping : Bool) : Exec Segment := do
  modify fun cpu => { cpu with nmiPending := false }
  acknowledge .nonMaskable
  modify (·.acknowledged looping)
  updateRegisters fun regs => { regs with iff1 := false }
  interruptTo 0x0066
  return .nonMaskable

/-- Execute what the interrupting device puts on the data lines. -/
def inject : Exec Segment := do
  let opcode ← dataLines
  modify fun cpu => { cpu with lastFetched := opcode }
  -- Only this byte comes from the device; the bytes after it come from memory.
  match Page.main.role opcode with
  | .selector =>
    modify fun cpu => { cpu with pending := some (Page.main.next opcode) }
    return .injectedSelector opcode
  | .instruction instruction =>
    modify fun cpu => { cpu with lastOpcode := opcode }
    let taken ← instruction.execute 0
    return .injected opcode taken

/-- Go on at the address in the vector table. The low byte of the table address is taken before the
program counter is pushed. -/
def jumpThroughTable : Exec Segment := do
  let low ← dataLines
  pushWord (← registers).pc
  let page ← byteValue .i
  let target ← readWord (Word.ofBytes page low)
  jumpTo target
  return .vectored

/-- Acknowledge a maskable interrupt in the current mode. -/
def acknowledgeMaskable (looping : Bool) : Exec Segment := do
  let mode := (← registers).im
  acknowledge (.maskable mode.number)
  modify (·.acknowledged looping)
  updateRegisters fun regs => { regs with iff1 := false, iff2 := false }
  match mode with
  | .injected => inject
  | .restart => do
    interruptTo 0x0038
    return .restarted
  | .vectored => jumpThroughTable

/-- Do what a step has to do. `looping` tells whether the step before went back to repeat a block
instruction. -/
def perform (looping : Bool) : Turn → Exec Segment
  | .stall => return .stalled
  | .proceed page => fetch page
  | .reset => do
    modify (·.clear)
    return .reset
  | .nonMaskable => acknowledgeNonMaskable looping
  | .maskable => acknowledgeMaskable looping
  | .idle => do
    -- The boundary was sampled, so a suppression is used up.
    modify fun cpu => { cpu with suppressed := false }
    idle
  | .begin => do
    modify fun cpu => { cpu with suppressed := false }
    fetch .main

/-- One step under the given lines. -/
def step (lines : Lines) : Exec Segment := do
  modify (·.beginStep lines)
  let cpu ← get
  let turn := cpu.turn lines
  -- A stalled step leaves the note of a repeating instruction for the step that follows it.
  if turn ≠ .stall then modify fun cpu => { cpu with looping := false }
  let segment ← perform cpu.looping turn
  modify (·.endStep segment.tacts)
  return segment

end Exec

end Z80
