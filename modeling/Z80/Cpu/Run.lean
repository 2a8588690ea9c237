import Z80.Cpu.Step

/-!
# Running

A processor is driven by steps, by single tacts or by whole instructions. A tick makes all
accesses of a step at once and then spends the step's time one tact after the other. A run of
instructions ends on a boundary, and a run over block instructions ends when the instruction no
longer repeats.

## Main definitions

* `Exec.tick`: one tact
* `Exec.nextInstruction`: steps up to the next boundary
* `Exec.nextUnlooped`: steps up to a boundary outside a repeating block instruction
-/

namespace Z80

/-- What a tick did. -/
structure Tick where
  /-- The instruction goes on after the tick. -/
  busy : Bool
  /-- The step that began with the tick, if one did. -/
  started : Option Segment := none

namespace Exec

/-- Spend one tact of the step that has begun. WAIT makes the step one tact longer. -/
def spend (lines : Lines) : Exec Tick := do
  modify (·.sampleNmi lines)
  if lines.wait then
    modify fun cpu => { cpu with total := cpu.total.after 1 }
    return { busy := true }
  else
    modify fun cpu => { cpu with backlog := cpu.backlog - 1 }
    let cpu ← get
    return { busy := decide (0 < cpu.backlog) || cpu.prefixPending }

/-- Go on by one tact: begin a step if the last one is paid for, or spend a tact of it. -/
def tick (lines : Lines) : Exec Tick := do
  if 0 < (← get).backlog then spend lines
  else
    -- The first tact of the step is this tick.
    let segment ← step lines
    modify fun cpu => { cpu with backlog := cpu.stepTacts - 1 }
    return {
      busy := segment.busy || decide (0 < (← get).backlog)
      started := some segment }

variable {ε : Type}

/-- Make steps until one ends the run, and gather what `observe` makes of each step and of the
processor after it. `later` gives the lines for the steps after the first. No result comes back if
`fuel` steps do not end the run. -/
def drive (ends : Segment → Cpu → Bool) (later : Lines → Lines)
    (observe : ε → Segment → Cpu → ε) : Nat → Lines → ε → Exec (Option ε)
  | 0, _, _ => return none
  | fuel + 1, lines, seen => do
    let segment ← step lines
    let cpu ← get
    let seen := observe seen segment cpu
    if ends segment cpu then return some seen
    else drive ends later observe fuel (later lines) seen

/-- More steps than a run can have whose tacts a count of thirty-two bits holds. -/
def stepLimit : Nat := UInt32.size

/-- Lines on which WAIT has no effect. -/
def unheld (lines : Lines) : Lines := { lines with wait := false }

/-- Run up to the next instruction boundary. An accepted interrupt or a reset counts as an
instruction, and WAIT does not count at all. -/
def observeInstruction (observe : ε → Segment → Cpu → ε) (lines : Lines) (seen : ε) :
    Exec (Option ε) :=
  drive (fun segment _ => !segment.busy) id observe stepLimit (unheld lines) seen

/-- Run up to the next boundary outside a repeating block instruction. INT and RESET are offered to
the first step only. -/
def observeUnlooped (observe : ε → Segment → Cpu → ε) (lines : Lines) (seen : ε) :
    Exec (Option ε) :=
  drive (fun segment cpu => !segment.busy && !cpu.looping)
    (fun lines => { lines with int := false, reset := false }) observe stepLimit (unheld lines) seen

/-- Add up the time of the steps. -/
def addTacts (spent : Nat) (segment : Segment) (_cpu : Cpu) : Nat := spent + segment.tacts

/-- A sum of tacts in a count of thirty-two bits. No count holds a larger sum. -/
def counted (spent : Nat) : Option Nat := if spent < UInt32.size then some spent else none

/-- Run up to the next instruction boundary, and give the tacts spent. A sum that overflows its
count does not come back. -/
def nextInstruction (lines : Lines) : Exec (Option Nat) :=
  (·.bind counted) <$> observeInstruction addTacts lines 0

/-- Run up to the next boundary outside a repeating block instruction, and give the tacts spent. A
sum that overflows its count does not come back. -/
def nextUnlooped (lines : Lines) : Exec (Option Nat) :=
  (·.bind counted) <$> observeUnlooped addTacts lines 0

/-- Take a return address off the stack as if a return had run, in no time. Prefix bytes are
forgotten. -/
def forceReturn : Exec Unit := do
  let target ← popWord
  goTo target
  modify fun cpu => { cpu with pending := none }

end Exec

end Z80
