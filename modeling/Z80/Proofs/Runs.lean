import Mathlib.Algebra.GroupWithZero.Nat
import Z80.Cpu.Run
import Z80.Proofs.Always

/-!
# Runs and their segments

A machine is driven by commands: a step, a tick, or a run up to the next boundary. The segments of
all steps that a list of commands makes are its trace. Tracing makes the same calls and leaves the
same processor as the commands themselves.

## Main definitions

* `Exec.segments`: the segments of a run up to the next boundary
* `Command`: what drives the machine
* `Exec.runAll`, `Exec.traceAll`: commands one after the other, without and with their segments
* `Accrues`: what a run adds up from its steps

## Main results

* `Exec.nextInstruction_eq`: the tacts of a run up to the next boundary are those of its segments
* `Exec.runAll_eq`: commands do the same whether they are traced or not
* `Accrues.traceAll`: what steps add up holds of every run
-/

namespace Z80

/-- What drives the machine. -/
inductive Command where
  | step (lines : Lines)
  | tick (lines : Lines)
  /-- Go on up to the next instruction boundary. -/
  | next (lines : Lines)

namespace Exec

/-- The segments up to the next boundary, and at most `fuel` of them. -/
def segments : Nat → Lines → Exec (List Segment)
  | 0, _ => return []
  | fuel + 1, lines => do
    let segment ← step lines
    if segment.busy then
      let more ← segments fuel lines
      return segment :: more
    else return [segment]

/-- The run of segments came to a boundary. -/
def ended (run : List Segment) : Bool := run.getLast?.any fun segment => !segment.busy

/-- A segment that is not the last does not matter for where a run ends. -/
theorem ended_cons_of_busy {segment : Segment} (busy : segment.busy = true) (run : List Segment) :
    ended (segment :: run) = ended run := by
  cases run with
  | nil => simp [ended, busy]
  | cons next run => rw [ended, List.getLast?_cons_cons, ended]

section Driving

variable {σ ε : Type} (ends : Segment → Cpu → Bool) (later : Lines → Lines)
  (observe : ε → Segment → Cpu → ε) (fuel : Nat) (lines : Lines) (seen : ε) (bus : Bus σ)
  (cpu : Cpu) (device : σ)

/-- The driver looks at each step and then goes on or stops. -/
theorem runOn_drive :
    runOn (drive ends later observe (fuel + 1) lines seen) bus cpu device =
      let stepped := runOn (step lines) bus cpu device
      let seen := observe seen stepped.value stepped.cpu
      if ends stepped.value stepped.cpu then ⟨some seen, stepped.cpu, stepped.device⟩
      else runOn (drive ends later observe fuel (later lines) seen) bus stepped.cpu
        stepped.device := by
  simp only [drive, runOn_bind, runOn_ite, runOn_pure]
  rfl

end Driving

theorem drive_addTacts (fuel : Nat) (lines : Lines) (spent : Nat) :
    drive (fun segment _ => !segment.busy) id addTacts fuel lines spent = do
      let run ← segments fuel lines
      return if ended run then some (spent + (run.map Segment.tacts).sum) else none := by
  induction fuel generalizing spent with
  | zero => rfl
  | succ fuel ih =>
    -- The driver looks at the processor after each step, and this observer has no use for it.
    have unread (program : Exec (Option Nat)) : (get >>= fun _ : Cpu => program) = program := rfl
    simp only [drive, segments, bind_assoc]
    apply congrArg (step lines >>= ·)
    funext segment
    simp only [addTacts, id, unread, ih]
    by_cases busy : segment.busy = true
    · simp [busy, ended_cons_of_busy busy, Nat.add_assoc]
    · simp [busy, ended]

/-- A sum comes back as it is if thirty-two bits hold it. -/
theorem counted_of_lt {spent : Nat} (fits : spent < 2 ^ 32) : counted spent = some spent :=
  if_pos fits

theorem counted_eq_some_iff {spent tacts : Nat} :
    counted spent = some tacts ↔ spent < 2 ^ 32 ∧ spent = tacts := by
  rw [counted, Option.ite_none_right_eq_some, Option.some.injEq]
  rfl

/-- A run up to the next boundary adds up the tacts of its segments. No tacts come back if it never
gets there, or if no count holds their sum. -/
theorem nextInstruction_eq (lines : Lines) :
    nextInstruction lines = do
      let run ← segments stepLimit (unheld lines)
      return if ended run then counted (run.map Segment.tacts).sum else none := by
  have summed (run : List Segment) :
      (if ended run then some (run.map Segment.tacts).sum else none).bind counted =
        if ended run then counted (run.map Segment.tacts).sum else none := by
    cases ended run <;> rfl
  simp only [nextInstruction, observeInstruction, unheld, drive_addTacts, Nat.zero_add, map_bind,
    map_pure, summed]

/-- A run up to the next boundary whose tacts a count holds gives them. -/
theorem runOn_nextInstruction_of_counted {σ : Type} {bus : Bus σ} {cpu after : Cpu}
    {device last : σ} {lines : Lines} {tacts : Nat}
    (run : runOn (observeInstruction addTacts lines 0) bus cpu device = ⟨some tacts, after, last⟩)
    (fits : tacts < 2 ^ 32) :
    runOn (nextInstruction lines) bus cpu device = ⟨some tacts, after, last⟩ := by
  simp only [nextInstruction, runOn_map, run, Option.bind_some, counted_of_lt fits]

end Exec

open Exec

/-- Carry the command out. -/
def Command.run : Command → Exec Unit
  | .step lines => do
    let _ ← Exec.step lines
    return ()
  | .tick lines => do
    let _ ← Exec.tick lines
    return ()
  | .next lines => do
    let _ ← nextInstruction lines
    return ()

/-- Carry the command out, and give the segments of the steps that it makes. -/
def Command.trace : Command → Exec (List Segment)
  | .step lines => do
    let segment ← Exec.step lines
    return [segment]
  | .tick lines => do
    let tick ← Exec.tick lines
    return tick.started.toList
  | .next lines => segments stepLimit (unheld lines)

theorem Command.run_eq (command : Command) :
    command.run = do
      let _ ← command.trace
      return () := by
  cases command with
  | step lines | tick lines => simp [run, trace]
  | next lines => simp [run, trace, nextInstruction_eq]

namespace Exec

/-- Carry commands out one after the other. -/
def runAll : List Command → Exec Unit
  | [] => return ()
  | command :: rest => do
    command.run
    runAll rest

/-- Carry commands out one after the other, and give the segments of all their steps. -/
def traceAll : List Command → Exec (List Segment)
  | [] => return []
  | command :: rest => do
    let first ← command.trace
    let more ← traceAll rest
    return first ++ more

/-- Commands do the same whether they are traced or not. -/
theorem runAll_eq (commands : List Command) :
    runAll commands = do
      let _ ← traceAll commands
      return () := by
  induction commands with
  | nil => rfl
  | cons command rest ih => simp [runAll, traceAll, ih, command.run_eq]

end Exec

/-! ### From steps to runs -/

/-- The relation between the processor before a run, its calls, its segments and the processor after
it adds up from steps, and it does not look at the latches in which a tick keeps its accounts. -/
structure Accrues (post : Cpu → List Exchange → List Segment → Cpu → Prop) : Prop where
  nil (cpu : Cpu) : post cpu [] [] cpu
  step (cpu : Cpu) (lines : Lines) : (Exec.step lines).Always cpu fun calls segment after =>
    post cpu calls [segment] after
  append {cpu middle after : Cpu} {calls more : List Exchange} {run rest : List Segment} :
    post cpu calls run middle → post middle more rest after →
      post cpu (calls ++ more) (run ++ rest) after
  of_registers {cpu middle after : Cpu} {calls : List Exchange} {run : List Segment} :
    post cpu calls run middle → after.registers = middle.registers → post cpu calls run after

namespace Accrues

variable {post : Cpu → List Exchange → List Segment → Cpu → Prop}

theorem tick (accrues : Accrues post) (cpu : Cpu) (lines : Lines) :
    (Exec.tick lines).Always cpu fun calls tick after =>
      post cpu calls tick.started.toList after := by
  simp only [Exec.tick, always_bind, always_get, always_ite, List.nil_append]
  constructor
  · -- A tact that is only paid leaves the registers alone.
    intro _
    simp only [spend, always_bind, always_modify, always_ite, always_pure, always_get]
    exact ⟨fun _ => accrues.of_registers (accrues.nil cpu) rfl,
      fun _ => accrues.of_registers (accrues.nil cpu) rfl⟩
  · intro _
    refine (accrues.step cpu lines).mono ?_
    intro calls segment after stepped
    have paid : post cpu calls [segment] { after with backlog := after.stepTacts - 1 } :=
      accrues.of_registers stepped rfl
    simpa using paid

theorem segments (accrues : Accrues post) (fuel : Nat) (cpu : Cpu) (lines : Lines) :
    (Exec.segments fuel lines).Always cpu fun calls run after => post cpu calls run after := by
  induction fuel generalizing cpu with
  | zero => exact accrues.nil cpu
  | succ fuel ih =>
    simp only [Exec.segments, always_bind, always_ite, always_pure]
    refine (accrues.step cpu lines).mono ?_
    intro calls segment after stepped
    refine ⟨?_, fun _ => by simpa using stepped⟩
    intro _
    refine (ih after).mono ?_
    intro more rest last later
    simpa using accrues.append stepped later

theorem trace (accrues : Accrues post) (command : Command) (cpu : Cpu) :
    command.trace.Always cpu fun calls run after => post cpu calls run after := by
  cases command with
  | step lines =>
    simpa only [Command.trace, always_bind, always_pure, List.append_nil] using
      accrues.step cpu lines
  | tick lines =>
    simpa only [Command.trace, always_bind, always_pure, List.append_nil] using
      accrues.tick cpu lines
  | next lines => exact accrues.segments stepLimit cpu (unheld lines)

/-- What steps add up holds of every run. -/
theorem traceAll (accrues : Accrues post) (commands : List Command) (cpu : Cpu) :
    (Exec.traceAll commands).Always cpu fun calls run after => post cpu calls run after := by
  induction commands generalizing cpu with
  | nil => exact accrues.nil cpu
  | cons command rest ih =>
    simp only [Exec.traceAll, always_bind, always_pure]
    refine (accrues.trace command cpu).mono ?_
    intro calls first middle between
    refine (ih middle).mono ?_
    intro more run after later
    simpa using accrues.append between later

end Accrues

end Z80
