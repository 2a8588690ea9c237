import Z80.Proofs.Refresh
import Z80.Proofs.SavedLoop
import Z80.Proofs.Stored
import Z80.Proofs.Waiting

/-!
# Waiting for an interrupt

A halted machine goes on fetching the byte at its program counter and ignores it. Nothing but the
refresh counter, the latches that live for one instruction and the time moves on, for as long as no
interrupt is accepted and no reset is performed. What is pushed in the end is therefore the program
counter that HALT has left, which points behind HALT.

## Main definitions

* `Cpu.idled`: a halted processor after a step that finds nothing to do
* `Lines.LetWait`: the lines give a halted processor nothing to do
* `Moment.Idles`, `Registers.Resumes`: calls that find nothing to do, and calls that release HALT
* `Exec.deviceAfter`: the device that a run of calls leaves

## Main results

* `Exec.step_idles`: what a step of a halted processor does unless it accepts or resets
* `Exec.step_resumes`: what an acceptance pushes
* `Exec.step_halts`: where HALT leaves the program counter
* `Exec.halt_waits`: all of this for every run
-/

namespace Z80

open Exec

/-! ### One step -/

/-- A halted processor after a step that finds nothing to do: WAIT holds it, or it fetches without
going on. -/
def Cpu.idled (cpu : Cpu) (lines : Lines) : Cpu :=
  if lines.wait then cpu.stall lines
  else
    { cpu.beginInstruction.sampleNmi lines with
      registers := cpu.registers.refresh
      suppressed := false
      looping := false
      outputs := { m1 := true, halt := cpu.halted }
      stepTacts := 4
      total := cpu.total.after 4
      backlog := 0 }

/-- The calls of such a step: the fetch of the byte at the program counter, unless WAIT holds the
processor. -/
def Cpu.IdleCalls (cpu : Cpu) (lines : Lines) (calls : List Exchange) : Prop :=
  if lines.wait then calls = []
  else ∃ byte : Byte, calls = [⟨.read cpu.registers.pc .opcode, byte⟩]

/-- The lines give a halted processor nothing to do: there is no NMI and no RESET, and INT comes
only while it is masked. -/
structure Lines.LetWait (lines : Lines) (cpu : Cpu) : Prop where
  nmi : lines.nmi = false
  reset : lines.reset = false
  int : lines.int = true → cpu.registers.iff1 = false

namespace Exec

variable {cpu : Cpu} {lines : Lines}

theorem step_of_stall (held : lines.wait = true) :
    step lines cpu = .done (.stalled, cpu.idled lines) := by
  have same : lines.held = lines := by
    obtain ⟨int, nmi, reset, wait⟩ := lines
    cases held
    rfl
  have stalls := step_held cpu lines
  rw [same] at stalls
  rw [Cpu.idled, if_pos held, stalls]

theorem step_of_idle (turn : (cpu.ready lines).turn lines = .idle) :
    step lines cpu =
      .call (.read cpu.registers.pc .opcode) fun _ => .done (.idle, cpu.idled lines) := by
  have running : lines.wait = false := by
    cases held : lines.wait with
    | false => rfl
    | true => exact absurd (turn.symm.trans (Cpu.turn_eq_stall_iff.mpr held)) nofun
  have fetched : perform cpu.looping .idle (cpu.ready lines) =
      .call (.read cpu.registers.pc .opcode) fun _ =>
        .done (.idle,
          { (cpu.ready lines).beginInstruction with
            registers := cpu.registers.refresh
            suppressed := false
            outputs := { cpu.outputs with m1 := true } }) := rfl
  rw [step_apply, turn, fetched, Cpu.idled, if_neg (by simp [running])]
  simp [map_eq_pure_bind, Cpu.ready, Cpu.beginStep, Cpu.endStep, running, Segment.tacts,
    Cpu.sampleNmi, Cpu.beginInstruction, Cpu.ageFlags]

/-- What a step does that is held, or that has the processor fetch without going on. -/
theorem step_of_inert
    (inert : (cpu.ready lines).turn lines = .stall ∨ (cpu.ready lines).turn lines = .idle) :
    (step lines).Always cpu fun calls _ after =>
      after = cpu.idled lines ∧ cpu.IdleCalls lines calls := by
  by_cases held : lines.wait = true
  · rw [Always, step_of_stall held]
    exact ⟨rfl, by rw [Cpu.IdleCalls, if_pos held]⟩
  · have idle := inert.resolve_left (mt Cpu.turn_eq_stall_iff.mp held)
    rw [Always, step_of_idle idle]
    intro byte
    refine ⟨rfl, ?_⟩
    rw [Cpu.IdleCalls, if_neg held]
    exact ⟨byte, rfl⟩

/-- A halted processor on a boundary accepts an interrupt, is reset or finds nothing to do. -/
theorem step_idles (halted : cpu.halted = true) (boundary : cpu.pending = none) :
    (step lines).Always cpu fun calls segment after =>
      acknowledgements calls = [] → segment ≠ .reset →
        after = cpu.idled lines ∧ cpu.IdleCalls lines calls := by
  cases turn : (cpu.ready lines).turn lines with
  | stall => exact (step_of_inert (.inl turn)).mono fun _ _ _ idles _ _ => idles
  | idle => exact (step_of_inert (.inr turn)).mono fun _ _ _ idles _ _ => idles
  | proceed page =>
    have pending : cpu.pending = some page := (Cpu.turn_eq_proceed_iff.mp turn).2
    exact absurd (boundary.symm.trans pending) nofun
  | begin =>
    have awake : cpu.halted = false := (Cpu.turn_eq_begin_iff.mp turn).2.2.2.2
    exact absurd (halted.symm.trans awake) nofun
  | reset =>
    rw [always_step, turn]
    exact fun _ other => absurd rfl other
  | nonMaskable | maskable =>
    -- An acceptance is seen on the bus.
    refine (step_settles cpu lines).mono ?_
    intro calls segment after settles quiet
    have accepted := settles.accepted
    rw [turn] at accepted
    rw [settles.quiet, accepted] at quiet
    cases quiet

end Exec

/-- The address and the byte, if the call writes memory. -/
@[simp] def Exchange.write? : Exchange → Option (Word × Byte)
  | ⟨.write address byte, _⟩ => some (address, byte)
  | _ => none

/-- The addresses and bytes that the calls write, in order. -/
def writes (calls : List Exchange) : List (Word × Byte) := calls.filterMap Exchange.write?

@[simp] theorem writes_nil : writes [] = [] := rfl

@[simp] theorem writes_cons (call : Exchange) (calls : List Exchange) :
    writes (call :: calls) = call.write?.toList ++ writes calls := by
  rw [writes, List.filterMap_cons]
  cases call.write? <;> rfl

@[simp] theorem writes_append (calls more : List Exchange) :
    writes (calls ++ more) = writes calls ++ writes more := List.filterMap_append

/-- An acceptance releases HALT, and keeps the program counter and the stack pointer. -/
@[simp] theorem Cpu.acknowledged_kept (cpu : Cpu) (looping : Bool) :
    (cpu.acknowledged looping).halted = false ∧
      (cpu.acknowledged looping).registers.pc = cpu.registers.pc ∧
      (cpu.acknowledged looping).registers.sp = cpu.registers.sp := ⟨rfl, rfl, rfl⟩

/-- HALT is released, and all that is written is the given program counter, right below the address
that the bus gives for the given stack pointer. -/
@[mk_iff]
structure Registers.Resumes (regs : Registers) (calls : List Exchange) (after : Cpu) : Prop where
  released : after.halted = false
  output : after.outputs.halt = false
  pushed : ∃ sp : Word, ⟨.pointer .sp regs.sp, sp⟩ ∈ calls ∧
    writes calls = [(sp - 1, Word.high regs.pc), (sp - 2, Word.low regs.pc)] ∧
    after.registers.sp = sp - 2

namespace Exec

variable {cpu : Cpu} {lines : Lines}

/-- An acceptance that has the processor go on at an address of its own pushes the program counter
and releases HALT. -/
theorem step_resumes :
    (step lines).Always cpu fun calls _ after =>
      acknowledgements calls ≠ [] →
        .maskable InterruptMode.injected.number ∉ acknowledgements calls →
          cpu.registers.Resumes calls after := by
  have ready : (cpu.ready lines).registers = cpu.registers := rfl
  have settles := step_settles cpu lines
  cases turn : (cpu.ready lines).turn lines with
  | nonMaskable =>
    rw [always_step, turn]
    simp [perform, acknowledgeNonMaskable, interruptTo, Registers.resumes_iff, Cpu.endStep, ready]
  | maskable =>
    cases mode : cpu.registers.im with
    | injected =>
      rw [turn, mode] at settles
      refine settles.mono ?_
      intro calls segment after settles _ other
      rw [settles.quiet, settles.accepted] at other
      exact absurd (List.mem_singleton.mpr rfl) other
    | restart | vectored =>
      rw [always_step, turn]
      simp [perform, acknowledgeMaskable, mode, interruptTo, jumpThroughTable,
        Registers.resumes_iff, Cpu.endStep, ready]
  | _ =>
    rw [turn] at settles
    refine settles.mono ?_
    intro calls segment after settles accepts
    rw [settles.quiet, settles.accepted] at accepts
    exact absurd rfl accepts

end Exec

/-- Only one byte is HALT, on whatever page. -/
theorem Page.opcode_of_halt {page : Page} {opcode : Byte} {index : Index}
    (role : page.role opcode = .instruction (.main index .halt)) : opcode = 0x76 := by
  revert role
  cases page <;> cases index <;> revert opcode <;> decide +kernel

namespace Exec

variable {cpu : Cpu} {lines : Lines}

/-- HALT is a byte that is fetched alone, and leaves the program counter right behind it. -/
theorem fetch_halts (page : Page) (index : Index) :
    (fetch page).Always cpu fun calls segment after =>
      segment.instruction? = some (.main index .halt) →
        calls = [⟨.read (after.registers.pc - 1) .opcode, 0x76⟩] := by
  cases order : page.displacementFirst with
  | false =>
    rw [always_fetch_opcode cpu order]
    intro opcode
    refine ⟨fun _ => nofun, fun instruction role => ?_⟩
    by_cases halts : instruction = .main index .halt
    · subst halts
      have byte := Page.opcode_of_halt role
      subst byte
      simp only [Instruction.execute, Operation.execute, always_untaken, always_modify]
      intro _
      simp only [Cpu.fetched, Cpu.updateRegisters, List.cons.injEq, and_true]
      rw [BitVec.add_sub_cancel]
      simp
    · refine (always_true _ _).mono ?_
      intro calls taken after _ found
      simp [Segment.instruction?, role, Role.instruction?, halts] at found
  | true =>
    rw [always_fetch_displaced cpu order]
    intro offset opcode instruction role
    refine (always_true _ _).mono ?_
    intro calls taken after _ found
    -- Only operations on bits have an offset before the opcode.
    cases page with
    | ixBits | iyBits =>
      simp [Segment.instruction?, Page.role, Role.ofIndexedBits, Role.instruction?] at found
    | _ => cases order

/-- So does a step, unless a device injects HALT. -/
theorem step_halts (cpu : Cpu) (lines : Lines) (index : Index) :
    (step lines).Always cpu fun calls segment after =>
      segment.instruction? = some (.main index .halt) → acknowledgements calls = [] →
        calls = [⟨.read (after.registers.pc - 1) .opcode, 0x76⟩] := by
  have settles := step_settles cpu lines
  cases turn : (cpu.ready lines).turn lines with
  | nonMaskable | maskable =>
    rw [turn] at settles
    refine settles.mono ?_
    intro calls segment after settles _ quiet
    rw [settles.quiet, settles.accepted] at quiet
    cases quiet
  | proceed page =>
    rw [always_step, turn]
    exact (fetch_halts page index).mono fun _ _ _ halts found _ => halts found
  | begin =>
    rw [always_step, turn]
    simp only [perform, always_bind, always_modify, List.nil_append]
    exact (fetch_halts .main index).mono fun _ _ _ halts found _ => halts found
  | _ =>
    rw [always_step, turn]
    simp [perform, idle, Segment.instruction?]

end Exec

/-! ### Calls -/

/-- The processor is halted on a boundary, and its registers are the given but for R. -/
structure Cpu.Rests (cpu : Cpu) (regs : Registers) : Prop where
  halted : cpu.halted = true
  boundary : cpu.pending = none
  registers : cpu.registers = { regs with r := cpu.registers.r }

variable {cpu start : Cpu} {lines : Lines}

theorem Cpu.Rests.idled {regs : Registers} (rests : cpu.Rests regs) (lines : Lines) :
    (cpu.idled lines).Rests regs := by
  obtain ⟨halted, boundary, registers⟩ := rests
  have refreshed : cpu.registers.refresh = { regs with r := cpu.registers.refresh.r } := by
    rw [Registers.refresh, registers]
  by_cases held : lines.wait = true
  · rw [Cpu.idled, if_pos held]
    exact ⟨halted, boundary, registers⟩
  · rw [Cpu.idled, if_neg held]
    exact ⟨halted, boundary, refreshed⟩

/-- A call leaves a halted processor as it is, resets it, or accepts an interrupt. -/
theorem Beat.run_rests (beat : Beat) {regs : Registers} (rests : cpu.Rests regs) :
    beat.run.Always cpu fun calls started after =>
      (acknowledgements calls = [] → started ≠ some .reset → after.Rests regs) ∧
        (acknowledgements calls ≠ [] →
          .maskable InterruptMode.injected.number ∉ acknowledgements calls →
            regs.Resumes calls after) := by
  have same := rests.registers
  refine beat.always_run ?_ ?_
  · refine ((step_idles rests.halted rests.boundary).and step_resumes).mono ?_
    rintro calls segment after ⟨idles, resumes⟩ backlog
    constructor
    · intro quiet unreset
      have idled := (idles quiet fun reset => unreset (congrArg some reset)).1
      have rests := rests.idled beat.lines
      rw [← idled] at rests
      exact ⟨rests.halted, rests.boundary, rests.registers⟩
    · intro accepts other
      have resumes := resumes accepts other
      rw [same] at resumes
      exact ⟨resumes.released, resumes.output, resumes.pushed⟩
  · intro total backlog
    exact ⟨fun _ _ => ⟨rests.halted, rests.boundary, same⟩, fun accepts => absurd rfl accepts⟩

/-- The processor has rested since the start, has fetched so many bytes in vain, and has seen no
NMI. -/
structure Cpu.Awaits (cpu start : Cpu) (fetches : Nat) : Prop where
  rests : cpu.Rests start.registers
  unnoted : cpu.nmiPending = false
  refreshed : RefreshedBy fetches start.registers.r cpu.registers.r

/-- A call of a halted processor that finds nothing to do, with the fetches made since the start. -/
structure Moment.Idles (moment : Moment) (start : Cpu) (fetches : Nat) : Prop where
  registers : moment.after.registers = { start.registers with r := moment.after.registers.r }
  refreshed : RefreshedBy fetches start.registers.r moment.after.registers.r
  halted : moment.after.halted = true
  output : moment.after.outputs.halt = true
  calls : start.IdleCalls moment.beat.lines moment.calls
  stepTacts : moment.after.stepTacts = if moment.beat.lines.wait then 1 else 4
  total : moment.after.total = moment.before.total.after moment.after.stepTacts

/-- How many of the calls are not held by WAIT. -/
def unheldCalls (trace : List Moment) : Nat := trace.countP fun moment => !moment.beat.lines.wait

namespace Cpu.Awaits

variable {fetches : Nat}

/-- Lines that let the processor wait have it held or fetch. -/
theorem inert (awaits : cpu.Awaits start fetches) (lets : lines.LetWait start) :
    (cpu.ready lines).turn lines = .stall ∨ (cpu.ready lines).turn lines = .idle := by
  obtain ⟨⟨halted, boundary, registers⟩, unnoted, -⟩ := awaits
  have enable : cpu.registers.iff1 = start.registers.iff1 := by rw [registers]
  have masked : cpu.registers.iff1 = true → lines.int = false := by
    intro enabled
    cases asserted : lines.int with
    | false => rfl
    | true => exact absurd (enable ▸ enabled) (by simp [lets.int asserted])
  by_cases held : lines.wait = true
  · exact .inl (Cpu.turn_eq_stall_iff.mpr held)
  · right
    simp +contextual [Cpu.turn, Cpu.ready, Cpu.beginStep, Cpu.sampleNmi, held, boundary, halted,
      unnoted, lets.nmi, lets.reset, masked]

/-- Such a call is counted if it fetches. -/
theorem idled (awaits : cpu.Awaits start fetches) (lets : lines.LetWait start) :
    (cpu.idled lines).Awaits start (fetches + if lines.wait then 0 else 1) where
  rests := awaits.rests.idled lines
  unnoted := by
    have unnoted := awaits.unnoted
    have quiet := lets.nmi
    unfold Cpu.idled
    split <;> simp [Cpu.stall, Cpu.wait, Cpu.sampleNmi, Cpu.beginInstruction, Cpu.ageFlags, *]
  refreshed := by
    by_cases held : lines.wait = true
    · rw [Cpu.idled, if_pos held, if_pos held]
      exact awaits.refreshed
    · rw [Cpu.idled, if_neg held, if_neg held]
      exact awaits.refreshed.trans (RefreshedBy.refresh cpu.registers)

variable {σ : Type} (bus : Bus σ) (device : σ)

/-- What such a call makes and leaves. -/
theorem momentOn_step (awaits : cpu.Awaits start fetches) (lets : lines.LetWait start) :
    (momentOn bus (.step lines) cpu device).after = cpu.idled lines ∧
      cpu.IdleCalls lines (momentOn bus (.step lines) cpu device).calls := by
  have inert := step_of_inert (awaits.inert lets)
  have run : (Beat.step lines).run.Always cpu fun calls _ after =>
      after = cpu.idled lines ∧ cpu.IdleCalls lines calls := by
    simpa only [Beat.run, always_map] using inert
  exact run.onBus bus device

/-- It finds nothing to do. -/
theorem momentOn_idles (awaits : cpu.Awaits start fetches) (lets : lines.LetWait start) :
    (momentOn bus (.step lines) cpu device).Idles start
      (fetches + if lines.wait then 0 else 1) := by
  obtain ⟨after, calls⟩ := awaits.momentOn_step bus device lets
  have next := awaits.idled lets
  have pc : cpu.registers.pc = start.registers.pc := by rw [awaits.rests.registers]
  have output : (cpu.idled lines).outputs.halt = cpu.halted := by
    unfold Cpu.idled
    split <;> rfl
  exact
    { registers := by rw [after]; exact next.rests.registers
      refreshed := by rw [after]; exact next.refreshed
      halted := by rw [after]; exact next.rests.halted
      output := by rw [after, output]; exact awaits.rests.halted
      calls := by rw [Cpu.IdleCalls, ← pc]; exact calls
      stepTacts := by rw [after, Cpu.idled, momentOn, Beat.lines]; split <;> rfl
      total := by rw [after, momentOn, Cpu.idled]; split <;> rfl }

end Cpu.Awaits

/-! ### Runs -/

/-- The call is a step on lines that let the processor wait. -/
def Moment.LetsWait (moment : Moment) (start : Cpu) : Prop :=
  ∃ lines : Lines, moment.beat = .step lines ∧ lines.LetWait start

/-- On the way nothing is accepted, and no reset is performed. -/
def Undisturbed (trace : List Moment) : Prop :=
  ∀ moment ∈ trace, ¬ moment.Accepts ∧ ¬ moment.Resets

theorem unheldCalls_concat (trace : List Moment) (moment : Moment) :
    unheldCalls (trace ++ [moment]) =
      unheldCalls trace + if moment.beat.lines.wait then 0 else 1 := by
  cases held : moment.beat.lines.wait <;> simp [unheldCalls, held]

namespace Exec

variable {σ : Type} (bus : Bus σ)

/-- The device that a run of calls leaves. -/
def deviceAfter : List Beat → Cpu → σ → σ
  | [], _, device => device
  | beat :: later, cpu, device =>
    let run := runOn beat.run bus cpu device
    deviceAfter later run.cpu run.device

theorem beat_mem {beats : List Beat} {device : σ} {moment : Moment}
    (among : moment ∈ moments bus beats cpu device) : moment.beat ∈ beats := by
  induction beats generalizing cpu device with
  | nil => cases among
  | cons beat later ih =>
    rw [moments, List.mem_cons] at among
    rcases among with rfl | later
    · exact List.mem_cons_self ..
    · exact List.mem_cons_of_mem _ (ih later)

/-- Calls that make no access leave the memory behind the bus as it was. -/
theorem memory_deviceAfter {memory : σ → Word → Byte} (backed : bus.Backed memory)
    (beats : List Beat) (device : σ)
    (untouched : ∀ moment ∈ moments bus beats cpu device,
      ∀ call ∈ moment.calls, call.isAccess = false) :
    memory (deviceAfter bus beats cpu device) = memory device := by
  induction beats generalizing cpu device with
  | nil => rfl
  | cons beat later ih =>
    rw [moments, List.forall_mem_cons] at untouched
    rw [deviceAfter, ih _ untouched.2]
    exact Program.memory_of_untouched backed _ device untouched.1

/-- As long as the lines let it wait, a halted processor finds nothing to do. -/
theorem moments_idle (awaits : start.Awaits start 0) {run : List Lines}
    (lets : ∀ lines ∈ run, lines.LetWait start) {device : σ} {early : List Moment}
    {moment : Moment} {late : List Moment}
    (split : moments bus (run.map .step) start device = early ++ moment :: late) :
    moment.Idles start (unheldCalls (early ++ [moment])) := by
  have each : ∀ other ∈ early ++ [moment], other.LetsWait start := by
    intro other among
    have made : other ∈ moments bus (run.map .step) start device := by
      rw [split, List.append_cons]
      exact List.mem_append_left _ among
    obtain ⟨lines, given, same⟩ := List.mem_map.mp (beat_mem bus made)
    exact ⟨lines, same.symm, lets lines given⟩
  refine moments_of_initial bus
    (fun past cpu => (∀ other ∈ past, other.LetsWait start) →
      cpu.Awaits start (unheldCalls past))
    (fun past moment => (∀ other ∈ past ++ [moment], other.LetsWait start) →
      moment.Idles start (unheldCalls (past ++ [moment])))
    ?_ (fun _ => awaits) split each
  intro past beat cpu device awaits
  have next (each : ∀ other ∈ past ++ [momentOn bus beat cpu device], other.LetsWait start) :
      (momentOn bus beat cpu device).Idles start
          (unheldCalls (past ++ [momentOn bus beat cpu device])) ∧
        (momentOn bus beat cpu device).after.Awaits start
          (unheldCalls (past ++ [momentOn bus beat cpu device])) := by
    obtain ⟨lines, rfl, lets⟩ := each _ (List.mem_append_right _ (List.mem_singleton_self _))
    have awaits := awaits fun other among => each other (List.mem_append_left _ among)
    have after := (awaits.momentOn_step bus device lets).1
    rw [unheldCalls_concat]
    exact ⟨awaits.momentOn_idles bus device lets, after ▸ awaits.idled lets⟩
  exact ⟨fun each => (next each).1, fun each => (next each).2⟩

/-- What such a run leaves after each call does not depend on the bus. -/
theorem moments_idle_congr {τ : Type} (other : Bus τ) {fetches : Nat}
    (awaits : cpu.Awaits start fetches) {run : List Lines}
    (lets : ∀ lines ∈ run, lines.LetWait start) (device : σ) (elsewhere : τ) :
    (moments bus (run.map .step) cpu device).map Moment.after =
      (moments other (run.map .step) cpu elsewhere).map Moment.after := by
  induction run generalizing cpu fetches device elsewhere with
  | nil => rfl
  | cons lines run ih =>
    rw [List.forall_mem_cons] at lets
    have here := (awaits.momentOn_step bus device lets.1).1
    have there := (awaits.momentOn_step other elsewhere lets.1).1
    simp only [momentOn] at here there
    simp only [List.map_cons, moments, here, there, List.cons.injEq, true_and]
    exact ih (awaits.idled lets.1) lets.2 _ _

/-- An interrupt that is accepted after a halted processor has only rested pushes the program
counter of the start. -/
theorem moments_resume (rests : start.Rests start.registers) {beats : List Beat} {device : σ}
    {early : List Moment} {accepting : Moment} {late : List Moment}
    (split : moments bus beats start device = early ++ accepting :: late)
    (undisturbed : Undisturbed early) (accepts : accepting.Accepts)
    (other : .maskable InterruptMode.injected.number ∉ acknowledgements accepting.calls) :
    start.registers.Resumes accepting.calls accepting.after := by
  refine moments_of_initial bus
    (fun past cpu => Undisturbed past → cpu.Rests start.registers)
    (fun past moment => Undisturbed past → moment.Accepts →
      .maskable InterruptMode.injected.number ∉ acknowledgements moment.calls →
        start.registers.Resumes moment.calls moment.after)
    ?_ (fun _ => rests) split undisturbed accepts other
  intro past beat cpu device rests
  have run (undisturbed : Undisturbed past) :=
    (beat.run_rests (rests undisturbed)).onBus bus device
  -- With the call itself undisturbed, the processor rests behind it too.
  refine ⟨fun undisturbed => (run undisturbed).2, fun whole => ?_⟩
  have undisturbed : Undisturbed past := fun moment among =>
    whole moment (List.mem_append_left _ among)
  obtain ⟨unaccepted, unreset⟩ := whole _ (List.mem_append_right _ (List.mem_singleton_self _))
  exact (run undisturbed).1 (Classical.not_not.mp unaccepted) unreset

/-- From every halted processor on a boundary, on every bus. As long as steps give it nothing to do,
it keeps its registers but for R, and stays halted with HALT asserted; a step without WAIT fetches
the byte at the program counter, ignores it, counts R up by one and takes four tacts; one with WAIT
makes no call and takes one tact; and the memory behind the bus stays as it is. An interrupt that is
accepted after calls of any kind that accept none and perform no reset releases HALT, and pushes the
program counter, unless a device injects the answer. If the processor was left by a step that
fetched HALT, then from right before the program counter. -/
theorem halt_waits (bus : Bus σ) (start : Cpu) (device : σ) (halted : start.halted = true)
    (boundary : start.pending = none) :
    (start.nmiPending = false → ∀ run : List Lines, (∀ lines ∈ run, lines.LetWait start) →
      (∀ early moment late,
        moments bus (run.map .step) start device = early ++ moment :: late →
          moment.Idles start (unheldCalls (early ++ [moment]))) ∧
      (∀ {τ : Type} (other : Bus τ) (elsewhere : τ),
        (moments other (run.map .step) start elsewhere).map Moment.after =
          (moments bus (run.map .step) start device).map Moment.after) ∧
      ∀ memory : σ → Word → Byte, bus.Backed memory →
        memory (deviceAfter bus (run.map .step) start device) = memory device) ∧
    (∀ beats early accepting late,
      moments bus beats start device = early ++ accepting :: late → Undisturbed early →
        accepting.Accepts →
          .maskable InterruptMode.injected.number ∉ acknowledgements accepting.calls →
            start.registers.Resumes accepting.calls accepting.after) ∧
    ∀ before lines (earlier : σ) index,
      (runOn (step lines) bus before earlier).cpu = start →
        (runOn (step lines) bus before earlier).value.instruction? = some (.main index .halt) →
          acknowledgements (callsOn (step lines) bus before earlier) = [] →
            callsOn (step lines) bus before earlier =
              [⟨.read (start.registers.pc - 1) .opcode, 0x76⟩] := by
  have rests : start.Rests start.registers := ⟨halted, boundary, rfl⟩
  refine ⟨?_, ?_, ?_⟩
  · intro unnoted run lets
    have awaits : start.Awaits start 0 := ⟨rests, unnoted, .refl _⟩
    have idles {early moment late}
        (split : moments bus (run.map .step) start device = early ++ moment :: late) :=
      moments_idle bus awaits lets split
    refine ⟨fun _ _ _ => idles, ?_, ?_⟩
    · intro τ other elsewhere
      exact moments_idle_congr other bus awaits lets elsewhere device
    · intro memory backed
      apply memory_deviceAfter bus backed
      -- All that is called for is the opcode at the program counter.
      intro moment among call made
      obtain ⟨early, late, split⟩ := List.append_of_mem among
      have calls := (idles split).calls
      rw [Cpu.IdleCalls] at calls
      split at calls
      · rw [calls] at made
        cases made
      · obtain ⟨byte, calls⟩ := calls
        rw [calls, List.mem_singleton] at made
        rw [made]
        rfl
  · intro beats early accepting late split undisturbed accepts other
    exact moments_resume bus rests split undisturbed accepts other
  · intro before lines earlier index left ran quiet
    have halts := (step_halts before lines index).onBus bus earlier
    rw [← left]
    exact halts ran quiet

/-- HALT at the start of memory, three steps that it waits through, one of them held and one with
INT masked, and NMI: the byte behind HALT is where the handler returns to. -/
theorem halt_waits_for_nmi :
    let halting := runOn (step {}) Board.bus Cpu.fresh (Board.fresh.load 0x0000 [0x76])
    let waiting : List Lines := [{}, { wait := true }, { int := true }]
    let beats : List Beat := waiting.map .step ++ [.step { nmi := true }]
    let trace := moments Board.bus beats halting.cpu halting.device
    (∀ moment ∈ moments Board.bus (waiting.map .step) halting.cpu halting.device,
        moment.after.registers.pc = 0x0001) ∧
      ∃ accepting, trace = trace.take 3 ++ [accepting] ∧
        accepting.after.halted = false ∧
        ∃ sp : Word, writes accepting.calls = [(sp - 1, 0x00), (sp - 2, 0x01)] := by
  intro halting waiting beats trace
  have behind : halting.cpu.registers.pc = 0x0001 := by decide +kernel
  obtain ⟨waits, resumes, -⟩ :=
    halt_waits Board.bus halting.cpu halting.device (by decide +kernel) (by decide +kernel)
  have lets : ∀ lines ∈ waiting, lines.LetWait halting.cpu := by
    -- Nothing has enabled interrupts since power came on.
    have masked : halting.cpu.registers.iff1 = false := by decide +kernel
    simp only [waiting, List.forall_mem_cons]
    exact ⟨⟨rfl, rfl, fun _ => masked⟩, ⟨rfl, rfl, fun _ => masked⟩, ⟨rfl, rfl, fun _ => masked⟩,
      nofun⟩
  obtain ⟨idles, -, -⟩ := waits (by decide +kernel) waiting lets
  constructor
  · intro moment among
    obtain ⟨early, late, split⟩ := List.append_of_mem among
    rw [(idles early moment late split).registers]
    exact behind
  · obtain ⟨accepting, last⟩ : ∃ accepting, trace.drop 3 = [accepting] := ⟨_, rfl⟩
    have split : trace = trace.take 3 ++ [accepting] := by rw [← last, List.take_append_drop]
    have undisturbed : Undisturbed (trace.take 3) := by
      unfold Undisturbed
      decide +kernel
    have accepted : ∀ moment ∈ trace.drop 3, moment.Accepts ∧
        .maskable InterruptMode.injected.number ∉ acknowledgements moment.calls := by
      decide +kernel
    obtain ⟨accepts, other⟩ := accepted accepting (by simp [last])
    have released := resumes _ _ accepting [] split undisturbed accepts other
    obtain ⟨sp, -, pushed, -⟩ := released.pushed
    rw [behind] at pushed
    exact ⟨accepting, split, released.released, sp, pushed⟩

end Exec

end Z80
