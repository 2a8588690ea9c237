import Mathlib.Tactic.MkIffOfInductiveProp
import Z80.Bus.Board
import Z80.Proofs.Replay

/-!
# Registers and latches agree

From a reset on, whatever drives the machine, its latches exclude each other: after a step it holds
interrupts off, or has just copied the interrupt enable to the parity flag, or is halted, or goes on
with a block instruction, or has a prefix pending, and never two of these at once. Along with this
go the agreements between registers and latches that instructions and interrupts rely on. None of
them is kept on its own: a prefix byte finds the flags unwritten only because the latches of the
instruction before are gone by then.

## Main definitions

* `Cpu.Consistent`: what the registers and the latches say of each other
* `Cpu.Unlatched`: the processor as an instruction finds it
* `Cpu.Coherent`: the outputs and the time that is owed agree with them too
* `Control`: whatever drives the machine
* `Cpu.Reached`: the processors that a reset leads to

## Main results

* `Instruction.execute_consistent`: every instruction leaves a consistent processor
* `Exec.step_coherent`, `Control.run_coherent`: what a step and what any control keeps
* `Cpu.reached_coherent`: every processor that a reset leads to is coherent
-/

namespace Z80

open Exec

/-! ### Agreement -/

/-- The latches of which one at most is set. -/
def Cpu.exclusive (cpu : Cpu) : List Bool :=
  [cpu.suppressed, cpu.enableCopied, cpu.halted, cpu.looping, cpu.prefixPending]

/-- What the registers and the latches say of each other. -/
@[mk_iff]
structure Cpu.Consistent (cpu : Cpu) : Prop where
  /-- No two latches are set at once. -/
  exclusive : cpu.exclusive.Pairwise fun first second => (first && second) = false
  enable : cpu.registers.iff1 = true → cpu.registers.iff2 = true
  /-- The copy of the enable still stands in the parity flag. -/
  copied : cpu.enableCopied = true → cpu.registers.f.p = cpu.registers.iff2
  written : cpu.written = {} ∨ cpu.written = cpu.registers.f
  /-- Prefix bytes write no flags. -/
  unwritten : cpu.prefixPending = true → cpu.written = {}
  selected : cpu.pending ≠ some .main

/-- No latch is set, and no flags are written yet: the processor as an instruction finds it. -/
structure Cpu.Unlatched (cpu : Cpu) : Prop where
  suppressed : cpu.suppressed = false
  enableCopied : cpu.enableCopied = false
  halted : cpu.halted = false
  looping : cpu.looping = false
  written : cpu.written = {}
  enable : cpu.registers.iff1 = true → cpu.registers.iff2 = true

/-- The processor is consistent, its HALT output is the latch, and less is owed of the last step
than it took. -/
structure Cpu.Coherent (cpu : Cpu) : Prop extends cpu.Consistent where
  halt : cpu.outputs.halt = cpu.halted
  backlog : cpu.backlog = 0 ∨ cpu.backlog < cpu.stepTacts

namespace Registers

variable (regs : Registers)

theorem f_setF (flags : Flags) : (regs.setF flags).f = flags := rfl

/-- No opcode field names the flags. -/
theorem f_setReg (index : Index) (register : Reg) (byte : Byte) :
    (regs.setReg index register byte).f = regs.f := by
  cases register with
  | h | l => exact congrArg Accumulator.f (regs.setIndex_kept index _).1
  | _ => rfl

end Registers

variable {cpu : Cpu}

/-- Consistency, latch by latch. -/
theorem Cpu.consistent_iff_latches :
    cpu.Consistent ↔
      ((cpu.suppressed = true → cpu.enableCopied = false ∧ cpu.halted = false ∧
          cpu.looping = false ∧ cpu.pending = none) ∧
        (cpu.enableCopied = true → cpu.halted = false ∧ cpu.looping = false ∧
          cpu.pending = none) ∧
        (cpu.halted = true → cpu.looping = false ∧ cpu.pending = none) ∧
        (cpu.looping = true → cpu.pending = none)) ∧
      (cpu.registers.iff1 = true → cpu.registers.iff2 = true) ∧
      (cpu.enableCopied = true → cpu.registers.f.p = cpu.registers.iff2) ∧
      (cpu.written = {} ∨ cpu.written = cpu.registers.f) ∧
      (cpu.prefixPending = true → cpu.written = {}) ∧ cpu.pending ≠ some .main := by
  rw [consistent_iff]
  refine and_congr ?_ Iff.rfl
  simp [exclusive, prefixPending, imp_and]

attribute [local simp] Cpu.consistent_iff_latches Cpu.prefixPending Registers.f_setF
  Registers.f_setReg Registers.setHL Registers.setDE Registers.setBC

/-- Where a prefix is pending, no latch is set. -/
theorem Cpu.Consistent.unlatched (consistent : cpu.Consistent)
    (prefixed : cpu.prefixPending = true) : cpu.Unlatched := by
  obtain ⟨⟨suppressed, copied, halted, looping⟩, enable, -, -, unwritten, -⟩ :=
    consistent_iff_latches.mp consistent
  obtain ⟨page, pending⟩ := Option.isSome_iff_exists.mp prefixed
  -- Each of the latches excludes the prefix.
  rw [pending] at suppressed copied halted looping
  exact ⟨by simpa using suppressed, by simpa using copied, by simpa using halted,
    by simpa using looping, unwritten prefixed, enable⟩

/-- Sampling the lines can only clear a latch. -/
theorem Cpu.Consistent.ready (consistent : cpu.Consistent) (lines : Lines) :
    (cpu.ready lines).Consistent := by
  rw [consistent_iff_latches] at consistent ⊢
  cases held : lines.wait <;> simp_all [Cpu.ready, Cpu.beginStep, Cpu.sampleNmi]

/-! ### Instructions -/

section Instructions

variable (unlatched : cpu.Unlatched) (boundary : cpu.pending = none)

include unlatched boundary

theorem Operation.execute_consistent (operation : Operation) (index : Index) :
    (operation.execute index).Always cpu fun _ _ after => after.Consistent := by
  obtain ⟨suppressed, enableCopied, halted, looping, written, enable⟩ := unlatched
  -- As a rewrite rule the implication needs no look at its premise.
  have enable := eq_true enable
  cases operation with
  | increment place | decrement place | accumulate _ place | loadImmediate place =>
    cases place <;> simp [execute, readPlace, modifyPlace, *]
  | _ => simp [execute, Registers.swapAccumulator, Registers.swapGeneral, *]

theorem BitOperation.execute_consistent (operation : BitOperation) (place : Place) :
    (operation.execute place).Always cpu fun _ _ after => after.Consistent := by
  obtain ⟨suppressed, enableCopied, halted, looping, written, enable⟩ := unlatched
  have enable := eq_true enable
  cases operation <;> cases place <;> simp [execute, *]

theorem BitOperation.executeIndexed_consistent (operation : BitOperation) (index : Index)
    (offset : Byte) (copy : Option Reg) :
    (operation.executeIndexed index offset copy).Always cpu fun _ _ after =>
      after.Consistent := by
  obtain ⟨suppressed, enableCopied, halted, looping, written, enable⟩ := unlatched
  have enable := eq_true enable
  cases operation <;> cases copy <;> simp [executeIndexed, *]

theorem BlockOperation.execute_consistent (operation : BlockOperation) :
    operation.execute.Always cpu fun _ _ after => after.Consistent := by
  obtain ⟨suppressed, enableCopied, halted, looping, written, enable⟩ := unlatched
  have enable := eq_true enable
  obtain ⟨action, _, _⟩ := operation
  cases action <;> simp [execute, act, transfer, compare, input, output, *]

theorem ExtendedOperation.execute_consistent (operation : ExtendedOperation) :
    operation.execute.Always cpu fun _ _ after => after.Consistent := by
  obtain ⟨suppressed, enableCopied, halted, looping, written, enable⟩ := id unlatched
  have enable := eq_true enable
  cases operation with
  | block operation => exact operation.execute_consistent unlatched boundary
  | input target => cases target <;> simp [execute, *]
  | _ => simp [execute, *]

/-- An instruction that finds no latch set leaves a consistent processor. -/
theorem Instruction.execute_consistent (instruction : Instruction) (offset : Byte) :
    (instruction.execute offset).Always cpu fun _ _ after => after.Consistent := by
  cases instruction with
  | main index operation => exact operation.execute_consistent unlatched boundary index
  | bits operation place =>
    exact (always_untaken _ _ _).mpr (operation.execute_consistent unlatched boundary place)
  | indexedBits index operation copy =>
    exact (always_untaken _ _ _).mpr
      (operation.executeIndexed_consistent unlatched boundary index offset copy)
  | extended operation => exact operation.execute_consistent unlatched boundary

end Instructions

/-! ### Steps -/

/-- A byte that selects a page never selects the main one. -/
theorem Page.next_ne_main {page : Page} {opcode : Byte} (selector : page.role opcode = .selector) :
    page.next opcode ≠ .main := by
  revert selector
  cases page <;> revert opcode <;> decide +kernel

/-- A selected page is all that is pending. -/
theorem Cpu.Unlatched.select (unlatched : cpu.Unlatched) {page : Page} (other : page ≠ .main) :
    Cpu.Consistent { cpu with pending := some page } := by
  obtain ⟨suppressed, enableCopied, halted, looping, written, enable⟩ := unlatched
  have enable := eq_true enable
  simp [*]

namespace Exec

theorem fetch_consistent (page : Page) (unlatched : (cpu.opened page).Unlatched) :
    (fetch page).Always cpu fun _ _ after => after.Consistent := by
  cases order : page.displacementFirst with
  | false =>
    rw [always_fetch_opcode cpu order]
    intro opcode
    have fetched : ((cpu.opened page).fetched opcode).Unlatched := { unlatched with }
    refine ⟨fun role => fetched.select (Page.next_ne_main role), fun instruction _ => ?_⟩
    refine instruction.execute_consistent ?_ rfl 0
    exact { fetched with }
  | true =>
    have same : cpu.opened page = cpu := by
      refine if_neg ?_
      rintro rfl
      cases order
    rw [same] at unlatched
    rw [always_fetch_displaced cpu order]
    intro offset opcode instruction _
    refine instruction.execute_consistent ?_ rfl offset
    exact { unlatched with }

theorem inject_consistent (unlatched : cpu.Unlatched) (boundary : cpu.pending = none) :
    inject.Always cpu fun _ _ after => after.Consistent := by
  simp only [inject, always_bind, always_dataLines, always_modify]
  intro opcode
  have noted : Cpu.Unlatched { cpu with lastFetched := opcode } := { unlatched with }
  cases role : Page.main.role opcode with
  | selector => exact noted.select (Page.next_ne_main role)
  | instruction instruction =>
    simp only [always_bind, always_modify, always_pure]
    refine Instruction.execute_consistent ?_ ?_ instruction 0
    · exact { noted with }
    · exact boundary

/-- Whatever a step performs leaves a consistent processor. -/
theorem perform_consistent (looping : Bool) (lines : Lines) (consistent : cpu.Consistent)
    (released : lines.wait = false → cpu.looping = false) :
    (perform looping (cpu.turn lines)).Always cpu fun _ _ after => after.Consistent := by
  have boundary := @Cpu.pending_of_turn cpu lines
  by_cases stall : cpu.turn lines = .stall
  · rw [stall]
    exact consistent
  have unlooped : cpu.looping = false := by
    apply released
    simpa [Cpu.turn_eq_stall_iff] using stall
  cases turn : cpu.turn lines with
  | stall => exact absurd turn stall
  | proceed page =>
    have pending := (Cpu.turn_eq_proceed_iff.mp turn).2
    have other : page ≠ .main := by
      rintro rfl
      exact consistent.selected pending
    refine fetch_consistent page ?_
    rw [Cpu.opened, if_neg other]
    exact consistent.unlatched (by simp [pending])
  | reset => simp [perform, Cpu.clear]
  | nonMaskable =>
    obtain ⟨-, pending, -, suppressed, -⟩ := Cpu.turn_eq_nonMaskable_iff.mp turn
    simp [perform, acknowledgeNonMaskable, interruptTo, Cpu.acknowledged, Cpu.ageFlags, *]
  | maskable =>
    obtain ⟨-, pending, -, suppressed, -⟩ := Cpu.turn_eq_maskable_iff.mp turn
    simp only [perform, acknowledgeMaskable, always_bind, always_registers, always_acknowledge,
      always_modify, always_updateRegisters]
    cases cpu.registers.im with
    | injected =>
      -- The acknowledgement has cleared the enable.
      exact inject_consistent ⟨suppressed, rfl, rfl, unlooped, rfl, fun enabled =>
        absurd enabled Bool.false_ne_true⟩ pending
    | restart => simp [interruptTo, Cpu.acknowledged, Cpu.ageFlags, *]
    | vectored => simp [jumpThroughTable, Cpu.acknowledged, Cpu.ageFlags, *]
  | idle =>
    have pending := boundary (by simp [turn]) (by simp [turn])
    have enable := eq_true consistent.enable
    simp [perform, idle, Cpu.beginInstruction, Registers.refresh, Cpu.ageFlags, *]
  | begin =>
    have awake := (Cpu.turn_eq_begin_iff.mp turn).2.2.2.2
    simp only [perform, always_bind, always_modify]
    exact fetch_consistent .main ⟨rfl, rfl, awake, unlooped, rfl, consistent.enable⟩

/-- A step leaves a coherent processor. -/
theorem step_coherent (lines : Lines) (coherent : cpu.Coherent) :
    (step lines).Always cpu fun _ _ after => after.Coherent := by
  have ready := coherent.toConsistent.ready lines
  have released : lines.wait = false → (cpu.ready lines).looping = false := by
    intro running
    simp [Cpu.ready, running]
  have consistent := perform_consistent cpu.looping lines ready released
  have settles := perform_settles (cpu.ready lines) cpu.looping lines rfl
  rw [always_step]
  refine (consistent.and settles).mono ?_
  rintro calls segment after ⟨consistent, settles⟩
  exact { consistent with halt := rfl, backlog := .inl settles.backlog }

/-- So does a tick. -/
theorem tick_coherent (lines : Lines) (coherent : cpu.Coherent) :
    (tick lines).Always cpu fun _ _ after => after.Coherent := by
  simp only [tick, always_bind, always_get, always_ite]
  constructor
  · -- What is owed gets less, and all else but the note of NMI and the time stays.
    intro owed
    have bound : cpu.backlog < cpu.stepTacts := coherent.backlog.resolve_left (by omega)
    simp only [spend, always_bind, always_modify, always_ite, always_pure, always_get]
    exact ⟨fun _ => { coherent with backlog := .inr bound },
      fun _ => { coherent with backlog := .inr (Nat.lt_of_le_of_lt (Nat.sub_le ..) bound) }⟩
  · intro _
    refine ((step_coherent lines coherent).and (step_settles cpu lines)).mono ?_
    rintro calls segment after ⟨coherent, settles⟩
    have positive : 0 < after.stepTacts := settles.stepTacts ▸ settles.positive
    exact { coherent with backlog := .inr (Nat.sub_lt positive Nat.one_pos) }

variable {ε : Type}

/-- What every step keeps is kept by every run of steps. -/
theorem drive_keeps {kept : Cpu → Prop}
    (steps : ∀ cpu lines, kept cpu → (step lines).Always cpu fun _ _ after => kept after)
    (ends : Segment → Cpu → Bool) (later : Lines → Lines) (observe : ε → Segment → Cpu → ε)
    (fuel : Nat) (lines : Lines) (seen : ε) (holds : kept cpu) :
    (drive ends later observe fuel lines seen).Always cpu fun _ _ after => kept after := by
  induction fuel generalizing cpu lines seen with
  | zero => exact holds
  | succ fuel ih =>
    simp only [drive, always_bind, always_get, always_ite, always_pure]
    refine (steps cpu lines holds).mono ?_
    intro calls segment after holds
    exact ⟨fun _ => holds, fun _ => ih _ _ holds⟩

end Exec

/-! ### Runs -/

/-- Whatever drives the machine. -/
inductive Control where
  /-- Go on by whole steps. -/
  | whole (advance : Advance)
  | tick (lines : Lines)
  /-- Reset at once, in no time. -/
  | reset

/-- Drive the machine. -/
def Control.run : Control → Exec Unit
  | .whole advance => do
    let _ ← advance.run
    return ()
  | .tick lines => do
    let _ ← Exec.tick lines
    return ()
  | .reset => modify Cpu.reset

/-- The processors that a reset leads to. The bus may change on the way. -/
inductive Cpu.Reached : Cpu → Prop where
  | reset (cpu : Cpu) : Reached cpu.reset
  | driven {σ : Type} {cpu : Cpu} (bus : Bus σ) (device : σ) (control : Control)
      (reached : Reached cpu) : Reached (runOn control.run bus cpu device).cpu

theorem Cpu.fresh_reached : Cpu.fresh.Reached := .reset {}

/-- A reset gives a coherent processor, whatever it was before. -/
theorem Cpu.reset_coherent (cpu : Cpu) : cpu.reset.Coherent where
  toConsistent := by simp [Cpu.reset, Cpu.clear]
  halt := rfl
  backlog := .inl rfl

/-- Whatever drives a coherent machine leaves it coherent. -/
theorem Control.run_coherent (control : Control) (coherent : cpu.Coherent) :
    control.run.Always cpu fun _ _ after => after.Coherent := by
  have steps (cpu : Cpu) (lines : Lines) := @step_coherent cpu lines
  cases control with
  | whole advance =>
    cases advance with
    | step lines =>
      simpa only [run, Advance.run, always_bind, always_pure] using step_coherent lines coherent
    | next lines | nextUnlooped lines =>
      simp only [run, Advance.run, nextInstruction, nextUnlooped, always_bind, always_map,
        always_pure]
      exact drive_keeps steps _ _ addTacts stepLimit _ _ coherent
  | tick lines => simpa only [run, always_bind, always_pure] using tick_coherent lines coherent
  | reset => simpa only [run, always_modify] using cpu.reset_coherent

theorem Cpu.Reached.coherent (reached : cpu.Reached) : cpu.Coherent := by
  induction reached with
  | reset cpu => exact cpu.reset_coherent
  | driven bus device control _ ih => exact (control.run_coherent ih).onBus bus device

/-- From a reset on, whatever drives the machine, and on any bus: the interrupt enable implies its
saved copy; the latches exclude each other and a pending prefix; the main page is never pending; the
flags as written are clear or the flags; the copy of the enable stands in the parity flag; HALT is
the latch; less is owed than the last step took. And every step is busy exactly if WAIT was asserted
or a prefix is pending after it. -/
theorem Cpu.reached_coherent (reached : cpu.Reached) :
    cpu.Coherent ∧
      ∀ {σ : Type} (bus : Bus σ) (device : σ) (lines : Lines),
        let stepped := runOn (step lines) bus cpu device
        stepped.value.busy = (lines.wait || stepped.cpu.prefixPending) := by
  refine ⟨reached.coherent, ?_⟩
  intro σ bus device lines
  exact ((step_delimits cpu lines).onBus bus device).1

/-- LD A,I behind EI: the accumulator is loaded in the shadow of EI, so the suppression is used up
when the copy of the enable is latched. -/
theorem Cpu.coherent_behind_ei :
    let board := Board.fresh.load 0x0000 [0xFB, 0xED, 0x57]
    let next := Control.run (.whole (.next {}))
    let enabled := runOn next Board.bus Cpu.fresh board
    let loaded := runOn next Board.bus enabled.cpu enabled.device
    enabled.cpu.suppressed = true ∧ loaded.cpu.enableCopied = true ∧
      loaded.cpu.registers.f.p = true ∧ loaded.cpu.suppressed = false := by
  intro board next enabled loaded
  have reached : loaded.cpu.Reached := .driven _ _ _ (.driven _ _ _ Cpu.fresh_reached)
  obtain ⟨coherent, -⟩ := Cpu.reached_coherent reached
  have copied : loaded.cpu.enableCopied = true := by decide +kernel
  have saved : loaded.cpu.registers.iff2 = true := by decide +kernel
  refine ⟨by decide +kernel, copied, (coherent.copied copied).trans saved, ?_⟩
  have exclusive := coherent.exclusive
  simp only [Cpu.exclusive, copied, List.pairwise_cons, List.mem_cons] at exclusive
  simpa using exclusive.1 true (.inl rfl)

end Z80
