import Mathlib.Data.List.Forall2
import Z80.Bus.Board
import Z80.Cpu.Align
import Z80.Proofs.Replay

/-!
# Processors that were aligned

Aligning a processor with all registers of another leaves it some state of its own. A step looks at
only a part of that: WZ, whether the machine is halted, whether the accumulator was just loaded from
I or R, and the flags that the last two instructions wrote. The rest are notes: a step writes them
and never looks at them. So an aligned processor runs in step with the other, whatever the program
and the lines, as long as the two agree on the five parts that matter, and each of the five is
needed.

## Main definitions

* `Leftover`: the parts of a processor that aligning leaves alone
* `notes`: the amendment that forgets the parts that do not matter
* `Exec.Overlooks`: a computation that does not look at the notes
* `Exec.InStep`: two processors make the same calls and hold the same registers after each step
* `Exec.Splits`: one leftover alone drives two aligned processors apart

## Main results

* `Cpu.align_all`: all that aligning leaves alone is a leftover
* `Exec.step_overlooks`: a step does not look at the notes
* `Exec.inStep_of_notes`: so processors that differ in their notes only run in step
* `Exec.align_inStep_iff`: which leftovers have to agree for aligned processors to run in step
-/

namespace Z80

open Exec

/-! ### What aligning leaves alone -/

/-- A part of a processor that aligning leaves alone. -/
inductive Leftover where
  | wz | halted | enableCopied | written | writtenBefore
  | lastFetched | lastOpcode | total | outputs | stepTacts | backlog

namespace Leftover

/-- Two processors agree on the part. -/
def Agrees (cpu other : Cpu) : Leftover → Prop
  | wz => cpu.registers.wz = other.registers.wz
  | halted => cpu.halted = other.halted
  | enableCopied => cpu.enableCopied = other.enableCopied
  | written => cpu.written = other.written
  | writtenBefore => cpu.writtenBefore = other.writtenBefore
  | lastFetched => cpu.lastFetched = other.lastFetched
  | lastOpcode => cpu.lastOpcode = other.lastOpcode
  | total => cpu.total = other.total
  | outputs => cpu.outputs = other.outputs
  | stepTacts => cpu.stepTacts = other.stepTacts
  | backlog => cpu.backlog = other.backlog

/-- What the machine does next can depend on the part. -/
def Matters : Leftover → Prop
  | wz | halted | enableCopied | written | writtenBefore => True
  | _ => False

end Leftover

/-- All letters copy the whole register file but WZ, I and R, and the interrupt enables and mode. -/
theorem Selection.copy_all (source target : Registers) :
    Selection.all.copy source target =
      { source with
        i := target.i
        r := target.r
        wz := target.wz
        iff1 := target.iff1
        iff2 := target.iff2
        im := target.im } := by
  have every : Selection.all.selected = RegisterPart.letters.map Prod.snd := by decide
  rw [Selection.copy, every]
  simp [RegisterPart.letters, RegisterPart.copy, Registers.setByte, Registers.getByte,
    Registers.updateAccumulator, Registers.updateGeneral, Registers.accumulatorOf,
    Registers.generalOf, Word.withHigh, Word.withLow]

/-- A processor aligned with all registers of another is the other, but for the leftovers. -/
theorem Cpu.align_all (cpu source : Cpu) :
    cpu.align source .all =
      { cpu with
        registers := { source.registers with wz := cpu.registers.wz }
        pending := source.pending
        suppressed := source.suppressed
        nmiPending := source.nmiPending
        looping := source.looping
        loopInterrupted := source.loopInterrupted } := by
  simp [align, Selection.copy_all]

/-! ### Notes -/

/-- Forget what a step writes and never looks at. -/
def notes : Cpu.Amendment where
  lastFetched _ := 0
  lastOpcode _ := 0
  total _ := 0
  outputs _ := {}
  stepTacts _ := 0
  backlog _ := 0

@[simp] theorem Cpu.amend_amend_notes (cpu : Cpu) :
    (cpu.amend notes).amend notes = cpu.amend notes := rfl

/-- Aligned processors that agree on what matters differ in their notes only. -/
theorem Cpu.align_amend_notes {cpu source : Cpu}
    (agree : ∀ part : Leftover, part.Matters → part.Agrees cpu source) :
    (cpu.align source .all).amend notes = source.amend notes := by
  have wz : cpu.registers.wz = source.registers.wz := agree .wz trivial
  have halted : cpu.halted = source.halted := agree .halted trivial
  have enableCopied : cpu.enableCopied = source.enableCopied := agree .enableCopied trivial
  have written : cpu.written = source.written := agree .written trivial
  have writtenBefore : cpu.writtenBefore = source.writtenBefore := agree .writtenBefore trivial
  rw [align_all]
  simp [amend, notes, wz, halted, enableCopied, written, writtenBefore]

namespace Exec

variable {α β σ : Type}

/-- The computation makes the same calls and gives the same value whatever the notes are, and what
it leaves differs in the notes only. -/
def Overlooks (program : Exec α) : Prop :=
  ∀ cpu, (fun result => (result.1, result.2.amend notes)) <$> program (cpu.amend notes) =
    (fun result => (result.1, result.2.amend notes)) <$> program cpu

section Rules

variable {program : Exec α}

theorem Carries.overlooks (carries : Carries notes program) : Overlooks program := by
  intro cpu
  have carried := carries cpu
  unfold CarriesAt at carried
  rw [carried, Functor.map_map]
  rfl

theorem Overlooks.bind {next : α → Exec β} (first : Overlooks program)
    (second : ∀ value, Overlooks (next value)) : Overlooks (program >>= next) := by
  intro cpu
  have opened (start : Cpu) :
      (fun result => (result.1, result.2.amend notes)) <$> (program >>= next) start =
        (fun result => (result.1, result.2.amend notes)) <$> program start >>= fun result =>
          (fun last => (last.1, last.2.amend notes)) <$> next result.1 result.2 := by
    change _ <$> (program start >>= fun result => next result.1 result.2) = _
    rw [map_bind, bind_map_left]
    apply congrArg (program start >>= ·)
    funext result
    exact (second result.1 result.2).symm
  rw [opened, opened, first cpu]

theorem overlooks_pure (value : α) : Overlooks (pure value) := fun _ => rfl

theorem overlooks_modify {change : Cpu → Cpu}
    (keeps : ∀ cpu, (change (cpu.amend notes)).amend notes = (change cpu).amend notes) :
    Overlooks (modify change) := by
  intro cpu
  exact congrArg (fun after => Program.done ((), after)) (keeps cpu)

/-- A look at the whole processor does no harm if what follows does not see the notes. -/
theorem overlooks_get_bind {next : Cpu → Exec β}
    (unread : ∀ cpu, next (cpu.amend notes) = next cpu) (overlooks : ∀ cpu, Overlooks (next cpu)) :
    Overlooks (get >>= next) := by
  intro cpu
  change _ <$> next (cpu.amend notes) (cpu.amend notes) = _ <$> next cpu cpu
  rw [unread]
  exact overlooks cpu cpu

end Rules

theorem fetchOpcode_overlooks : Overlooks fetchOpcode := by
  refine (carries_registers notes).overlooks.bind fun regs => ?_
  refine ((carries_calls notes).1 _ _).overlooks.bind fun opcode => ?_
  exact (overlooks_modify fun _ => rfl).bind fun _ => overlooks_pure opcode

theorem decode_overlooks (page : Page) (offset opcode : Byte) :
    Overlooks (decode page offset opcode) := by
  unfold decode
  cases page.role opcode with
  | selector => exact (overlooks_modify fun _ => rfl).bind fun _ => overlooks_pure _
  | instruction instruction =>
    refine (overlooks_modify fun _ => rfl).bind fun _ => ?_
    exact (instruction.execute_carries notes offset).overlooks.bind fun _ => overlooks_pure _

theorem fetch_overlooks (page : Page) : Overlooks (fetch page) := by
  have operand : Overlooks fetchOperand := (carries_accesses notes).1.overlooks
  cases order : page.displacementFirst with
  | true =>
    rw [fetch_of_displaced order]
    exact operand.bind fun offset => operand.bind fun opcode => decode_overlooks page offset opcode
  | false =>
    have fetched : Overlooks (fetchOpcode >>= decode page 0) :=
      fetchOpcode_overlooks.bind (decode_overlooks page 0)
    by_cases main : page = .main
    · subst main
      rw [fetch_main]
      exact (overlooks_modify fun _ => rfl).bind fun _ => fetched
    · rw [fetch_of_plain order main]
      exact fetched

theorem inject_overlooks : Overlooks inject := by
  have data : Overlooks dataLines := (carries_calls notes).2.2.2.2.1.overlooks
  refine data.bind fun opcode => (overlooks_modify fun _ => rfl).bind fun _ => ?_
  cases Page.main.role opcode with
  | selector => exact (overlooks_modify fun _ => rfl).bind fun _ => overlooks_pure _
  | instruction instruction =>
    refine (overlooks_modify fun _ => rfl).bind fun _ => ?_
    exact (instruction.execute_carries notes 0).overlooks.bind fun _ => overlooks_pure _

theorem interruptTo_overlooks (target : Word) : Overlooks (interruptTo target) := by
  have carries : Carries notes (interruptTo target) := fun _ => rfl
  exact carries.overlooks

theorem acknowledgeMaskable_overlooks (looping : Bool) :
    Overlooks (acknowledgeMaskable looping) := by
  have vectored : Carries notes jumpThroughTable := fun _ => rfl
  refine (carries_registers notes).overlooks.bind fun regs => ?_
  refine ((carries_calls notes).2.2.2.2.2.2.1 _).overlooks.bind fun _ => ?_
  refine (overlooks_modify fun _ => rfl).bind fun _ => ?_
  refine (carries_updateRegisters notes _).overlooks.bind fun _ => ?_
  cases regs.im with
  | injected => exact inject_overlooks
  | restart => exact (interruptTo_overlooks _).bind fun _ => overlooks_pure _
  | vectored => exact vectored.overlooks

/-- What a step performs does not look at the notes. -/
theorem perform_overlooks (looping : Bool) (turn : Turn) : Overlooks (perform looping turn) := by
  have keeps : Overlooks (modify fun cpu : Cpu => { cpu with suppressed := false }) :=
    overlooks_modify fun _ => rfl
  cases turn with
  | stall => exact overlooks_pure _
  | proceed page => exact fetch_overlooks page
  | reset => exact (overlooks_modify fun _ => rfl).bind fun _ => overlooks_pure _
  | nonMaskable =>
    refine (overlooks_modify fun _ => rfl).bind fun _ => ?_
    refine ((carries_calls notes).2.2.2.2.2.2.1 _).overlooks.bind fun _ => ?_
    refine (overlooks_modify fun _ => rfl).bind fun _ => ?_
    refine (carries_updateRegisters notes _).overlooks.bind fun _ => ?_
    exact (interruptTo_overlooks _).bind fun _ => overlooks_pure _
  | maskable => exact acknowledgeMaskable_overlooks looping
  | idle =>
    refine keeps.bind fun _ => (overlooks_modify fun _ => rfl).bind fun _ => ?_
    refine (carries_registers notes).overlooks.bind fun regs => ?_
    refine ((carries_calls notes).1 _ _).overlooks.bind fun _ => ?_
    exact (overlooks_modify fun _ => rfl).bind fun _ => overlooks_pure _
  | begin => exact keeps.bind fun _ => fetch_overlooks .main

/-- A step does not look at the notes. -/
theorem step_overlooks (lines : Lines) : Overlooks (step lines) := by
  refine (overlooks_modify fun _ => rfl).bind fun _ => ?_
  refine overlooks_get_bind (fun _ => rfl) fun cpu => ?_
  have rest : Overlooks (do
      let segment ← perform cpu.looping (cpu.turn lines)
      modify (·.endStep segment.tacts)
      return segment : Exec Segment) :=
    (perform_overlooks _ _).bind fun segment =>
      (overlooks_modify fun _ => rfl).bind fun _ => overlooks_pure segment
  by_cases stalled : cpu.turn lines = .stall
  · simpa only [stalled, ne_eq, not_true_eq_false, if_false] using rest
  · simpa only [stalled, ne_eq, not_false_eq_true, if_true] using
      (overlooks_modify fun _ => rfl).bind fun _ => rest

/-! ### In step -/

/-- Two processors that are driven by the same lines, each with its own copy of the device, hold the
same registers from the start, make the same calls in each step, and hold the same registers after
it. WZ is not compared. -/
def InStep (bus : Bus σ) (cpu other : Cpu) (device : σ) (all : List Lines) : Prop :=
  cpu.sameState other false = true ∧
    List.Forall₂
      (fun own master => own.calls = master.calls ∧ own.cpu.sameState master.cpu false = true)
      (watch bus (all.map step) cpu device) (watch bus (all.map step) other device)

/-- What does not look at the notes makes the same calls and leaves the same device from processors
that differ in their notes only, and again these differ in their notes only. -/
theorem Overlooks.onBus {program : Exec α} (overlooks : Overlooks program) {cpu other : Cpu}
    (same : cpu.amend notes = other.amend notes) (bus : Bus σ) (device : σ) :
    callsOn program bus cpu device = callsOn program bus other device ∧
      (runOn program bus cpu device).device = (runOn program bus other device).device ∧
      (runOn program bus cpu device).cpu.amend notes =
        (runOn program bus other device).cpu.amend notes := by
  have forgotten : (fun result => (result.1, result.2.amend notes)) <$> program cpu =
      (fun result => (result.1, result.2.amend notes)) <$> program other := by
    rw [← overlooks cpu, ← overlooks other, same]
  have calls := congrArg (fun tree => tree.calls bus device) forgotten
  have runs := congrArg (fun tree => tree.run bus device) forgotten
  simp only [map_eq_pure_bind, Program.calls_bind, Program.run_bind, Program.pure_eq_done,
    Program.calls_done, Program.run_done, List.append_nil, Prod.mk.injEq] at calls runs
  exact ⟨calls, runs.2, runs.1.2⟩

theorem sameState_of_notes {cpu other : Cpu} (same : cpu.amend notes = other.amend notes) :
    cpu.sameState other false = true := by
  have registers : cpu.registers = other.registers := congrArg (fun cpu => cpu.registers) same
  simp [Cpu.sameState, registers]

/-- Processors that differ in their notes only run in step. -/
theorem inStep_of_notes (bus : Bus σ) {cpu other : Cpu}
    (same : cpu.amend notes = other.amend notes) (device : σ) (all : List Lines) :
    InStep bus cpu other device all := by
  refine ⟨sameState_of_notes same, ?_⟩
  induction all generalizing cpu other device with
  | nil => exact .nil
  | cons lines rest ih =>
    obtain ⟨calls, left, after⟩ := (step_overlooks lines).onBus same bus device
    refine .cons ⟨calls, sameState_of_notes after⟩ ?_
    rw [left]
    exact ih after _

/-- Registers that differ after the first step spoil it. -/
theorem not_inStep_of_step {bus : Bus σ} {cpu other : Cpu} {device : σ} {lines : Lines}
    (differ : (runOn (step lines) bus cpu device).cpu.sameState
      (runOn (step lines) bus other device).cpu false = false) :
    ¬ InStep bus cpu other device [lines] := by
  rintro ⟨_, stepped⟩
  have same := (List.forall₂_cons.mp stepped).1.2
  cases differ.symm.trans same

/-- The part alone splits the two processors: they agree on all other leftovers, and once they are
aligned one step leaves them with different registers. -/
structure Splits (part : Leftover) (cpu source : Cpu) (board : Board) (lines : Lines) : Prop where
  agree : ∀ other, other ≠ part → other.Agrees cpu source
  differ : (runOn (step lines) Board.bus (cpu.align source .all) board).cpu.sameState
    (runOn (step lines) Board.bus source board).cpu false = false

/-- Each leftover that matters can make a difference all by itself. -/
theorem exists_splits {part : Leftover} (matters : part.Matters) :
    ∃ cpu source board lines, Splits part cpu source board lines := by
  -- With Y and X set and A clear, SCF tells whether flags were written before.
  let flagged : Cpu := Cpu.fresh.updateRegisters fun regs =>
    { regs with accumulator := { a := 0, f := { y := true, x := true } } }
  let setCarry := Board.fresh.load 0x0000 [0x37]
  cases part with
  | halted =>
    -- Only the processor that is not halted goes on over a NOP.
    refine ⟨.fresh, { Cpu.fresh with halted := true }, .fresh, {}, ?_, by decide +kernel⟩
    intro other differ
    cases other <;> first | rfl | exact absurd rfl differ
  | enableCopied =>
    -- An interrupt straight after LD A,I clears the parity flag.
    refine ⟨.fresh, { Cpu.fresh with enableCopied := true }, .fresh, { nmi := true }, ?_,
      by decide +kernel⟩
    intro other differ
    cases other <;> first | rfl | exact absurd rfl differ
  | written =>
    refine ⟨flagged, { flagged with written := { y := true } }, setCarry, {}, ?_,
      by decide +kernel⟩
    intro other differ
    cases other <;> first | rfl | exact absurd rfl differ
  | writtenBefore =>
    -- Behind a prefix SCF does not begin the instruction.
    refine ⟨{ flagged with pending := some .ix },
      { flagged with pending := some .ix, writtenBefore := { y := true } }, setCarry, {}, ?_,
      by decide +kernel⟩
    intro other differ
    cases other <;> first | rfl | exact absurd rfl differ
  | wz =>
    -- A bit test on memory shows the high byte of WZ.
    let prefixed : Cpu := { Cpu.fresh with pending := some .bits }
    refine ⟨prefixed, prefixed.updateRegisters fun regs => { regs with wz := 0xFFFF },
      Board.fresh.load 0x0000 [0x46], {}, ?_, by decide +kernel⟩
    intro other differ
    cases other <;> first | rfl | exact absurd rfl differ
  | _ => cases matters

/-- A processor aligned with all registers of another one runs in step with it, whatever is on the
bus and whatever the lines, as soon as the two agreed on WZ, on whether the machine is halted, on
whether the accumulator was just loaded from I or R, and on the flags that the last two instructions
wrote; and none of these five can be left out. What else the two hold of their own makes no
difference. -/
theorem align_inStep_iff (parts : Leftover → Prop) :
    (∀ (σ : Type) (bus : Bus σ) (device : σ) (cpu source : Cpu) (all : List Lines),
      (∀ part, parts part → part.Agrees cpu source) →
        InStep bus (cpu.align source .all) source device all) ↔
      ∀ part : Leftover, part.Matters → parts part := by
  constructor
  · intro inStep part matters
    apply Classical.byContradiction
    intro missing
    obtain ⟨cpu, source, board, lines, split⟩ := exists_splits matters
    refine not_inStep_of_step split.differ (inStep Board Board.bus board cpu source [lines] ?_)
    intro other held
    apply split.agree other
    rintro rfl
    exact missing held
  · intro among σ bus device cpu source all agree
    apply inStep_of_notes
    exact Cpu.align_amend_notes fun part matters => agree part (among part matters)

/-- After HALT a processor that is aligned with a halted one is not halted: with the next step it
goes on. -/
theorem align_inStep_fails :
    ¬ ∀ (cpu : Cpu) (all : List Lines),
      let source := runOn (step {}) Board.bus Cpu.fresh (Board.fresh.load 0x0000 [0x76])
      InStep Board.bus (cpu.align source.cpu .all) source.cpu source.device all := by
  intro inStep
  exact not_inStep_of_step (by decide +kernel) (inStep .fresh [{}])

end Exec

end Z80
