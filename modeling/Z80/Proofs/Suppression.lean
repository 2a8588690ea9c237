import Z80.Proofs.Ageing
import Z80.Proofs.Reserved

/-!
# Interrupts held off for one boundary

EI and the undefined opcodes behind the extended prefix hold interrupts off on the boundary that
they end on, and nothing else does. The note of it is used up by the step that samples the boundary
and not by the time that goes by, so WAIT does not shorten it, and the instruction behind it runs up
to its end. There interrupts are sampled again, unless that instruction holds them off itself.

## Main definitions

* `Page.suppresses`, `Segment.suppresses`: the opcodes that hold interrupts off, and the segments
  that run one
* `Cpu.due`: what is to be acknowledged on a boundary where interrupts are not held off
* `suppressedLast`: the last that the machine did in a trace holds interrupts off

## Main results

* `Page.suppresses_of_role`: the opcodes are those of EI and of the undefined operation
* `Exec.step_suppressed`: what a step leaves noted
* `Exec.step_holds_off`, `Exec.step_samples`: what a step does on a boundary
* `Beat.run_holdsOff`: every call keeps to both
* `Exec.suppression_lasts_one_boundary`: what a step does with the lines, by the trace before it
-/

namespace Z80

open Exec

/-! ### What holds interrupts off -/

/-- The opcodes that hold interrupts off, on their pages: EI, and behind the extended prefix all
but those from 0x40 to 0x7F and the block instructions. -/
def Page.suppresses (page : Page) (opcode : Byte) : Bool :=
  page.sharesMain && opcode == 0xFB ||
    page == .extended && opcode &&& 0xC0 != 0x40 && opcode &&& 0xE4 != 0xA0

/-- The instruction holds interrupts off. -/
def Instruction.suppresses : Instruction → Bool
  | .main _ .enableInterrupts | .extended .undefined => true
  | _ => false

/-- The opcodes that hold interrupts off are those of the instructions that do. -/
theorem Page.suppresses_of_role {page : Page} {opcode : Byte} {instruction : Instruction}
    (role : page.role opcode = .instruction instruction) :
    instruction.suppresses = page.suppresses opcode := by
  refine Page.of_table (fun opcode instruction =>
    instruction.suppresses = page.suppresses opcode) ?_ role
  cases page <;> decide +kernel

/-- The segment runs an opcode that holds interrupts off. -/
def Segment.suppresses (segment : Segment) : Bool :=
  segment.executed?.any fun ran => ran.1.suppresses ran.2

/-! ### Instructions -/

section Instructions

-- With these the note comes out of each instruction.
attribute [local simp] Instruction.suppresses Registers.setHL Registers.setDE Registers.setBC

variable (cpu : Cpu)

theorem Operation.execute_suppressed (operation : Operation) (index : Index) :
    (operation.execute index).Always cpu fun _ _ after =>
      after.suppressed = ((Instruction.main index operation).suppresses || cpu.suppressed) := by
  cases operation with
  | increment place | decrement place | accumulate _ place | loadImmediate place =>
    cases place <;> simp [execute, readPlace, modifyPlace]
  | _ => simp [execute, Registers.swapAccumulator, Registers.swapGeneral]

theorem BitOperation.execute_suppressed (operation : BitOperation) (place : Place) :
    (operation.execute place).Always cpu fun _ _ after =>
      after.suppressed = cpu.suppressed := by
  cases operation <;> cases place <;> simp [execute]

theorem BitOperation.executeIndexed_suppressed (operation : BitOperation) (index : Index)
    (offset : Byte) (copy : Option Reg) :
    (operation.executeIndexed index offset copy).Always cpu fun _ _ after =>
      after.suppressed = cpu.suppressed := by
  cases operation <;> cases copy <;> simp [executeIndexed]

theorem BlockOperation.execute_suppressed (operation : BlockOperation) :
    operation.execute.Always cpu fun _ _ after => after.suppressed = cpu.suppressed := by
  obtain ⟨action, _, _⟩ := operation
  cases action <;> simp [execute, act, transfer, compare, input, output]

theorem ExtendedOperation.execute_suppressed (operation : ExtendedOperation) :
    operation.execute.Always cpu fun _ _ after =>
      after.suppressed = ((Instruction.extended operation).suppresses || cpu.suppressed) := by
  cases operation with
  | block operation => exact operation.execute_suppressed cpu
  | input target =>
    cases target <;> simp [execute]
  | _ => simp [execute]

/-- An instruction notes that it holds interrupts off, and leaves the note alone otherwise. -/
theorem Instruction.execute_suppressed (instruction : Instruction) (offset : Byte) :
    (instruction.execute offset).Always cpu fun _ _ after =>
      after.suppressed = (instruction.suppresses || cpu.suppressed) := by
  cases instruction with
  | main index operation => exact operation.execute_suppressed cpu index
  | bits operation place =>
    exact (always_untaken _ _ _).mpr (operation.execute_suppressed cpu place)
  | indexedBits index operation copy =>
    exact (always_untaken _ _ _).mpr (operation.executeIndexed_suppressed cpu index offset copy)
  | extended operation => exact operation.execute_suppressed cpu

end Instructions

/-! ### Steps -/

namespace Exec

-- What ran in a known segment computes.
attribute [local simp] Segment.suppresses Segment.executed?

variable (cpu : Cpu)

theorem fetch_suppressed (page : Page) :
    (fetch page).Always cpu fun _ segment after =>
      segment ≠ .stalled ∧ after.suppressed = (segment.suppresses || cpu.suppressed) := by
  cases order : page.displacementFirst with
  | false =>
    have kept : (cpu.opened page).suppressed = cpu.suppressed := by
      unfold Cpu.opened
      split <;> rfl
    rw [always_fetch_opcode cpu order]
    intro opcode
    refine ⟨fun _ => ⟨nofun, kept⟩, fun instruction role => ?_⟩
    refine (instruction.execute_suppressed _ 0).mono ?_
    intro calls taken after suppressed
    rw [Page.suppresses_of_role role] at suppressed
    exact ⟨nofun, suppressed.trans (congrArg _ kept)⟩
  | true =>
    rw [always_fetch_displaced cpu order]
    intro offset opcode instruction role
    refine (instruction.execute_suppressed _ offset).mono ?_
    intro calls taken after suppressed
    rw [Page.suppresses_of_role role] at suppressed
    exact ⟨nofun, suppressed⟩

theorem acknowledgeMaskable_suppressed (looping : Bool) :
    (acknowledgeMaskable looping).Always cpu fun _ segment after =>
      segment ≠ .stalled ∧ after.suppressed = (segment.suppresses || cpu.suppressed) := by
  cases mode : cpu.registers.im with
  | restart | vectored =>
    simp [acknowledgeMaskable, mode, interruptTo, jumpThroughTable, Cpu.acknowledged, Cpu.ageFlags]
  | injected =>
    simp only [acknowledgeMaskable, inject, always_bind, always_registers, always_acknowledge,
      always_modify, always_updateRegisters, mode, always_dataLines]
    intro opcode
    cases role : Page.main.role opcode with
    | selector => exact ⟨by simp, rfl⟩
    | instruction instruction =>
      simp only [always_bind, always_modify, always_pure]
      refine (instruction.execute_suppressed _ 0).mono ?_
      intro calls taken after suppressed
      rw [Page.suppresses_of_role role] at suppressed
      exact ⟨by simp, suppressed⟩

/-- What a step performs, unless it is held, uses the note up and makes its own. -/
theorem perform_suppressed (looping : Bool) {lines : Lines} (running : lines.wait = false)
    (inside : cpu.pending ≠ none → cpu.suppressed = false) :
    (perform looping (cpu.turn lines)).Always cpu fun _ segment after =>
      segment ≠ .stalled ∧ after.suppressed = segment.suppresses := by
  cases turn : cpu.turn lines with
  | stall => exact absurd (Cpu.turn_eq_stall_iff.mp turn) (by simp [running])
  | proceed page =>
    have pending := (Cpu.turn_eq_proceed_iff.mp turn).2
    have fetched := fetch_suppressed cpu page
    simp only [inside (by simp [pending]), Bool.or_false] at fetched
    exact fetched
  | reset => simp [perform, Cpu.clear]
  | nonMaskable =>
    have clear := (Cpu.turn_eq_nonMaskable_iff.mp turn).2.2.2.1
    simp [perform, acknowledgeNonMaskable, interruptTo, Cpu.acknowledged, Cpu.ageFlags, clear]
  | maskable =>
    have clear := (Cpu.turn_eq_maskable_iff.mp turn).2.2.2.1
    have accepted := acknowledgeMaskable_suppressed cpu looping
    simp only [clear, Bool.or_false] at accepted
    exact accepted
  | idle => simp [perform, idle, Cpu.beginInstruction, Cpu.ageFlags]
  | begin =>
    simp only [perform, always_bind, always_modify]
    simpa using fetch_suppressed { cpu with suppressed := false } .main

/-- A step that is held leaves the note, and every other one uses it up and makes its own. -/
theorem step_suppressed (lines : Lines) (inside : cpu.pending ≠ none → cpu.suppressed = false) :
    (step lines).Always cpu fun _ segment after =>
      after.suppressed = if segment = .stalled then cpu.suppressed else segment.suppresses := by
  rw [always_step]
  cases held : lines.wait with
  | true =>
    have turn : (cpu.ready lines).turn lines = .stall := Cpu.turn_eq_stall_iff.mpr held
    rw [turn]
    exact rfl
  | false =>
    refine (perform_suppressed (cpu.ready lines) cpu.looping held inside).mono ?_
    rintro calls segment after ⟨runs, suppressed⟩
    rw [if_neg runs]
    exact suppressed

end Exec

/-! ### What a step does on a boundary -/

namespace Cpu

variable {cpu : Cpu} {lines : Lines}

theorem turn_eq_reset_iff :
    cpu.turn lines = .reset ↔
      lines.wait = false ∧ cpu.pending = none ∧ lines.reset = true := by
  cases running : lines.wait <;> cases pending : cpu.pending <;> simp [turn, running, pending]
  grind

/-- What is to be acknowledged on a boundary where interrupts are not held off: NMI if it is noted
or asserted, else INT if it is asserted and enabled. -/
def due (cpu : Cpu) (lines : Lines) : List Acknowledgement :=
  if cpu.nmiPending || lines.nmi then [.nonMaskable]
  else if cpu.registers.iff1 && lines.int then [.maskable cpu.registers.im.number]
  else []

/-- The turn acknowledges what is due. -/
theorem acknowledgement?_turn (running : lines.wait = false) (boundary : cpu.pending = none)
    (unasserted : lines.reset = false) (clear : cpu.suppressed = false) :
    (((cpu.ready lines).turn lines).acknowledgement? cpu.registers.im).toList =
      cpu.due lines := by
  unfold turn due ready beginStep sampleNmi
  simp only [running, boundary, unasserted, clear]
  cases cpu.nmiPending <;> cases lines.nmi <;> cases cpu.registers.iff1 <;> cases lines.int <;>
    cases cpu.halted <;> rfl

/-- The calls and the segment begin an instruction at the program counter. -/
def BeginsWith (cpu : Cpu) (calls : List Exchange) (segment : Segment) : Prop :=
  ∃ opcode more, calls = ⟨.read cpu.registers.pc .opcode, opcode⟩ :: more ∧
    (segment = .selector .main opcode ∨ ∃ taken, segment = .instruction .main opcode taken)

end Cpu

namespace Exec

variable (cpu : Cpu) {lines : Lines}

/-- A step whose turn it is to begin an instruction takes its first byte. -/
theorem step_begins (turn : (cpu.ready lines).turn lines = .begin) :
    (step lines).Always cpu fun calls segment _ => cpu.BeginsWith calls segment := by
  rw [always_step, turn]
  simp only [perform, always_bind, always_modify, List.nil_append]
  rw [always_fetch_opcode _ rfl]
  intro opcode
  refine ⟨fun _ => ⟨opcode, [], rfl, .inl rfl⟩, fun instruction _ => ?_⟩
  refine (always_true _ (instruction.execute 0)).mono ?_
  intro more taken after _
  exact ⟨opcode, more, rfl, .inr ⟨taken, rfl⟩⟩

/-- On a boundary, a step that is no reset does what it does without RESET. -/
theorem step_of_unreset {post : List Exchange → Segment → Cpu → Prop}
    (running : lines.wait = false) (boundary : cpu.pending = none)
    (stepped : lines.reset = false → (step lines).Always cpu post) :
    (step lines).Always cpu fun calls segment after =>
      segment ≠ .reset → post calls segment after := by
  cases asserted : lines.reset with
  | false => exact (stepped asserted).mono fun _ _ _ holds _ => holds
  | true =>
    have turn : (cpu.ready lines).turn lines = .reset :=
      Cpu.turn_eq_reset_iff.mpr ⟨running, boundary, asserted⟩
    rw [always_step, turn]
    exact fun unreset => absurd rfl unreset

/-- Where interrupts are held off, a step acknowledges nothing and begins an instruction. -/
theorem step_holds_off (running : lines.wait = false) (boundary : cpu.pending = none)
    (awake : cpu.halted = false) (suppressed : cpu.suppressed = true) :
    (step lines).Always cpu fun calls segment _ =>
      segment ≠ .reset → acknowledgements calls = [] ∧ cpu.BeginsWith calls segment := by
  refine step_of_unreset cpu running boundary fun unasserted => ?_
  have turn : (cpu.ready lines).turn lines = .begin :=
    Cpu.turn_eq_begin_iff.mpr ⟨running, boundary, unasserted, .inl suppressed, awake⟩
  refine ((step_settles cpu lines).and (step_begins cpu turn)).mono ?_
  rintro calls segment after ⟨settles, begins⟩
  have quiet := settles.quiet.trans (congrArg Option.toList settles.accepted)
  rw [turn] at quiet
  exact ⟨quiet, begins⟩

/-- Elsewhere it acknowledges what is due. -/
theorem step_samples (running : lines.wait = false) (boundary : cpu.pending = none)
    (clear : cpu.suppressed = false) :
    (step lines).Always cpu fun calls segment _ =>
      segment ≠ .reset → acknowledgements calls = cpu.due lines := by
  refine step_of_unreset cpu running boundary fun unasserted => ?_
  refine (step_settles cpu lines).mono ?_
  intro calls segment after settles
  have quiet := settles.quiet.trans (congrArg Option.toList settles.accepted)
  exact quiet.trans (Cpu.acknowledgement?_turn running boundary unasserted clear)

end Exec

/-! ### Calls and runs -/

/-- The call makes a step without WAIT that is no reset, and this is its segment. -/
structure Moment.Steps (moment : Moment) (segment : Segment) : Prop where
  started : moment.started = some segment
  running : moment.beat.lines.wait = false
  unreset : segment ≠ .reset

/-- What a call does with the note and with the lines. -/
structure Moment.HoldsOff (moment : Moment) : Prop where
  noted : moment.after.suppressed =
    moment.active?.elim moment.before.suppressed Segment.suppresses
  held : ∀ segment, moment.Steps segment → moment.before.suppressed = true →
    moment.before.pending = none ∧ acknowledgements moment.calls = [] ∧
      moment.before.BeginsWith moment.calls segment
  sampled : ∀ segment, moment.Steps segment → moment.before.suppressed = false →
    moment.before.pending = none →
      acknowledgements moment.calls = moment.before.due moment.beat.lines

/-- What a call leaves noted of interrupts held off, if it begins the step. -/
theorem Moment.elim_active? {moment : Moment} {segment : Segment}
    (started : moment.started = some segment) (found : Bool) :
    moment.active?.elim found Segment.suppresses =
      if segment = .stalled then found else segment.suppresses := by
  by_cases stalled : segment = .stalled <;> simp [active?, started, Option.filter_some, stalled]

/-- Every call of a coherent machine holds interrupts off where they are to be held off, and samples
them elsewhere. -/
theorem Beat.run_holdsOff (beat : Beat) {cpu : Cpu} (coherent : cpu.Coherent) :
    beat.run.Always cpu fun calls started after =>
      Moment.HoldsOff ⟨beat, cpu, started, calls, after⟩ := by
  have exclusive := (Cpu.consistent_iff_latches.mp coherent.toConsistent).1.1
  have inside (prefixed : cpu.pending ≠ none) : cpu.suppressed = false :=
    Bool.of_not_eq_true fun suppressed => prefixed (exclusive suppressed).2.2.2
  refine beat.always_run ?_ ?_
  · have held : (Exec.step beat.lines).Always cpu fun calls segment _ =>
        beat.lines.wait = false → cpu.suppressed = true → segment ≠ .reset →
          acknowledgements calls = [] ∧ cpu.BeginsWith calls segment :=
      always_forall fun running => always_forall fun noted =>
        have ⟨_, awake, _, boundary⟩ := exclusive noted
        step_holds_off cpu running boundary awake noted
    have sampled : (Exec.step beat.lines).Always cpu fun calls segment _ =>
        beat.lines.wait = false → cpu.pending = none → cpu.suppressed = false →
          segment ≠ .reset → acknowledgements calls = cpu.due beat.lines :=
      always_forall fun running => always_forall fun boundary => always_forall fun clear =>
        step_samples cpu running boundary clear
    refine ((step_suppressed cpu beat.lines inside).and (held.and sampled)).mono ?_
    rintro calls segment after ⟨noted, held, sampled⟩ backlog
    refine ⟨noted.trans (Moment.elim_active? rfl _).symm, ?_, ?_⟩
    · rintro _ ⟨⟨⟩, running, unreset⟩ suppressed
      exact ⟨(exclusive suppressed).2.2.2, held running suppressed unreset⟩
    · rintro _ ⟨⟨⟩, running, unreset⟩ clear boundary
      exact sampled running boundary clear unreset
  · intro total backlog
    refine ⟨rfl, ?_, ?_⟩ <;>
      · rintro segment ⟨started, -, -⟩
        cases started

/-- The last that the machine did in a trace, waiting apart, was to run an opcode that holds
interrupts off. -/
def suppressedLast (trace : List Moment) : Bool := (lastActive trace).any Segment.suppresses

theorem suppressedLast_concat (trace : List Moment) (moment : Moment) :
    suppressedLast (trace ++ [moment]) =
      moment.active?.elim (suppressedLast trace) Segment.suppresses := by
  cases active : moment.active? with
  | none => rw [suppressedLast, lastActive_of_waits active]; rfl
  | some segment => rw [suppressedLast, lastActive_of_active active]; rfl

namespace Exec

variable {σ : Type}

/-- All through a run the note is what the trace says. -/
theorem moments_holdOff (bus : Bus σ) (cpu : Cpu) (device : σ) (beats : List Beat)
    (early : List Moment) (moment : Moment) (late : List Moment)
    (split : moments bus beats cpu.reset device = early ++ moment :: late) :
    moment.HoldsOff ∧ moment.before.suppressed = suppressedLast early := by
  refine moments_of_initial bus
    (fun past cpu => cpu.Coherent ∧ cpu.suppressed = suppressedLast past)
    (fun past moment => moment.HoldsOff ∧ moment.before.suppressed = suppressedLast past)
    ?_ ⟨cpu.reset_coherent, rfl⟩ split
  rintro past beat cpu device ⟨coherent, noted⟩
  have holds : (momentOn bus beat cpu device).HoldsOff :=
    (beat.run_holdsOff coherent).onBus bus device
  have next : (momentOn bus beat cpu device).after.Coherent :=
    (beat.run_coherent coherent).onBus bus device
  refine ⟨⟨holds, noted⟩, next, ?_⟩
  rw [suppressedLast_concat, ← noted]
  exact holds.noted

/-- Interrupts are held off for exactly one boundary. In every run of steps and ticks from a reset,
and on any bus, a step without WAIT that is no reset acknowledges nothing and begins an instruction,
whatever the lines are, if the last that the machine did was to run EI, on the main page or an index
page or for an interrupting device, or an undefined opcode behind the extended prefix. If it was
anything else, and be it the instruction behind those, then a step on a boundary acknowledges NMI if
that is noted or asserted, or else INT if that is asserted and enabled. -/
theorem suppression_lasts_one_boundary (bus : Bus σ) (cpu : Cpu) (device : σ) (beats : List Beat)
    (early : List Moment) (moment : Moment) (late : List Moment) (segment : Segment)
    (split : moments bus beats cpu.reset device = early ++ moment :: late)
    (steps : moment.Steps segment) :
    let before := moment.before
    let noted := acknowledgements moment.calls
    (suppressedLast early = true →
      before.pending = none ∧ noted = [] ∧ before.BeginsWith moment.calls segment) ∧
    (suppressedLast early = false → before.pending = none →
      (before.nmiPending = true ∨ moment.beat.lines.nmi = true → noted = [.nonMaskable]) ∧
      (before.nmiPending = false → moment.beat.lines.nmi = false →
        before.registers.iff1 = true → moment.beat.lines.int = true →
          noted = [.maskable before.registers.im.number])) := by
  intro before noted
  obtain ⟨holds, same⟩ := moments_holdOff bus cpu device beats early moment late split
  rw [← same]
  refine ⟨holds.held segment steps, fun clear boundary => ?_⟩
  have sampled : noted = before.due moment.beat.lines :=
    holds.sampled segment steps clear boundary
  rw [sampled, Cpu.due]
  constructor
  · intro due
    rw [if_pos (Bool.or_eq_true_iff.mpr due)]
  · intro unnoted unasserted enabled requested
    simp [unnoted, unasserted, enabled, requested]

/-- INT is held from the end of EI on. WAIT comes first, then another EI behind an index prefix, and
then NOP: only behind that is the interrupt acknowledged. -/
theorem suppression_lasts_behind_wait :
    let board := Board.fresh.load 0x0000 [0xFB, 0xDD, 0xFB, 0x00]
    let requested := Beat.step { int := true }
    let beats : List Beat :=
      [.step {}, .step { int := true, wait := true }, requested, requested, requested, requested]
    ∃ enabling waiting held again following sampling,
      moments Board.bus beats Cpu.fresh.reset board =
          [enabling, waiting, held, again, following, sampling] ∧
        held.before.registers.iff1 = true ∧ acknowledgements held.calls = [] ∧
        acknowledgements sampling.calls = [.maskable 0] := by
  intro board requested beats
  obtain ⟨enabling, waiting, held, again, following, sampling, made⟩ :
      ∃ enabling waiting held again following sampling,
        moments Board.bus beats Cpu.fresh.reset board =
          [enabling, waiting, held, again, following, sampling] :=
    ⟨_, _, _, _, _, _, rfl⟩
  have started : (moments Board.bus beats Cpu.fresh.reset board).map Moment.started =
      [some (.instruction .main 0xFB false), some .stalled, some (.selector .main 0xDD),
        some (.instruction .ix 0xFB false), some (.instruction .main 0x00 false),
        some (.injected 0xFF false)] := by
    decide +kernel
  have lines : (moments Board.bus beats Cpu.fresh.reset board).map (·.beat.lines) =
      [{}, { int := true, wait := true }, { int := true }, { int := true }, { int := true },
        { int := true }] :=
    rfl
  have last : ((moments Board.bus beats Cpu.fresh.reset board).drop 5).map (fun moment =>
        (moment.before.pending, moment.before.nmiPending, moment.before.registers.iff1,
          moment.before.registers.im)) =
      [(none, false, true, .injected)] := by
    decide +kernel
  have enabled : ((moments Board.bus beats Cpu.fresh.reset board).drop 2).head?.map
      (·.before.registers.iff1) = some true := by
    decide +kernel
  have behind : suppressedLast ((moments Board.bus beats Cpu.fresh.reset board).take 2) = true ∧
      suppressedLast ((moments Board.bus beats Cpu.fresh.reset board).take 5) = false := by
    decide +kernel
  simp only [made, List.map_cons, List.map_nil, List.cons.injEq, Prod.mk.injEq, and_true,
    List.take_succ_cons, List.take_zero, List.drop_succ_cons, List.drop_zero, List.head?_cons,
    Option.map_some, Option.some.injEq] at started lines last enabled behind
  have holding : held.Steps (.selector .main 0xDD) :=
    ⟨started.2.2.1, by rw [lines.2.2.1], nofun⟩
  have answering : sampling.Steps (.injected 0xFF false) :=
    ⟨started.2.2.2.2.2, by rw [lines.2.2.2.2.2], nofun⟩
  obtain ⟨-, quiet, -⟩ := (suppression_lasts_one_boundary Board.bus .fresh board beats
    [enabling, waiting] held [again, following, sampling] _ made holding).1 behind.1
  obtain ⟨boundary, unnoted, iff1, mode⟩ := last
  have sampled := ((suppression_lasts_one_boundary Board.bus .fresh board beats
    [enabling, waiting, held, again, following] sampling [] _ made answering).2 behind.2 boundary).2
    unnoted (by rw [lines.2.2.2.2.2]) iff1 (by rw [lines.2.2.2.2.2])
  rw [mode] at sampled
  exact ⟨enabling, waiting, held, again, following, sampling, made, enabled, quiet, sampled⟩

end Exec

end Z80
