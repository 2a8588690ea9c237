import Mathlib.Tactic.MkIffOfInductiveProp
import Z80.Bus.Board
import Z80.Proofs.Coherence
import Z80.Proofs.SavedLoop

/-!
# Latches that live for one instruction

Three latches are about one instruction only: the flags as it has written them, what they were
before it, and whether it has copied the interrupt enable. They age where something begins on a
boundary, be it a fetch or an acceptance, and nowhere else: not at further prefix bytes, and not
while the machine waits. So what they hold on a boundary is what the machine did last, and what an
instruction finds in them is what was done before it, whatever lies between its first byte and its
last.

## Main definitions

* `Latches`, `Latches.age`, `Latches.spoil`: the latches, and what a beginning makes of them
* `Instruction.Ages`, `Segment.Ages`: what an instruction and a step do to the latches
* `Program.Reaches`: the branches of a program
* `Begun`: the call that something began with
* `lastActive`: what the machine did last, waiting apart
* `Moment.Completes`, `Moment.Spoils`: what is said of an instruction and of an acceptance

## Main results

* `Instruction.execute_ages`: what every instruction does to the latches
* `Exec.step_ages`: a step ages them on a boundary and nowhere else
* `Cpu.AgedBy.next`, `Exec.moments_aged`: what a call and a run keep
* `Exec.latches_age_once`: what follows for every instruction and every acceptance of a run
-/

namespace Z80

open Exec

/-! ### Latches -/

/-- The latches that live for one instruction, with the registers that they go with. -/
structure Latches where
  /-- The flags that were written since the last boundary. -/
  written : Flags
  /-- What they were on that boundary. -/
  writtenBefore : Flags
  enableCopied : Bool
  flags : Flags
  accumulator : Byte

/-- The short-lived latches of the processor. -/
def Cpu.shortLived (cpu : Cpu) : Latches where
  written := cpu.written
  writtenBefore := cpu.writtenBefore
  enableCopied := cpu.enableCopied
  flags := cpu.registers.f
  accumulator := cpu.registers.a

/-- The instruction writes the flags through the arithmetic unit. -/
def Instruction.writesFlags : Instruction → Bool
  | .main _ operation =>
    match operation with
    | .addPair _ | .increment _ | .decrement _ | .rotateAccumulator _ | .decimalAdjust
    | .complement | .setCarry | .complementCarry | .accumulate _ _ | .accumulateImmediate _ => true
    | _ => false
  | .bits operation _ | .indexedBits _ operation _ =>
    match operation with
    | .shift _ | .test _ => true
    | _ => false
  | .extended operation =>
    match operation with
    | .input _ | .subtractPair _ | .addPair _ | .negate | .loadVectorPage | .loadRefresh
    | .rotateDigitsRight | .rotateDigitsLeft | .block _ => true
    | _ => false

/-- The instruction takes the flags from elsewhere as they are: POP AF and EX AF,AF'. -/
def Instruction.replacesFlags : Instruction → Bool
  | .main _ .exchangeAccumulators | .main _ (.pop .af) => true
  | _ => false

/-- The instruction copies the interrupt enable into the parity flag: LD A,I and LD A,R. -/
def Instruction.copiesEnable : Instruction → Bool
  | .extended .loadVectorPage | .extended .loadRefresh => true
  | _ => false

/-- The instruction is SCF or CCF. -/
def Instruction.marksCarry : Instruction → Bool
  | .main _ .setCarry | .main _ .complementCarry => true
  | _ => false

/-- What an instruction does to the latches and to the flags. -/
@[mk_iff]
structure Instruction.Ages (instruction : Instruction) (start after : Latches) : Prop where
  written : after.written = if instruction.writesFlags then after.flags else start.written
  writtenBefore : after.writtenBefore = start.writtenBefore
  enableCopied : after.enableCopied = (instruction.copiesEnable || start.enableCopied)
  flags : instruction.writesFlags = false → instruction.replacesFlags = false →
    after.flags = start.flags
  copies : instruction.marksCarry = true →
    after.flags.y = ((start.writtenBefore.y ^^ start.flags.y) || start.accumulator.getLsbD 5) ∧
      after.flags.x = ((start.writtenBefore.x ^^ start.flags.x) || start.accumulator.getLsbD 3)

section Instructions

/-- No opcode field names the flags. -/
theorem Registers.accumulator_f_setReg (regs : Registers) (index : Index) (register : Reg)
    (byte : Byte) : (regs.setReg index register byte).accumulator.f = regs.accumulator.f :=
  regs.f_setReg index register byte

-- With these the latches after an instruction come out one by one.
attribute [local simp] Instruction.ages_iff Cpu.shortLived Instruction.writesFlags
  Instruction.replacesFlags Instruction.copiesEnable Instruction.marksCarry
  Registers.accumulator_f_setReg Registers.f Registers.setA Registers.setF Registers.setHL
  Registers.setDE Registers.setBC

variable (cpu : Cpu)

theorem Operation.execute_ages (operation : Operation) (index : Index) :
    (operation.execute index).Always cpu fun _ _ after =>
      (Instruction.main index operation).Ages cpu.shortLived after.shortLived := by
  cases operation with
  | increment place | decrement place | accumulate _ place | loadImmediate place =>
    cases place <;> simp [execute, readPlace, modifyPlace]
  | pop pair =>
    cases pair <;> simp [execute, Registers.setStackPair]
  | setCarry | complementCarry =>
    simp [execute, Arithmetic.setCarry, Arithmetic.complementCarry, Arithmetic.carryCopies]
  | _ => simp [execute, Registers.swapAccumulator, Registers.swapGeneral]

theorem BitOperation.execute_ages (operation : BitOperation) (place : Place) :
    (operation.execute place).Always cpu fun _ _ after =>
      (Instruction.bits operation place).Ages cpu.shortLived after.shortLived := by
  cases operation <;> cases place <;> simp [execute]

theorem BitOperation.executeIndexed_ages (operation : BitOperation) (index : Index)
    (offset : Byte) (copy : Option Reg) :
    (operation.executeIndexed index offset copy).Always cpu fun _ _ after =>
      (Instruction.indexedBits index operation copy).Ages cpu.shortLived after.shortLived := by
  cases operation <;> cases copy <;> simp [executeIndexed]

theorem BlockOperation.execute_ages (operation : BlockOperation) :
    operation.execute.Always cpu fun _ _ after =>
      (Instruction.extended (.block operation)).Ages cpu.shortLived after.shortLived := by
  obtain ⟨action, _, _⟩ := operation
  cases action <;> simp [execute, act, transfer, compare, input, output]

theorem ExtendedOperation.execute_ages (operation : ExtendedOperation) :
    operation.execute.Always cpu fun _ _ after =>
      (Instruction.extended operation).Ages cpu.shortLived after.shortLived := by
  cases operation with
  | block operation => exact operation.execute_ages cpu
  | input target =>
    cases target <;> simp [execute]
  | _ => simp [execute]

theorem Instruction.execute_ages (instruction : Instruction) (offset : Byte) :
    (instruction.execute offset).Always cpu fun _ _ after =>
      instruction.Ages cpu.shortLived after.shortLived := by
  cases instruction with
  | main index operation => exact operation.execute_ages cpu index
  | bits operation place =>
    exact (always_untaken _ _ _).mpr (operation.execute_ages cpu place)
  | indexedBits index operation copy =>
    exact (always_untaken _ _ _).mpr (operation.executeIndexed_ages cpu index offset copy)
  | extended operation => exact operation.execute_ages cpu

end Instructions

/-! ### Steps -/

/-- The latches move on by one instruction. -/
def Latches.age (latches : Latches) : Latches :=
  { latches with written := {}, writtenBefore := latches.written, enableCopied := false }

/-- An acceptance spoils the copy of the interrupt enable in the parity flag. -/
def Latches.spoil (latches : Latches) : Latches :=
  { latches with flags := { latches.flags with p := latches.flags.p && !latches.enableCopied } }

/-- A segment that is neither held nor a reset leaves the latches as it finds them, unless it runs
an instruction. -/
structure Segment.AgesFrom (segment : Segment) (start after : Latches) : Prop where
  runs : segment ≠ .stalled
  unreset : segment ≠ .reset
  idle : segment.instruction? = none → after = start
  ran : ∀ instruction, segment.instruction? = some instruction → instruction.Ages start after

namespace Segment.AgesFrom

variable {segment : Segment} {start after : Latches}

theorem of_idle (runs : segment ≠ .stalled) (unreset : segment ≠ .reset)
    (idle : segment.instruction? = none) : segment.AgesFrom start start where
  runs := runs
  unreset := unreset
  idle _ := rfl
  ran instruction found := by cases idle.symm.trans found

theorem of_instruction {instruction : Instruction}
    (found : segment.instruction? = some instruction) (ages : instruction.Ages start after) :
    segment.AgesFrom start after where
  runs held := by cases held ▸ found
  unreset reset := by cases reset ▸ found
  idle none := by cases none.symm.trans found
  ran other same := by
    cases found.symm.trans same
    exact ages

end Segment.AgesFrom

/-- The latches that what the turn performs goes on from. -/
def Turn.start (before : Latches) : Turn → Latches
  | .proceed _ => before
  | .nonMaskable | .maskable => before.spoil.age
  | _ => before.age

namespace Exec

variable (cpu : Cpu)

theorem fetch_agesFrom (page : Page) :
    (fetch page).Always cpu fun _ segment after =>
      segment.AgesFrom (cpu.opened page).shortLived after.shortLived := by
  cases order : page.displacementFirst with
  | false =>
    rw [always_fetch_opcode cpu order]
    intro opcode
    refine ⟨fun _ => .of_idle (by simp) (by simp) rfl, fun instruction role => ?_⟩
    refine (instruction.execute_ages _ 0).mono ?_
    intro calls taken after ages
    exact .of_instruction (congrArg Role.instruction? role) ages
  | true =>
    have other : page ≠ .main := by
      rintro rfl
      cases order
    rw [always_fetch_displaced cpu order, Cpu.opened, if_neg other]
    intro offset opcode instruction role
    refine (instruction.execute_ages _ offset).mono ?_
    intro calls taken after ages
    exact .of_instruction (congrArg Role.instruction? role) ages

theorem acknowledgeMaskable_agesFrom (looping : Bool) :
    (acknowledgeMaskable looping).Always cpu fun _ segment after =>
      segment.AgesFrom cpu.shortLived.spoil.age after.shortLived := by
  cases mode : cpu.registers.im with
  | restart | vectored =>
    simp only [acknowledgeMaskable, mode, interruptTo, jumpThroughTable, always_bind,
      always_registers, always_acknowledge, always_modify, always_updateRegisters,
      always_dataLines, always_pushWord, always_byteValue, always_readWord, always_jumpTo,
      always_pure]
    intros
    exact .of_idle (by simp) (by simp) rfl
  | injected =>
    simp only [acknowledgeMaskable, inject, always_bind, always_registers, always_acknowledge,
      always_modify, always_updateRegisters, mode, always_dataLines]
    intro opcode
    cases role : Page.main.role opcode with
    | selector => exact .of_idle (by simp) (by simp) rfl
    | instruction instruction =>
      simp only [always_bind, always_modify]
      refine (instruction.execute_ages _ 0).mono ?_
      intro calls taken after ages
      exact .of_instruction (congrArg Role.instruction? role) ages

/-- What a step performs, unless it is held or a reset. No prefix selects the main page. -/
theorem perform_agesFrom (looping : Bool) {turn : Turn} (runs : turn ≠ .stall)
    (unreset : turn ≠ .reset) (selected : turn ≠ .proceed .main) :
    (perform looping turn).Always cpu fun _ segment after =>
      segment.AgesFrom (turn.start cpu.shortLived) after.shortLived := by
  cases turn with
  | stall => exact absurd rfl runs
  | reset => exact absurd rfl unreset
  | proceed page =>
    have other : page ≠ .main := fun main => selected (congrArg Turn.proceed main)
    have fetched := fetch_agesFrom cpu page
    rw [Cpu.opened, if_neg other] at fetched
    exact fetched
  | begin => exact fetch_agesFrom { cpu with suppressed := false } .main
  | maskable => exact acknowledgeMaskable_agesFrom cpu looping
  | nonMaskable =>
    simp only [perform, acknowledgeNonMaskable, interruptTo, always_bind, always_registers,
      always_acknowledge, always_modify, always_updateRegisters, always_pushWord, always_jumpTo,
      always_pure]
    intros
    exact .of_idle (by simp) (by simp) rfl
  | idle => exact fun _ => .of_idle (by simp) (by simp) rfl

end Exec

/-- The latches that what begins on a boundary goes on from. An acceptance is seen on the bus. -/
def Cpu.opening (cpu : Cpu) (calls : List Exchange) : Latches :=
  if acknowledgements calls = [] then cpu.shortLived.age else cpu.shortLived.spoil.age

/-- Whatever begins, the latches have aged, and the flags and the accumulator are those found but
for the parity flag. -/
theorem Cpu.opening_kept (cpu : Cpu) (calls : List Exchange) :
    (cpu.opening calls).written = {} ∧ (cpu.opening calls).writtenBefore = cpu.written ∧
      (cpu.opening calls).enableCopied = false ∧
      (cpu.opening calls).accumulator = cpu.registers.a ∧
      (cpu.opening calls).flags.y = cpu.registers.f.y ∧
      (cpu.opening calls).flags.x = cpu.registers.f.x := by
  unfold opening
  split <;> exact ⟨rfl, rfl, rfl, rfl, rfl, rfl⟩

/-- What a step does to the latches. They age on a boundary and nowhere else, before an instruction
runs. WAIT leaves them alone, and a reset clears them. -/
structure Segment.Ages (segment : Segment) (before : Cpu) (calls : List Exchange) (after : Cpu) :
    Prop where
  held : segment = .stalled → after.shortLived = before.shortLived ∧ after.pending = before.pending
  reset : segment = .reset → after.written = {} ∧ after.enableCopied = false
  ran : segment ≠ .stalled → segment ≠ .reset →
    segment.AgesFrom (if before.pending = none then before.opening calls else before.shortLived)
      after.shortLived
  busy : segment ≠ .stalled → segment.busy = after.pending.isSome
  accepts : acknowledgements calls ≠ [] →
    before.pending = none ∧ segment ≠ .stalled ∧ segment ≠ .reset

namespace Exec

variable (cpu : Cpu) {lines : Lines}

/-- What the turn goes on from, as the bus and the pending page tell it. -/
theorem start_eq {turn : Turn} (taken : (cpu.ready lines).turn lines = turn) (runs : turn ≠ .stall)
    {mode : InterruptMode} {calls : List Exchange}
    (quiet : acknowledgements calls = (turn.acknowledgement? mode).toList) :
    (if cpu.pending = none then cpu.opening calls else cpu.shortLived) =
      turn.start cpu.shortLived := by
  have boundary (stall : turn ≠ .stall) (proceed : ∀ page, turn ≠ .proceed page) :
      cpu.pending = none := by
    rw [← taken] at stall proceed
    have same : (cpu.ready lines).pending = none := Cpu.pending_of_turn stall proceed
    exact same
  cases turn with
  | stall => exact absurd rfl runs
  | proceed page =>
    have pending : cpu.pending = some page := (Cpu.turn_eq_proceed_iff.mp taken).2
    rw [pending, if_neg nofun]
    rfl
  | nonMaskable | maskable =>
    have noted : acknowledgements calls ≠ [] := by simp [quiet, Turn.acknowledgement?]
    rw [if_pos (boundary nofun nofun), Cpu.opening, if_neg noted]
    rfl
  | reset | idle | begin =>
    have silent : acknowledgements calls = [] := quiet
    rw [if_pos (boundary nofun nofun), Cpu.opening, if_pos silent]
    rfl

/-- A step that is neither held nor a reset. -/
theorem step_ages_of_turn {turn : Turn} (taken : (cpu.ready lines).turn lines = turn)
    (runs : turn ≠ .stall) (unreset : turn ≠ .reset) (selected : cpu.pending ≠ some .main) :
    (step lines).Always cpu fun calls segment after => segment.Ages cpu calls after := by
  have running : lines.wait = false := by
    simpa [← taken, Cpu.turn_eq_stall_iff] using runs
  -- Behind a prefix byte the machine goes on with the instruction, so nothing ages there.
  have onward : turn ≠ .proceed .main := by
    rintro rfl
    exact selected (Cpu.turn_eq_proceed_iff.mp taken).2
  have agesFrom : (step lines).Always cpu fun _ segment after =>
      segment.AgesFrom (turn.start cpu.shortLived) after.shortLived := by
    rw [always_step, taken]
    exact perform_agesFrom (cpu.ready lines) cpu.looping runs unreset onward
  refine (agesFrom.and ((step_settles cpu lines).and (step_delimits cpu lines))).mono ?_
  rintro calls segment after ⟨agesFrom, settles, busy, -⟩
  rw [taken] at settles
  have quiet := settles.quiet.trans (congrArg Option.toList settles.accepted)
  rw [running, Bool.false_or] at busy
  refine ⟨fun held => absurd held agesFrom.runs, fun reset => absurd reset agesFrom.unreset, ?_,
    fun _ => busy, ?_⟩
  · intro _ _
    rw [start_eq cpu taken runs quiet]
    exact agesFrom
  · intro accepts
    refine ⟨?_, agesFrom.runs, agesFrom.unreset⟩
    -- No other turn is acknowledged on the bus.
    cases turn with
    | nonMaskable => exact (Cpu.turn_eq_nonMaskable_iff.mp taken).2.1
    | maskable => exact (Cpu.turn_eq_maskable_iff.mp taken).2.1
    | _ => exact absurd quiet accepts

/-- No prefix selects the main page, so the latches age once for each instruction. -/
theorem step_ages (selected : cpu.pending ≠ some .main) :
    (step lines).Always cpu fun calls segment after => segment.Ages cpu calls after := by
  by_cases stall : (cpu.ready lines).turn lines = .stall
  · rw [always_step, stall]
    exact ⟨fun _ => ⟨rfl, rfl⟩, nofun, fun runs => absurd rfl runs, fun runs => absurd rfl runs,
      fun accepts => absurd rfl accepts⟩
  by_cases reset : (cpu.ready lines).turn lines = .reset
  · rw [always_step, reset]
    exact ⟨nofun, fun _ => ⟨rfl, rfl⟩, fun _ unreset => absurd rfl unreset, fun _ => rfl,
      fun accepts => absurd rfl accepts⟩
  · exact step_ages_of_turn cpu rfl stall reset selected

end Exec

/-! ### Injected instructions -/

section Branches

variable {α : Type}

/-- The calls and the value are those of a branch of the program. -/
def Program.Reaches : Program α → List Exchange → α → Prop
  | .done value, calls, result => calls = [] ∧ result = value
  | .call request next, calls, result =>
    ∃ answer rest, calls = ⟨request, answer⟩ :: rest ∧ (next answer).Reaches rest result

theorem Program.always_reaches (program : Program α) : program.Always program.Reaches := by
  induction program with
  | done value => exact ⟨rfl, rfl⟩
  | call request next ih =>
    intro answer
    exact (ih answer).mono fun rest result reaches => ⟨answer, rest, rfl, reaches⟩

/-- Started on a processor, the computation has a branch with these calls that ends so. -/
def Exec.Reaches (program : Exec α) (cpu : Cpu) (calls : List Exchange) (value : α)
    (after : Cpu) : Prop :=
  (program cpu).Reaches calls (value, after)

theorem Exec.always_reaches (program : Exec α) (cpu : Cpu) :
    program.Always cpu (program.Reaches cpu) := Program.always_reaches (program cpu)

end Branches

/-- The registers that an accepted maskable interrupt leaves, with the flags as given. -/
def Registers.accepting (regs : Registers) (flags : Flags) : Registers :=
  { regs.refresh.setF flags with iff1 := false, iff2 := false }

/-- A device has injected the instruction, and it has run from the registers that the acceptance
leaves, with the flags as given. -/
def Instruction.InjectedBetween (instruction : Instruction) (before : Registers) (flags : Flags)
    (calls : List Exchange) (after : Registers) : Prop :=
  ∃ start opcode more taken last, start.registers = before.accepting flags ∧
    calls = [⟨.acknowledge (.maskable InterruptMode.injected.number), ()⟩, ⟨.dataLines, opcode⟩]
      ++ more ∧
    (instruction.execute 0).Reaches start more taken last ∧ last.registers = after

namespace Exec

variable (cpu : Cpu) {lines : Lines}

theorem acknowledgeMaskable_injects (looping : Bool) :
    (acknowledgeMaskable looping).Always cpu fun calls segment after =>
      ∀ instruction, segment.instruction? = some instruction →
        instruction.InjectedBetween cpu.registers cpu.shortLived.spoil.flags calls
          after.registers := by
  cases mode : cpu.registers.im with
  | restart | vectored =>
    simp [acknowledgeMaskable, mode, interruptTo, jumpThroughTable, Segment.instruction?]
  | injected =>
    simp only [acknowledgeMaskable, inject, always_bind, always_registers, always_acknowledge,
      always_modify, always_updateRegisters, mode, always_dataLines]
    intro opcode
    cases role : Page.main.role opcode with
    | selector =>
      intro instruction found
      cases found
    | instruction instruction =>
      simp only [always_bind, always_modify, always_pure]
      refine (always_reaches (instruction.execute 0) _).mono ?_
      intro more taken last reaches other found
      simp only [Segment.instruction?, role, Role.instruction?, Option.some.injEq] at found
      subst found
      exact ⟨_, opcode, more, taken, last, rfl, by simp [mode], reaches, rfl⟩

/-- What a device injects runs with the flags that the acceptance leaves. -/
theorem step_injects :
    (step lines).Always cpu fun calls segment after =>
      acknowledgements calls ≠ [] → ∀ instruction, segment.instruction? = some instruction →
        instruction.InjectedBetween cpu.registers cpu.shortLived.spoil.flags calls
          after.registers := by
  cases turn : (cpu.ready lines).turn lines with
  | nonMaskable =>
    rw [always_step, turn]
    simp [perform, acknowledgeNonMaskable, interruptTo, Segment.instruction?]
  | maskable =>
    rw [always_step, turn]
    refine (acknowledgeMaskable_injects (cpu.ready lines) cpu.looping).mono ?_
    intro calls segment after injects _
    exact injects
  | _ =>
    refine (step_settles cpu lines).mono ?_
    intro calls segment after settles accepts
    rw [turn] at settles
    exact absurd (settles.quiet.trans (congrArg Option.toList settles.accepted)) accepts

end Exec

/-! ### Calls -/

namespace Moment

/-- What the machine did in the call, unless it waited. -/
def active? (moment : Moment) : Option Segment :=
  moment.started.filter fun segment => segment ≠ .stalled

/-- The instruction that the call completes, if it completes one. -/
def completed? (moment : Moment) : Option Instruction := moment.started.bind Segment.instruction?

/-- The call begins something on a boundary. -/
def Opens (moment : Moment) : Prop :=
  moment.before.pending = none ∧ moment.active?.isSome = true
deriving Decidable

/-- What a call does to the latches. -/
structure Ages (moment : Moment) : Prop where
  spent : moment.started = none → acknowledgements moment.calls = [] ∧
    moment.after.shortLived = moment.before.shortLived ∧
      moment.after.pending = moment.before.pending
  started : ∀ segment, moment.started = some segment →
    segment.Ages moment.before moment.calls moment.after
  injected : moment.Accepts → ∀ instruction, moment.completed? = some instruction →
    instruction.InjectedBetween moment.before.registers moment.before.shortLived.spoil.flags
      moment.calls moment.after.registers

variable {moment : Moment}

/-- A call that waits leaves the latches alone. -/
theorem Ages.waits (ages : moment.Ages) (waits : moment.active? = none) :
    ¬ moment.Accepts ∧ moment.after.shortLived = moment.before.shortLived ∧
      moment.after.pending = moment.before.pending := by
  cases started : moment.started with
  | none =>
    obtain ⟨quiet, same⟩ := ages.spent started
    exact ⟨not_not_intro quiet, same⟩
  | some segment =>
    have held : segment = .stalled := by simpa [active?, started] using waits
    have aged := ages.started segment started
    exact ⟨fun accepts => (aged.accepts accepts).2.1 held, aged.held held⟩

/-- Any other call does what its segment does. -/
theorem Ages.active (ages : moment.Ages) {segment : Segment}
    (active : moment.active? = some segment) :
    segment ≠ .stalled ∧ segment.Ages moment.before moment.calls moment.after := by
  obtain ⟨started, runs⟩ := Option.filter_eq_some_iff.mp active
  exact ⟨by simpa using runs, ages.started segment started⟩

end Moment

/-- Every call does so, from a machine that has not selected the main page. -/
theorem Beat.run_ages (beat : Beat) {cpu : Cpu} (selected : cpu.pending ≠ some .main) :
    beat.run.Always cpu fun calls started after =>
      Moment.Ages ⟨beat, cpu, started, calls, after⟩ := by
  refine beat.always_run ?_ ?_
  · refine ((step_ages cpu selected).and (step_injects cpu)).mono ?_
    rintro calls segment after ⟨ages, injects⟩ backlog
    refine ⟨nofun, ?_, injects⟩
    rintro _ ⟨⟩
    exact ⟨ages.held, ages.reset, ages.ran, ages.busy, ages.accepts⟩
  · intro total backlog
    exact ⟨fun _ => ⟨rfl, rfl, rfl⟩, nofun, fun accepts => absurd rfl accepts⟩

/-- Every call leaves a coherent machine coherent. -/
theorem Beat.run_coherent (beat : Beat) {cpu : Cpu} (coherent : cpu.Coherent) :
    beat.run.Always cpu fun _ _ after => after.Coherent := by
  cases beat with
  | step lines =>
    simpa only [run, always_map] using step_coherent lines coherent
  | tick lines =>
    simpa only [run, always_map] using tick_coherent lines coherent

/-! ### Runs -/

/-- What the machine did last in a trace, waiting apart. -/
def lastActive (trace : List Moment) : Option Segment := (trace.filterMap Moment.active?).getLast?

/-- What the machine did last was an instruction that writes the flags. -/
def wroteLast (trace : List Moment) : Bool :=
  (lastActive trace).any fun segment => segment.instruction?.any Instruction.writesFlags

/-- What the machine did last was LD A,I or LD A,R. -/
def copiedLast (trace : List Moment) : Bool :=
  (lastActive trace).any fun segment => segment.instruction?.any Instruction.copiesEnable

/-- What an acceptance behind the trace makes of the flags. -/
def spoiled (trace : List Moment) (flags : Flags) : Flags :=
  if copiedLast trace then { flags with p := false } else flags

/-- Nothing has begun on a boundary since the opening call, which follows the trace before it. -/
def Begun (before : List Moment) (opening : Moment) (trace : List Moment) : Prop :=
  opening.Opens ∧ ∃ within, trace = before ++ opening :: within ∧ ∀ moment ∈ within, ¬ moment.Opens

section Traces

variable {trace before : List Moment} {moment opening : Moment} {segment : Segment}

theorem lastActive_of_waits (waits : moment.active? = none) :
    lastActive (trace ++ [moment]) = lastActive trace := by
  simp [lastActive, List.filterMap_append, waits]

theorem lastActive_of_active (active : moment.active? = some segment) :
    lastActive (trace ++ [moment]) = some segment := by
  simp [lastActive, List.filterMap_append, active]

theorem Begun.self (opens : moment.Opens) : Begun trace moment (trace ++ [moment]) :=
  ⟨opens, [], rfl, List.forall_mem_nil _⟩

theorem Begun.concat (begun : Begun before opening trace) (goes : ¬ moment.Opens) :
    Begun before opening (trace ++ [moment]) := by
  obtain ⟨opens, within, rfl, closed⟩ := begun
  refine ⟨opens, within ++ [moment], by simp, ?_⟩
  intro other among
  rcases List.mem_append.mp among with earlier | last
  · exact closed other earlier
  · rw [List.mem_singleton.mp last]
    exact goes

/-- There is one opening call at most. -/
theorem Begun.unique {earlier : List Moment} {other : Moment} (begun : Begun before opening trace)
    (again : Begun earlier other trace) : before = earlier ∧ opening = other := by
  obtain ⟨opens, within, split, closed⟩ := begun
  obtain ⟨otherOpens, otherWithin, otherSplit, otherClosed⟩ := again
  -- If one of them were behind the other, it would be among the calls that do not open.
  rcases List.append_eq_append_iff.mp (split.symm.trans otherSplit) with
    ⟨between, rfl, same⟩ | ⟨between, rfl, same⟩
  · cases between with
    | nil =>
      obtain ⟨rfl, -⟩ := List.cons.inj same
      exact ⟨(List.append_nil before).symm, rfl⟩
    | cons first between =>
      obtain ⟨-, rfl⟩ := List.cons.inj same
      exact absurd otherOpens (closed other (by simp))
  · cases between with
    | nil =>
      obtain ⟨rfl, -⟩ := List.cons.inj same
      exact ⟨List.append_nil earlier, rfl⟩
    | cons first between =>
      obtain ⟨-, rfl⟩ := List.cons.inj same
      exact absurd opens (otherClosed opening (by simp))

end Traces

/-- On a boundary the latches are as what the machine did last has left them. -/
@[mk_iff]
structure Cpu.SettledBy (cpu : Cpu) (trace : List Moment) : Prop where
  written : cpu.written = if wroteLast trace then cpu.registers.f else {}
  enableCopied : cpu.enableCopied = copiedLast trace

/-- The latches have aged once for everything that began on a boundary, and behind a prefix once for
the instruction that is under way. -/
structure Cpu.AgedBy (cpu : Cpu) (trace : List Moment) : Prop where
  coherent : cpu.Coherent
  settled : cpu.pending = none → cpu.SettledBy trace
  within : cpu.pending ≠ none → ∃ before opening, Begun before opening trace ∧
    opening.before.SettledBy before ∧ cpu.shortLived = opening.before.opening opening.calls

/-- A call completes an instruction that began in the opening call, behind the trace before it. The
latches have aged once since then, and the instruction has done to them and to the flags what it
does. -/
structure Moment.Completes (moment : Moment) (instruction : Instruction) (before : List Moment)
    (opening : Moment) : Prop where
  found : opening.before.SettledBy before
  writtenBefore : moment.after.writtenBefore = opening.before.written
  written : moment.after.written =
    if instruction.writesFlags then moment.after.registers.f else {}
  enableCopied : moment.after.enableCopied = instruction.copiesEnable
  flags : instruction.writesFlags = false → instruction.replacesFlags = false →
    moment.after.registers.f =
      if opening.Accepts then spoiled before opening.before.registers.f
      else opening.before.registers.f
  copies : instruction.marksCarry = true →
    moment.after.registers.f.y = (opening.before.registers.a.getLsbD 5 ||
      !wroteLast before && opening.before.registers.f.y) ∧
    moment.after.registers.f.x = (opening.before.registers.a.getLsbD 3 ||
      !wroteLast before && opening.before.registers.f.x)

variable {trace before : List Moment} {moment opening : Moment} {segment : Segment}

/-- Where the flags are spoiled, the latch tells that they are to be. -/
theorem Cpu.SettledBy.spoil {cpu : Cpu} (settled : cpu.SettledBy trace) :
    cpu.shortLived.spoil.flags = spoiled trace cpu.registers.f := by
  have latch : cpu.shortLived.enableCopied = copiedLast trace := settled.enableCopied
  rw [Latches.spoil, spoiled, latch]
  cases copiedLast trace with
  | true => simp [shortLived]
  | false => simp [shortLived]

/-- A call that does not wait goes on from what began last on a boundary, itself at the latest. -/
theorem Cpu.AgedBy.begun (aged : moment.before.AgedBy trace)
    (active : moment.active?.isSome = true) :
    ∃ before opening, Begun before opening (trace ++ [moment]) ∧
      opening.before.SettledBy before ∧
      (if moment.before.pending = none then moment.before.opening moment.calls
        else moment.before.shortLived) = opening.before.opening opening.calls := by
  by_cases boundary : moment.before.pending = none
  · rw [if_pos boundary]
    exact ⟨trace, moment, .self ⟨boundary, active⟩, aged.settled boundary, rfl⟩
  · rw [if_neg boundary]
    obtain ⟨before, opening, begun, settled, same⟩ := aged.within boundary
    exact ⟨before, opening, begun.concat fun opens => boundary opens.1, settled, same⟩

theorem Cpu.SettledBy.flags_opening {cpu : Cpu} (settled : cpu.SettledBy trace)
    (calls : List Exchange) :
    (cpu.opening calls).flags =
      if acknowledgements calls = [] then cpu.registers.f
      else spoiled trace cpu.registers.f := by
  rw [← settled.spoil, opening]
  split <;> rfl

/-- What a call completes, it completes from there. -/
theorem Instruction.Ages.completes {instruction : Instruction}
    (ages : instruction.Ages (opening.before.opening opening.calls) moment.after.shortLived)
    (settled : opening.before.SettledBy before) :
    moment.Completes instruction before opening := by
  obtain ⟨unwritten, writtenBefore, uncopied, accumulator, y, x⟩ :=
    opening.before.opening_kept opening.calls
  obtain ⟨written, kept, enableCopied, flags, copies⟩ := ages
  rw [writtenBefore] at kept
  rw [unwritten] at written
  rw [uncopied, Bool.or_false] at enableCopied
  refine ⟨settled, kept, written, enableCopied, ?_, ?_⟩
  · intro silent own
    have same := flags silent own
    rw [settled.flags_opening] at same
    by_cases accepts : opening.Accepts
    · rw [if_neg accepts] at same
      rw [if_pos accepts]
      exact same
    · rw [if_pos (Classical.not_not.mp accepts)] at same
      rw [if_neg accepts]
      exact same
  · intro marks
    have copies := copies marks
    rw [writtenBefore, accumulator, y, x, settled.written] at copies
    -- If the flags were written last, the two copies of them cancel out.
    cases wrote : wroteLast before with
    | true => simpa [wrote, Cpu.shortLived] using copies
    | false => simpa [wrote, Cpu.shortLived, Bool.or_comm] using copies

/-- A call that waits leaves a processor settled. -/
theorem Cpu.SettledBy.of_waits (settled : moment.before.SettledBy trace) (ages : moment.Ages)
    (waits : moment.active? = none) : moment.after.SettledBy (trace ++ [moment]) := by
  obtain ⟨-, same, -⟩ := ages.waits waits
  have written : moment.after.written = moment.before.written := congrArg Latches.written same
  have flags : moment.after.registers.f = moment.before.registers.f := congrArg Latches.flags same
  have copied : moment.after.enableCopied = moment.before.enableCopied :=
    congrArg Latches.enableCopied same
  rw [Cpu.settledBy_iff, written, flags, copied, wroteLast, copiedLast, lastActive_of_waits waits]
  exact ⟨settled.written, settled.enableCopied⟩

/-- What runs no instruction leaves clear latches. -/
theorem Cpu.settledBy_of_idle (active : moment.active? = some segment)
    (idle : segment.instruction? = none) (written : moment.after.written = {})
    (copied : moment.after.enableCopied = false) : moment.after.SettledBy (trace ++ [moment]) := by
  rw [Cpu.settledBy_iff, wroteLast, copiedLast, lastActive_of_active active]
  simp [idle, written, copied]

/-- Nothing is pending behind an instruction. -/
theorem Segment.busy_of_instruction {instruction : Instruction}
    (found : segment.instruction? = some instruction) : segment.busy = false := by
  cases segment with
  | instruction | injected => rfl
  | _ => cases found

/-- A call keeps the latches in line with the trace. -/
theorem Cpu.AgedBy.next (aged : moment.before.AgedBy trace) (ages : moment.Ages)
    (coherent : moment.after.Coherent) : moment.after.AgedBy (trace ++ [moment]) := by
  cases active : moment.active? with
  | none =>
    -- A call that waits opens nothing, and leaves what was found or begun before.
    obtain ⟨-, same, pending⟩ := ages.waits active
    have goes : ¬ moment.Opens := fun opens => absurd opens.2 (by simp [active])
    refine ⟨coherent, fun boundary => ?_, fun inside => ?_⟩
    · exact (aged.settled (pending ▸ boundary)).of_waits ages active
    · obtain ⟨before, opening, begun, settled, started⟩ := aged.within (pending ▸ inside)
      exact ⟨before, opening, begun.concat goes, settled, same.trans started⟩
  | some segment =>
    obtain ⟨runs, did⟩ := ages.active active
    have busy := did.busy runs
    by_cases reset : segment = .reset
    · -- A reset ends on a boundary.
      subst reset
      obtain ⟨written, copied⟩ := did.reset rfl
      have boundary : moment.after.pending = none := by simpa [Segment.busy] using busy.symm
      exact ⟨coherent, fun _ => settledBy_of_idle active rfl written copied,
        fun inside => absurd boundary inside⟩
    obtain ⟨before, opening, begun, settled, start⟩ := aged.begun (by rw [active]; rfl)
    have agesFrom := did.ran runs reset
    rw [start] at agesFrom
    obtain ⟨unwritten, -, uncopied, -⟩ := opening.before.opening_kept opening.calls
    cases found : segment.instruction? with
    | none =>
      -- A prefix byte leaves the latches of the opening call, an acceptance leaves them aged.
      have same := agesFrom.idle found
      refine ⟨coherent, fun _ => settledBy_of_idle active found ?_ ?_, fun _ => ?_⟩
      · exact (congrArg Latches.written same).trans unwritten
      · exact (congrArg Latches.enableCopied same).trans uncopied
      · exact ⟨before, opening, begun, settled, same⟩
    | some instruction =>
      -- An instruction ends on a boundary.
      have completes := (agesFrom.ran instruction found).completes settled
      have boundary : moment.after.pending = none := by
        simpa [Segment.busy_of_instruction found] using busy.symm
      refine ⟨coherent, fun _ => ?_, fun inside => absurd boundary inside⟩
      rw [Cpu.settledBy_iff, wroteLast, copiedLast, lastActive_of_active active]
      simpa [found] using ⟨completes.written, completes.enableCopied⟩

/-- An instruction that a call completes began in the opening call. -/
theorem Cpu.AgedBy.completes (aged : moment.before.AgedBy trace) (ages : moment.Ages)
    {instruction : Instruction} (completed : moment.completed? = some instruction) :
    ∃ before opening, Begun before opening (trace ++ [moment]) ∧
      moment.Completes instruction before opening := by
  obtain ⟨segment, started, found⟩ := Option.bind_eq_some_iff.mp completed
  have runs : segment ≠ .stalled := fun held => by cases held ▸ found
  have unreset : segment ≠ .reset := fun reset => by cases reset ▸ found
  have active : moment.active? = some segment :=
    Option.filter_eq_some_iff.mpr ⟨started, by simpa using runs⟩
  obtain ⟨before, opening, begun, settled, start⟩ := aged.begun (by rw [active]; rfl)
  have agesFrom := (ages.started segment started).ran runs unreset
  rw [start] at agesFrom
  exact ⟨before, opening, begun, (agesFrom.ran instruction found).completes settled⟩

/-- What a call that accepts an interrupt makes of the flags: they are spoiled exactly if LD A,I or
LD A,R was the last that the machine did, and so a device's instruction finds them. -/
structure Moment.Spoils (moment : Moment) (trace : List Moment) : Prop where
  flags : moment.completed? = none →
    moment.after.registers.f = spoiled trace moment.before.registers.f
  injected : ∀ instruction, moment.completed? = some instruction →
    instruction.InjectedBetween moment.before.registers
      (spoiled trace moment.before.registers.f) moment.calls moment.after.registers

/-- Every acceptance does so. -/
theorem Cpu.AgedBy.spoils (aged : moment.before.AgedBy trace) (ages : moment.Ages)
    (accepts : moment.Accepts) : moment.Spoils trace := by
  cases active : moment.active? with
  | none => exact absurd accepts (ages.waits active).1
  | some segment =>
    obtain ⟨started, -⟩ := Option.filter_eq_some_iff.mp active
    have did := ages.started segment started
    obtain ⟨boundary, runs, unreset⟩ := did.accepts accepts
    have settled := aged.settled boundary
    constructor
    · intro completed
      have idle : segment.instruction? = none := by
        simpa [Moment.completed?, started] using completed
      have same := (did.ran runs unreset).idle idle
      rw [if_pos boundary] at same
      have flags : moment.after.registers.f = (moment.before.opening moment.calls).flags :=
        congrArg Latches.flags same
      rw [flags, settled.flags_opening, if_neg accepts]
    · intro instruction completed
      rw [← settled.spoil]
      exact ages.injected accepts instruction completed

namespace Exec

variable {σ : Type}

/-- A run keeps the latches in line with its trace. -/
theorem moments_aged (bus : Bus σ) (cpu : Cpu) (device : σ) (beats : List Beat)
    (early : List Moment) (moment : Moment) (late : List Moment)
    (split : moments bus beats cpu.reset device = early ++ moment :: late) :
    moment.before.AgedBy early ∧ moment.Ages := by
  have start : cpu.reset.AgedBy [] :=
    ⟨cpu.reset_coherent, fun _ => ⟨rfl, rfl⟩, fun inside => absurd rfl inside⟩
  refine moments_of_initial bus (fun past cpu => cpu.AgedBy past)
    (fun past moment => moment.before.AgedBy past ∧ moment.Ages) ?_ start split
  intro past beat cpu device aged
  have ages : (momentOn bus beat cpu device).Ages :=
    (beat.run_ages aged.coherent.selected).onBus bus device
  have coherent : (momentOn bus beat cpu device).after.Coherent :=
    (beat.run_coherent aged.coherent).onBus bus device
  exact ⟨⟨aged, ages⟩, Cpu.AgedBy.next aged ages coherent⟩

/-- In every run of steps and ticks from a reset, and on any bus, the latches that live for one
instruction age once for each. When an instruction completes, however many prefix bytes and waits it
took and whoever has put it on the bus, there is one call that it began with. The note of the flags
written before is that of the boundary there; the note of the flags is the flags if the instruction
writes them through the arithmetic unit, and clear otherwise; the copy of the interrupt enable is
noted exactly for LD A,I and LD A,R. SCF and CCF take their undocumented flags from the accumulator,
and from the flags as well unless an instruction that writes them came right before. An acceptance
clears the parity flag exactly behind LD A,I and LD A,R, and leaves the flags alone otherwise. -/
theorem latches_age_once (bus : Bus σ) (cpu : Cpu) (device : σ) (beats : List Beat)
    (early : List Moment) (moment : Moment) (late : List Moment)
    (split : moments bus beats cpu.reset device = early ++ moment :: late) :
    (∀ instruction, moment.completed? = some instruction →
      (∃ before opening, Begun before opening (early ++ [moment])) ∧
        ∀ before opening, Begun before opening (early ++ [moment]) →
          moment.Completes instruction before opening) ∧
    (moment.Accepts → moment.Spoils early) := by
  obtain ⟨aged, ages⟩ := moments_aged bus cpu device beats early moment late split
  refine ⟨fun instruction completed => ?_, aged.spoils ages⟩
  obtain ⟨before, opening, begun, completes⟩ := aged.completes ages completed
  -- Whatever call it is said to have begun with is the one that is found so.
  refine ⟨⟨before, opening, begun⟩, fun earlier other again => ?_⟩
  obtain ⟨rfl, rfl⟩ := begun.unique again
  exact completes

/-- SCF with a prefix byte and a wait, behind CP 0x28 with the accumulator clear: the flags that the
comparison has written do not show. NMI behind LD A,I and a wait: the copy of the enable is gone. -/
theorem latches_age_behind_waits :
    let comparing := Board.fresh.load 0x0000 [0x3E, 0x00, 0xFE, 0x28, 0xDD, 0x37]
    let copying := Board.fresh.load 0x0000 [0xFB, 0xED, 0x57]
    let settings := moments Board.bus
      [.step {}, .step {}, .step {}, .step { wait := true }, .step {}] Cpu.fresh.reset comparing
    let loads := moments Board.bus
      [.step {}, .step {}, .step {}, .step { wait := true }, .step { nmi := true }]
      Cpu.fresh.reset copying
    (∃ setting, settings = settings.take 4 ++ [setting] ∧
      setting.before.registers.f.y = true ∧ setting.after.registers.f.y = false) ∧
    ∃ accepting, loads = loads.take 4 ++ [accepting] ∧
      accepting.before.registers.f.p = true ∧ accepting.after.registers.f.p = false := by
  intro comparing copying settings loads
  constructor
  · obtain ⟨load, compare, opening, held, setting, made⟩ :
        ∃ load compare opening held setting,
          settings = [load, compare, opening, held, setting] := ⟨_, _, _, _, _, rfl⟩
    have opens : settings.map (decide ·.Opens) = [true, true, true, false, false] := by
      decide +kernel
    have completed : settings.map Moment.completed? =
        [some (.main .hl (.loadImmediate (.register .a))),
          some (.main .hl (.accumulateImmediate .compare)), none, none,
          some (.main .ix .setCarry)] := by
      decide +kernel
    have wrote : wroteLast (settings.take 2) = true := by decide +kernel
    have clear : settings.map (·.before.registers.a.getLsbD 5) =
        [true, false, false, false, false] := by
      decide +kernel
    have shown : settings.map (·.before.registers.f.y) = [true, true, true, true, true] := by
      decide +kernel
    simp only [made, List.map_cons, List.map_nil, List.cons.injEq, decide_eq_true_eq,
      decide_eq_false_iff_not, and_true, List.take_succ_cons, List.take_zero]
      at opens completed wrote clear shown
    have begun : Begun [load, compare] opening ([load, compare, opening, held] ++ [setting]) :=
      ⟨opens.2.2.1, [held, setting], rfl, by simp [opens]⟩
    have completes := ((latches_age_once Board.bus .fresh comparing _ _ setting [] made).1 _
      completed.2.2.2.2).2 _ _ begun
    have copies := (completes.copies rfl).1
    rw [clear.2.2.1, wrote] at copies
    exact ⟨setting, by rw [made]; rfl, shown.2.2.2.2, copies⟩
  · obtain ⟨accepting, last⟩ : ∃ accepting, loads.drop 4 = [accepting] := ⟨_, rfl⟩
    have split : loads = loads.take 4 ++ [accepting] := by rw [← last, List.take_append_drop]
    have found : ∀ moment ∈ loads.drop 4, moment.Accepts ∧ moment.completed? = none ∧
        moment.before.registers.f.p = true := by
      decide +kernel
    obtain ⟨accepts, incomplete, copied⟩ := found accepting (by simp [last])
    have spoils := (latches_age_once Board.bus .fresh copying _ _ accepting [] split).2 accepts
    have behind : copiedLast (loads.take 4) = true := by decide +kernel
    refine ⟨accepting, split, copied, ?_⟩
    rw [spoils.flags incomplete, spoiled, if_pos behind]

end Exec

end Z80
