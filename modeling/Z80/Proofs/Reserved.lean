import Z80.Bus.Board
import Z80.Proofs.Decoding
import Z80.Proofs.Refresh

/-!
# Registers with few writers

Most registers are written by instructions all over the table. Some are not: the alternate banks,
the page of the vector table, the interrupt mode and the two interrupt enables each belong to a
handful of opcodes, an index register belongs to its own page, and the refresh counter is stored by
a single opcode. Whatever else runs, injected instructions included, leaves them as they are, so
they stand still over every run in which their writers do not occur.

## Main definitions

* `Reserved`: a part of the registers with few writers
* `Reserved.writtenBy`: the opcodes that write it
* `Segment.writes`: the segments that write it

## Main results

* `Page.writes_of_role`: the opcodes that write a part are those of the instructions that do
* `Instruction.execute_spares`: an instruction leaves alone what it does not write
* `Exec.step_spares`: so does a step
* `Exec.reserved_stand`: so does every run
-/

namespace Z80

open Exec

/-! ### Reserved registers and their writers -/

/-- A part of the registers that few instructions write. -/
inductive Reserved where
  | accumulatorAlternate | generalAlternate | vectorPage | mode | iff1 | iff2 | ix | iy
deriving DecidableEq

namespace Reserved

/-- What is held there. -/
abbrev Value : Reserved → Type
  | .accumulatorAlternate => Accumulator
  | .generalAlternate => General
  | .vectorPage => Byte
  | .mode => InterruptMode
  | .iff1 | .iff2 => Bool
  | .ix | .iy => Word

/-- Something holds of every part if it holds of each. -/
theorem forall_iff {motive : Reserved → Prop} :
    (∀ part, motive part) ↔
      motive .accumulatorAlternate ∧ motive .generalAlternate ∧ motive .vectorPage ∧
        motive .mode ∧ motive .iff1 ∧ motive .iff2 ∧ motive .ix ∧ motive .iy := by
  constructor
  · intro all
    exact ⟨all _, all _, all _, all _, all _, all _, all _, all _⟩
  · rintro ⟨_, _, _, _, _, _, _, _⟩ part
    cases part <;> assumption

instance {motive : Reserved → Prop} [DecidablePred motive] : Decidable (∀ part, motive part) :=
  decidable_of_iff' _ forall_iff

end Reserved

/-- What the registers hold in a reserved part. -/
def Registers.held (regs : Registers) : (part : Reserved) → part.Value
  | .accumulatorAlternate => regs.accumulatorAlternate
  | .generalAlternate => regs.generalAlternate
  | .vectorPage => regs.i
  | .mode => regs.im
  | .iff1 => regs.iff1
  | .iff2 => regs.iff2
  | .ix => regs.ix
  | .iy => regs.iy

/-- The page has the operations of the main page. -/
def Page.sharesMain : Page → Bool
  | .main | .ix | .iy => true
  | _ => false

/-- The opcodes that write a part, on their pages: EX AF,AF', EXX, LD I,A, the settings of the mode,
EI and DI, these and the returns from an interrupt, and all opcodes of an index page. -/
def Reserved.writtenBy : Reserved → Page → Byte → Bool
  | .accumulatorAlternate, page, opcode => page.sharesMain && opcode == 0x08
  | .generalAlternate, page, opcode => page.sharesMain && opcode == 0xD9
  | .vectorPage, page, opcode => page == .extended && opcode == 0x47
  | .mode, page, opcode => page == .extended && opcode &&& 0xC7 == 0x46
  | .iff1, page, opcode =>
    page.sharesMain && (opcode == 0xFB || opcode == 0xF3) ||
      page == .extended && opcode &&& 0xC7 == 0x45
  | .iff2, page, opcode => page.sharesMain && (opcode == 0xFB || opcode == 0xF3)
  | .ix, page, _ => page == .ix
  | .iy, page, _ => page == .iy

/-- The acknowledgements that write a part. -/
def Reserved.clearedBy : Reserved → Acknowledgement → Bool
  | .iff1, _ | .iff2, .maskable _ => true
  | _, _ => false

/-- The parts that an instruction writes. -/
def Instruction.writes : Instruction → Reserved → Bool
  | .main _ .exchangeAccumulators, .accumulatorAlternate => true
  | .main _ .exchangeGeneral, .generalAlternate => true
  | .extended .storeVectorPage, .vectorPage => true
  | .extended (.setMode _), .mode => true
  | .main _ .enableInterrupts, .iff1 | .main _ .disableInterrupts, .iff1
  | .extended (.returnFromInterrupt _), .iff1 => true
  | .main _ .enableInterrupts, .iff2 | .main _ .disableInterrupts, .iff2 => true
  | .main index _, .ix => index == .ix
  | .main index _, .iy => index == .iy
  | _, _ => false

/-- What is checked of the whole table of a page holds of each of its instructions. -/
theorem Page.of_table {page : Page} (holds : Byte → Instruction → Prop)
    [∀ opcode, DecidablePred (holds opcode)]
    (table : ∀ opcode : Byte, (page.role opcode).instruction?.all (fun found => holds opcode found))
    {opcode : Byte} {instruction : Instruction}
    (role : page.role opcode = .instruction instruction) : holds opcode instruction := by
  simpa [role, Role.instruction?] using table opcode

/-- The opcodes that write a part are those of the instructions that do. -/
theorem Page.writes_of_role {page : Page} {opcode : Byte} {instruction : Instruction}
    (role : page.role opcode = .instruction instruction) (part : Reserved) :
    instruction.writes part = part.writtenBy page opcode := by
  have all : ∀ part : Reserved, instruction.writes part = part.writtenBy page opcode := by
    refine Page.of_table (fun opcode instruction =>
      ∀ part : Reserved, instruction.writes part = part.writtenBy page opcode) ?_ role
    cases page <;> decide +kernel
  exact all part

/-- Only one opcode stores the refresh counter. -/
theorem Page.storeRefresh_of_role {page : Page} {opcode : Byte}
    (role : page.role opcode = .instruction (.extended .storeRefresh)) :
    page = .extended ∧ opcode = 0x4F := by
  cases page with
  | extended =>
    revert role
    revert opcode
    decide +kernel
  | main | ix | iy =>
    simp only [Page.role, Role.ofMain] at role
    split at role <;> cases role
  | _ => cases role

/-! ### Instructions -/

/-- The instruction leaves alone all parts that it does not write. -/
def Instruction.Spares (instruction : Instruction) (before after : Registers) : Prop :=
  ∀ part, instruction.writes part = false → after.held part = before.held part

namespace Registers

variable (regs : Registers) (index : Index) (byte : Byte) (word : Word)

/-- Writing the register in the place of HL leaves the other index registers alone. -/
@[simp] theorem setIndex_indexes :
    (index ≠ .ix → (regs.setIndex index word).ix = regs.ix) ∧
      (index ≠ .iy → (regs.setIndex index word).iy = regs.iy) := by
  cases index <;> simp [setIndex, setHL]

/-- So does writing a register that an opcode names. -/
@[simp] theorem setReg_indexes (register : Reg) :
    (index ≠ .ix → (regs.setReg index register byte).ix = regs.ix) ∧
      (index ≠ .iy → (regs.setReg index register byte).iy = regs.iy) := by
  cases register <;> simp +contextual [setReg]

/-- So does writing a pair that an opcode names. -/
@[simp] theorem setPair_indexes (pair : Pair) :
    (index ≠ .ix → (regs.setPair index pair word).ix = regs.ix) ∧
      (index ≠ .iy → (regs.setPair index pair word).iy = regs.iy) := by
  cases pair <;> simp +contextual [setPair, setBC, setDE]

/-- So does writing a popped pair. -/
@[simp] theorem setStackPair_indexes (pair : StackPair) :
    (index ≠ .ix → (regs.setStackPair index pair word).ix = regs.ix) ∧
      (index ≠ .iy → (regs.setStackPair index pair word).iy = regs.iy) := by
  cases pair <;> simp +contextual [setStackPair, setBC, setDE, setAF]

end Registers

section Instructions

-- With these the parts that an instruction leaves alone come out one by one.
attribute [local simp] Instruction.Spares Reserved.forall_iff Instruction.writes Registers.held
  Registers.setHL Registers.setDE Registers.setBC

variable (cpu : Cpu)

theorem Operation.execute_spares (operation : Operation) (index : Index) :
    (operation.execute index).Always cpu fun _ _ after =>
      (Instruction.main index operation).Spares cpu.registers after.registers := by
  cases operation with
  | increment place | decrement place | accumulate _ place | loadImmediate place =>
    cases place <;> simp +contextual [execute, readPlace, modifyPlace]
  | loadPair _ | addPair _ | loadIndex | incrementPair _ | decrementPair _ | load _ _ | pop _
  | exchangeStack =>
    -- What is written may be an index register, and then that of the page.
    simp +contextual [execute]
  | _ => simp [execute, Registers.swapAccumulator, Registers.swapGeneral]

theorem BitOperation.execute_spares (operation : BitOperation) (place : Place) :
    (operation.execute place).Always cpu fun _ _ after =>
      (Instruction.bits operation place).Spares cpu.registers after.registers := by
  cases operation <;> cases place <;> simp [execute]

theorem BitOperation.executeIndexed_spares (operation : BitOperation) (index : Index)
    (offset : Byte) (copy : Option Reg) :
    (operation.executeIndexed index offset copy).Always cpu fun _ _ after =>
      (Instruction.indexedBits index operation copy).Spares cpu.registers after.registers := by
  cases operation <;> cases copy <;> simp [executeIndexed]

theorem BlockOperation.execute_spares (operation : BlockOperation) :
    operation.execute.Always cpu fun _ _ after =>
      (Instruction.extended (.block operation)).Spares cpu.registers after.registers := by
  obtain ⟨action, _, _⟩ := operation
  cases action <;> simp [execute, act, transfer, compare, input, output]

theorem ExtendedOperation.execute_spares (operation : ExtendedOperation) :
    operation.execute.Always cpu fun _ _ after =>
      (Instruction.extended operation).Spares cpu.registers after.registers := by
  cases operation with
  | block operation => exact operation.execute_spares cpu
  | input target =>
    cases target <;> simp [execute]
  | _ => simp [execute]

/-- An instruction leaves alone what it does not write. -/
theorem Instruction.execute_spares (instruction : Instruction) (offset : Byte) :
    (instruction.execute offset).Always cpu fun _ _ after =>
      instruction.Spares cpu.registers after.registers := by
  cases instruction with
  | main index operation => exact operation.execute_spares cpu index
  | bits operation place =>
    exact (always_untaken _ _ _).mpr (operation.execute_spares cpu place)
  | indexedBits index operation copy =>
    exact (always_untaken _ _ _).mpr (operation.executeIndexed_spares cpu index offset copy)
  | extended operation => exact operation.execute_spares cpu

end Instructions

/-! ### Steps -/

namespace Segment

/-- The opcode that ran in the segment, with its page. An injected one has no prefix before it. -/
def executed? : Segment → Option (Page × Byte)
  | .instruction page opcode _ => some (page, opcode)
  | .injected opcode _ => some (.main, opcode)
  | _ => none

/-- The segment runs an opcode that writes the part, or acknowledges an interrupt that does. -/
def writes (segment : Segment) (part : Reserved) : Bool :=
  segment.executed?.any (fun ran => part.writtenBy ran.1 ran.2) ||
    segment.acknowledgement?.any part.clearedBy

/-- The segment leaves alone all parts that it does not write. -/
def Spares (segment : Segment) (before after : Registers) : Prop :=
  ∀ part, segment.writes part = false → after.held part = before.held part

end Segment

/-- An instruction of a page leaves alone what its opcode does not write. -/
theorem Instruction.Spares.of_role {page : Page} {opcode : Byte} {instruction : Instruction}
    {before after : Registers} (spares : instruction.Spares before after)
    (role : page.role opcode = .instruction instruction) {part : Reserved}
    (spared : part.writtenBy page opcode = false) : after.held part = before.held part :=
  spares part ((Page.writes_of_role role part).trans spared)

namespace Exec

variable (cpu : Cpu)

/-- A fetch moves the program counter and the refresh counter only. -/
theorem held_fetched (page : Page) (opcode : Byte) (part : Reserved) :
    ((cpu.opened page).fetched opcode).registers.held part = cpu.registers.held part := by
  have kept : (cpu.opened page).registers = cpu.registers := (cpu.opened_kept page).1
  rw [← kept]
  cases part <;> rfl

theorem fetch_spares (page : Page) :
    (fetch page).Always cpu fun _ segment after =>
      segment.Spares cpu.registers after.registers := by
  cases order : page.displacementFirst with
  | false =>
    rw [always_fetch_opcode cpu order]
    intro opcode
    refine ⟨fun _ part _ => held_fetched cpu page opcode part, fun instruction role => ?_⟩
    refine (instruction.execute_spares _ 0).mono ?_
    intro calls taken after spares part unwritten
    have spared : part.writtenBy page opcode = false := by
      simpa [Segment.writes, Segment.executed?, Segment.acknowledgement?] using unwritten
    exact (spares.of_role role spared).trans (held_fetched cpu page opcode part)
  | true =>
    rw [always_fetch_displaced cpu order]
    intro offset opcode instruction role
    refine (instruction.execute_spares _ offset).mono ?_
    intro calls taken after spares part unwritten
    have spared : part.writtenBy page opcode = false := by
      simpa [Segment.writes, Segment.executed?, Segment.acknowledgement?] using unwritten
    refine (spares.of_role role spared).trans ?_
    cases part <;> rfl

-- The parts that a known acknowledgement writes compute.
attribute [local simp] Segment.Spares Reserved.forall_iff Segment.writes Segment.executed?
  Segment.acknowledgement? Reserved.clearedBy Registers.held Cpu.acknowledged Cpu.ageFlags
  Registers.refresh

theorem acknowledgeMaskable_spares (looping : Bool) :
    (acknowledgeMaskable looping).Always cpu fun _ segment after =>
      segment.Spares cpu.registers after.registers := by
  cases mode : cpu.registers.im with
  | restart | vectored => simp [acknowledgeMaskable, mode, interruptTo, jumpThroughTable]
  | injected =>
    simp only [acknowledgeMaskable, inject, always_bind, always_registers, always_acknowledge,
      always_modify, always_updateRegisters, mode, always_dataLines]
    intro opcode
    cases role : Page.main.role opcode with
    | selector => simp
    | instruction instruction =>
      simp only [always_bind, always_modify, always_pure]
      refine (instruction.execute_spares _ 0).mono ?_
      intro calls taken after spares part unwritten
      obtain ⟨spared, uncleared⟩ := Bool.or_eq_false_iff.mp unwritten
      refine (spares.of_role role spared).trans ?_
      -- The acceptance itself clears the two enables.
      cases part with
      | iff1 | iff2 => cases uncleared
      | _ => rfl

/-- What a step performs, unless it is a reset, leaves alone what it does not write. -/
theorem perform_spares (looping : Bool) {turn : Turn} (unreset : turn ≠ .reset) :
    (perform looping turn).Always cpu fun _ segment after =>
      segment.Spares cpu.registers after.registers := by
  cases turn with
  | reset => exact absurd rfl unreset
  | proceed page => exact fetch_spares cpu page
  | begin => exact fetch_spares { cpu with suppressed := false } .main
  | maskable => exact acknowledgeMaskable_spares cpu looping
  | stall => simp [perform]
  | nonMaskable => simp [perform, acknowledgeNonMaskable, interruptTo]
  | idle => simp [perform, idle, Cpu.beginInstruction]

/-- A step whose turn is no reset leaves alone what it does not write. -/
theorem step_spares_of_turn {lines : Lines} (unreset : (cpu.ready lines).turn lines ≠ .reset) :
    (step lines).Always cpu fun _ segment after =>
      segment.Spares cpu.registers after.registers := by
  rw [always_step]
  exact perform_spares (cpu.ready lines) cpu.looping unreset

/-- A step leaves alone what it does not write, unless it is a reset. -/
theorem step_spares (lines : Lines) :
    (step lines).Always cpu fun _ segment after =>
      segment ≠ .reset → segment.Spares cpu.registers after.registers := by
  by_cases reset : (cpu.ready lines).turn lines = .reset
  · rw [always_step, reset]
    exact fun unreset => absurd rfl unreset
  · exact (step_spares_of_turn cpu reset).mono fun _ _ _ spares _ => spares

end Exec

/-- Without RESET the turn is no reset. -/
theorem Cpu.turn_ne_reset (cpu : Cpu) {lines : Lines} (unasserted : lines.reset = false) :
    cpu.turn lines ≠ .reset := by
  unfold turn
  grind

namespace Exec

/-- So the step is none. -/
theorem step_ne_reset (cpu : Cpu) {lines : Lines} (unasserted : lines.reset = false) :
    (step lines).Always cpu fun _ segment _ => segment ≠ .reset := by
  have fetches {page : Page} (here : ((cpu.ready lines).turn lines).page? = some page) :
      (step lines).Always cpu fun _ segment _ => segment ≠ .reset := by
    refine (step_fetches cpu here).mono ?_
    intro calls segment after fetched
    cases fetched <;> exact nofun
  cases turn : (cpu.ready lines).turn lines with
  | reset => exact absurd turn (Cpu.turn_ne_reset _ unasserted)
  | proceed page | begin => exact fetches (congrArg Turn.page? turn)
  | stall | idle =>
    rw [always_step, turn]
    simp [perform, idle]
  | nonMaskable | maskable =>
    -- A reset acknowledges nothing.
    refine (step_settles cpu lines).mono ?_
    rintro calls segment after settles rfl
    have accepted := settles.accepted
    rw [turn] at accepted
    cases accepted

end Exec

/-- A role that has an instruction is that of the instruction. -/
theorem Role.eq_of_instruction? {role : Role} {instruction : Instruction}
    (found : role.instruction? = some instruction) : role = .instruction instruction := by
  cases role with
  | selector => cases found
  | instruction other => exact congrArg Role.instruction (Option.some.inj found)

/-- A segment that is no reset and does not run LD R,A does not set the refresh counter. -/
theorem Segment.not_setsRefresh {segment : Segment} (unreset : segment ≠ .reset)
    (unstored : segment.executed? ≠ some (.extended, 0x4F)) : ¬ segment.SetsRefresh := by
  rintro (reset | stores)
  · exact unreset reset
  · cases segment with
    | instruction page opcode taken =>
      obtain ⟨rfl, rfl⟩ := Page.storeRefresh_of_role (Role.eq_of_instruction? stores)
      exact unstored rfl
    | injected opcode taken =>
      cases (Page.storeRefresh_of_role (Role.eq_of_instruction? stores)).1
    | _ => cases stores

/-! ### Runs -/

/-- A run without a reset leaves alone the parts that none of its segments writes. -/
def Cpu.Stands (cpu : Cpu) (_calls : List Exchange) (run : List Segment) (after : Cpu) : Prop :=
  .reset ∉ run → ∀ part, (∀ segment ∈ run, segment.writes part = false) →
    after.registers.held part = cpu.registers.held part

theorem Cpu.stands_accrues : Accrues Cpu.Stands where
  nil cpu _ _ _ := rfl
  step cpu lines := by
    refine (step_spares cpu lines).mono ?_
    intro calls segment after spares unreset part unwritten
    have other : segment ≠ .reset := fun reset => unreset (by simp [reset])
    exact spares other part (unwritten segment (List.mem_singleton_self segment))
  append first second unreset part unwritten := by
    rw [List.mem_append, not_or] at unreset
    have early := first unreset.1 part fun segment among =>
      unwritten segment (List.mem_append_left _ among)
    have late := second unreset.2 part fun segment among =>
      unwritten segment (List.mem_append_right _ among)
    exact late.trans early
  of_registers stands same unreset part unwritten := by
    rw [same]
    exact stands unreset part unwritten

namespace Exec

/-- Without RESET, whatever a step changes of the registers with few writers, it changes by an
opcode or an acknowledgement that writes it, and unless it runs LD R,A it does no more to the
refresh counter than to move it on by the opcodes that it reads and the interrupts that it
acknowledges. So over a run by any commands in which no reset is performed, each of these registers
stands still if none of its writers occurs, and the refresh counter moves on by as much as that. -/
theorem reserved_stand {σ : Type} (bus : Bus σ) (cpu : Cpu) (device : σ) :
    (∀ lines : Lines, lines.reset = false →
      let calls := callsOn (step lines) bus cpu device
      let stepped := runOn (step lines) bus cpu device
      (∀ part, stepped.cpu.registers.held part ≠ cpu.registers.held part →
        stepped.value.writes part = true) ∧
      (stepped.value.executed? ≠ some (.extended, 0x4F) →
        RefreshedBy (refreshes calls) cpu.registers.r stepped.cpu.registers.r)) ∧
    ∀ commands : List Command,
      let calls := callsOn (runAll commands) bus cpu device
      let after := (runOn (runAll commands) bus cpu device).cpu.registers
      let trace := (runOn (traceAll commands) bus cpu device).value
      .reset ∉ trace →
        (∀ part, (∀ segment ∈ trace, segment.writes part = false) →
          after.held part = cpu.registers.held part) ∧
        ((∀ segment ∈ trace, segment.executed? ≠ some (.extended, 0x4F)) →
          RefreshedBy (refreshes calls) cpu.registers.r after.r) := by
  constructor
  · intro lines unasserted calls stepped
    have turn := (cpu.ready lines).turn_ne_reset unasserted
    have spares : stepped.value.Spares cpu.registers stepped.cpu.registers :=
      (step_spares_of_turn cpu turn).onBus bus device
    have unreset : stepped.value ≠ .reset := (step_ne_reset cpu unasserted).onBus bus device
    have accounts : stepped.value.Accounts cpu calls stepped.cpu :=
      (step_accounts cpu lines).onBus bus device
    refine ⟨fun part changed => ?_, fun unstored => ?_⟩
    · exact Bool.of_not_eq_false fun unwritten => changed (spares part unwritten)
    · exact accounts.r (Segment.not_setsRefresh unreset unstored)
  · intro commands calls after trace unreset
    have traced : runOn (runAll commands) bus cpu device =
        ⟨(), (runOn (traceAll commands) bus cpu device).cpu,
          (runOn (traceAll commands) bus cpu device).device⟩ := by
      simp [runAll_eq]
    have same : calls = callsOn (traceAll commands) bus cpu device := by
      simp [calls, runAll_eq]
    have stands := (Cpu.stands_accrues.traceAll commands cpu).onBus bus device
    have refreshed := (Cpu.refreshed_accrues.traceAll commands cpu).onBus bus device
    rw [← same] at refreshed
    simp only [after, traced]
    refine ⟨stands unreset, fun unstored => refreshed fun segment among => ?_⟩
    have other : segment ≠ .reset := fun reset => unreset (reset ▸ among)
    exact Segment.not_setsRefresh other (unstored segment among)

/-- LD IX,0x1234 and a bit set in memory through IX leave IY alone, and the saved enable outlasts
NMI and its handler. -/
theorem reserved_stand_over_nmi :
    let cpu := Cpu.fresh.updateRegisters fun regs =>
      { regs with iy := 0xABCD, iff1 := true, iff2 := true }
    let board := (Board.fresh.load 0x0000 [0xDD, 0x21, 0x34, 0x12, 0xDD, 0xCB, 0x05, 0xC6]).load
      0x0066 [0xED, 0x45]
    let commands : List Command := [.next {}, .next {}, .step { nmi := true }, .next {}]
    let after := (runOn (runAll commands) Board.bus cpu board).cpu.registers
    (runOn (traceAll commands) Board.bus cpu board).value =
        [.selector .main 0xDD, .instruction .ix 0x21 false, .selector .main 0xDD,
          .selector .ix 0xCB, .instruction .ixBits 0xC6 false, .nonMaskable,
          .selector .main 0xED, .instruction .extended 0x45 false] ∧
      after.ix = 0x1234 ∧ after.iy = 0xABCD ∧ after.iff2 = true := by
  intro cpu board commands after
  have trace : (runOn (traceAll commands) Board.bus cpu board).value =
      [.selector .main 0xDD, .instruction .ix 0x21 false, .selector .main 0xDD,
        .selector .ix 0xCB, .instruction .ixBits 0xC6 false, .nonMaskable,
        .selector .main 0xED, .instruction .extended 0x45 false] := by
    decide +kernel
  have unreset : .reset ∉ (runOn (traceAll commands) Board.bus cpu board).value := by
    rw [trace]
    decide
  have unwritten (part : Reserved) (among : part ∈ [Reserved.iy, .iff2]) :
      ∀ segment ∈ (runOn (traceAll commands) Board.bus cpu board).value,
        segment.writes part = false := by
    rw [trace]
    revert part
    decide
  have stand := ((reserved_stand Board.bus cpu board).2 commands unreset).1
  exact ⟨trace, by decide +kernel, stand .iy (unwritten .iy (by decide)),
    stand .iff2 (unwritten .iff2 (by decide))⟩

end Exec

end Z80
