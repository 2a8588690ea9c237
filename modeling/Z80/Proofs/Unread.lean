import Z80.Cpu.Step
import Z80.Proofs.Access

/-!
# What instructions do not look at

What belongs to the driver alone can be changed before an instruction or after it: the calls and the
value are the same, and so is the processor in the end. An amendment is such a change. It goes
through a computation one part after the other (`Exec.carriesAt_bind`), through every instruction,
and through what a step performs as long as the fetch of an opcode does not write over it.

## Main definitions

* `Cpu.Amendment`, `Cpu.amend`: a change of what belongs to the driver
* `Exec.Carries`: amending before a computation comes to amending after it
* `Cpu.Amendment.Lasting`: a fetch does not write over the amendment

## Main results

* `Instruction.execute_carries`: no instruction looks at what belongs to the driver
* `Exec.fetch_carries`, `Exec.perform_carries`: what a step performs looks only at the page
-/

namespace Z80

open Exec

/-- A change of what belongs to the driver: each part is changed by itself. -/
structure Cpu.Amendment where
  pending : Option Page → Option Page := id
  nmiPending : Bool → Bool := id
  lastFetched : Byte → Byte := id
  lastOpcode : Byte → Byte := id
  total : Tacts → Tacts := id
  outputs : Outputs → Outputs := id
  stepTacts : Nat → Nat := id
  backlog : Nat → Nat := id

/-- The processor with an amendment made. -/
def Cpu.amend (amendment : Cpu.Amendment) (cpu : Cpu) : Cpu :=
  { cpu with
    pending := amendment.pending cpu.pending
    nmiPending := amendment.nmiPending cpu.nmiPending
    lastFetched := amendment.lastFetched cpu.lastFetched
    lastOpcode := amendment.lastOpcode cpu.lastOpcode
    total := amendment.total cpu.total
    outputs := amendment.outputs cpu.outputs
    stepTacts := amendment.stepTacts cpu.stepTacts
    backlog := amendment.backlog cpu.backlog }

/-- Two continuations make the same program exactly if they agree on every value of it. -/
theorem Program.bind_eq_bind_iff {α β : Type} {program : Program α}
    {first second : α → Program β} :
    program >>= first = program >>= second ↔
      program.Always fun _ value => first value = second value := by
  induction program with
  | done value => exact Iff.rfl
  | call request next ih =>
    simp only [call_bind, Always, call.injEq, heq_eq_eq, true_and, funext_iff, ih]

namespace Exec

variable {α β : Type} (amendment : Cpu.Amendment)

/-- Started on a processor, the computation makes the same calls with and without the amendment, and
ends the same but for the amendment. -/
def CarriesAt (program : Exec α) (cpu : Cpu) : Prop :=
  program (cpu.amend amendment) =
    (fun result => (result.1, result.2.amend amendment)) <$> program cpu

/-- The computation carries the amendment through from every processor. -/
def Carries (program : Exec α) : Prop := ∀ cpu, CarriesAt amendment program cpu

section Rules

variable {amendment} {program : Exec α} {cpu : Cpu}

@[simp] theorem Carries.carriesAt (carries : Carries amendment program) (cpu : Cpu) :
    CarriesAt amendment program cpu := carries cpu

/-- Behind a part that carries the amendment through, the rest has to do so on every branch. -/
@[simp] theorem carriesAt_bind {next : α → Exec β} (carries : Carries amendment program) :
    CarriesAt amendment (program >>= next) cpu ↔
      program.Always cpu fun _ value after => CarriesAt amendment (next value) after := by
  have before : (program >>= next) (cpu.amend amendment) =
      program cpu >>= fun result => next result.1 (result.2.amend amendment) := by
    change program (cpu.amend amendment) >>= _ = _
    rw [carries cpu, map_eq_pure_bind, bind_assoc]
    rfl
  have after : (fun result => (result.1, result.2.amend amendment)) <$> (program >>= next) cpu =
      program cpu >>= fun result =>
        (fun last => (last.1, last.2.amend amendment)) <$> next result.1 result.2 := by
    change _ <$> (program cpu >>= _) = _
    rw [map_bind]
  rw [CarriesAt, before, after, Program.bind_eq_bind_iff]
  exact Iff.rfl

/-- A look at the whole processor does no harm if what follows does not see the amendment. -/
theorem carriesAt_get_bind {next : Cpu → Exec β} (unread : next (cpu.amend amendment) = next cpu) :
    CarriesAt amendment (get >>= next) cpu ↔ CarriesAt amendment (next cpu) cpu := by
  unfold CarriesAt
  change next (cpu.amend amendment) (cpu.amend amendment) = _ ↔ _
  rw [unread]
  exact Iff.rfl

theorem map_apply (change : α → β) (start : Cpu) :
    (change <$> program) start = (fun result => (change result.1, result.2)) <$> program start := by
  rw [map_eq_pure_bind, map_eq_pure_bind]
  rfl

theorem CarriesAt.map (carries : CarriesAt amendment program cpu) (change : α → β) :
    CarriesAt amendment (change <$> program) cpu := by
  unfold CarriesAt at carries ⊢
  simp only [map_apply, carries, Functor.map_map]

@[simp] theorem carriesAt_map (change : Unit → β) (body : Exec Unit) :
    CarriesAt amendment (change <$> body) cpu ↔ CarriesAt amendment body cpu := by
  refine ⟨fun carries => ?_, fun carries => carries.map change⟩
  -- There is only one value, so it can be put back.
  have back : CarriesAt amendment ((fun _ => ()) <$> (change <$> body)) cpu := carries.map _
  rw [Functor.map_map] at back
  exact id_map body ▸ back

@[simp] theorem carriesAt_untaken (body : Exec Unit) :
    CarriesAt amendment (untaken body) cpu ↔ CarriesAt amendment body cpu := by
  rw [untaken, ← map_eq_pure_bind]
  exact carriesAt_map _ _

@[simp] theorem carriesAt_ite (condition : Prop) [Decidable condition] (first second : Exec α) :
    CarriesAt amendment (if condition then first else second) cpu ↔
      (condition → CarriesAt amendment first cpu) ∧
        (¬ condition → CarriesAt amendment second cpu) := by
  split <;> simp [*]

end Rules

@[simp] theorem carries_pure (value : α) : Carries amendment (pure value) := fun _ => rfl

@[simp] theorem carries_registers : Carries amendment registers := fun _ => rfl

@[simp] theorem carries_updateRegisters (change : Registers → Registers) :
    Carries amendment (updateRegisters change) := fun _ => rfl

@[simp] theorem carries_modify (change : Cpu → Cpu) :
    Carries amendment (modify change) ↔
      ∀ cpu, change (cpu.amend amendment) = (change cpu).amend amendment := by
  constructor
  · intro carries cpu
    have same : Program.done ((), change (cpu.amend amendment)) =
        .done ((), (change cpu).amend amendment) := carries cpu
    simpa using same
  · intro same cpu
    exact congrArg (fun after => Program.done ((), after)) (same cpu)

/-- Every call to the bus carries an amendment through. -/
@[simp] theorem carries_calls :
    (∀ access address, Carries amendment (readFor access address)) ∧
      (∀ address value, Carries amendment (write address value)) ∧
      (∀ port, Carries amendment (input port)) ∧
      (∀ port value, Carries amendment (output port value)) ∧
      Carries amendment dataLines ∧ Carries amendment noteReturn ∧
      (∀ kind, Carries amendment (acknowledge kind)) ∧
      (∀ source value, Carries amendment (pointerFor source value)) ∧
      (∀ source value, Carries amendment (byteFor source value)) ∧
      (∀ source value, Carries amendment (pairFor source value)) ∧
      ∀ source value, Carries amendment (portFor source value) :=
  ⟨fun _ _ _ => rfl, fun _ _ _ => rfl, fun _ _ => rfl, fun _ _ _ => rfl, fun _ => rfl,
    fun _ => rfl, fun _ _ => rfl, fun _ _ _ => rfl, fun _ _ _ => rfl, fun _ _ _ => rfl,
    fun _ _ _ => rfl⟩

/-- The accesses that instructions are made of carry an amendment through. -/
@[simp] theorem carries_accesses :
    Carries amendment fetchOperand ∧ Carries amendment fetchWord ∧
      (∀ address, Carries amendment (read address)) ∧
      (∀ address, Carries amendment (readWord address)) ∧
      (∀ address value, Carries amendment (writeWord address value)) ∧
      (∀ source, Carries amendment (pointer source)) ∧
      (∀ source, Carries amendment (portAddress source)) ∧
      (∀ source, Carries amendment (byteValue source)) ∧
      (∀ source, Carries amendment (pairValue source)) ∧
      (∀ value, Carries amendment (pushWord value)) ∧ Carries amendment popWord :=
  ⟨fun _ => rfl, fun _ => rfl, fun _ _ => rfl, fun _ _ => rfl, fun _ _ _ => rfl, fun _ _ => rfl,
    fun _ _ => rfl, fun _ _ => rfl, fun _ _ => rfl, fun _ _ => rfl, fun _ => rfl⟩

/-- So do the parts that write flags and registers. -/
@[simp] theorem carries_parts :
    Carries amendment flags ∧ (∀ flags, Carries amendment (writeFlags flags)) ∧
      (∀ outcome, Carries amendment (writeAccumulator outcome)) ∧
      (∀ address, Carries amendment (latch address)) ∧
      (∀ address, Carries amendment (goTo address)) ∧
      (∀ target, Carries amendment (jumpTo target)) ∧
      (∀ offset, Carries amendment (jumpBy offset)) ∧
      (∀ target, Carries amendment (callTo target)) ∧ Carries amendment returnToCaller ∧
      (∀ op operand, Carries amendment (combine op operand)) ∧
      (∀ address, Carries amendment (latchStore address)) ∧
      (∀ value, Carries amendment (loadSpecial value)) ∧
      (∀ change, Carries amendment (rotateDigits change)) ∧
      Carries amendment BlockOperation.countPair ∧ Carries amendment BlockOperation.countByte :=
  ⟨fun _ => rfl, fun _ _ => rfl, fun _ _ => rfl, fun _ _ => rfl, fun _ _ => rfl, fun _ _ => rfl,
    fun _ _ => rfl, fun _ _ => rfl, fun _ => rfl, fun _ _ _ => rfl, fun _ _ => rfl, fun _ _ => rfl,
    fun _ _ => rfl, fun _ => rfl, fun _ => rfl⟩

@[simp] theorem carries_operandAddress (index : Index) :
    Carries amendment (operandAddress index) := by
  cases index <;> exact fun _ => rfl

@[simp] theorem carries_apply (operation : BitOperation) (byte copies : Byte) :
    Carries amendment (operation.apply byte copies) := by
  cases operation <;> exact fun _ => rfl

@[simp] theorem carries_rewind (repeating : Bool) :
    Carries amendment (BlockOperation.rewind repeating) := by
  cases repeating <;> exact fun _ => rfl

end Exec

/-! ### Instructions -/

section Instructions

variable (amendment : Cpu.Amendment)

theorem Operation.execute_carries (operation : Operation) (index : Index) :
    Carries amendment (operation.execute index) := by
  intro cpu
  cases operation with
  | increment place | decrement place | accumulate _ place | loadImmediate place =>
    cases place <;> simp [execute, readPlace, modifyPlace]
  | setCarry | complementCarry =>
    -- These two look at the flags that the instruction before has written.
    simp only [execute, carriesAt_untaken, carries_registers, carriesAt_bind, carries_parts,
      always_registers, always_flags]
    exact (carriesAt_get_bind rfl).mpr (by simp)
  | _ => simp [execute, Cpu.amend]

theorem BitOperation.execute_carries (operation : BitOperation) (place : Place) :
    Carries amendment (operation.execute place) := by
  intro cpu
  cases operation <;> cases place <;> simp [execute]

theorem BitOperation.executeIndexed_carries (operation : BitOperation) (index : Index)
    (offset : Byte) (copy : Option Reg) :
    Carries amendment (operation.executeIndexed index offset copy) := by
  intro cpu
  cases operation <;> cases copy <;> simp [executeIndexed]

theorem BlockOperation.execute_carries (operation : BlockOperation) :
    Carries amendment operation.execute := by
  intro cpu
  obtain ⟨action, _, _⟩ := operation
  cases action <;> simp [execute, act, transfer, compare, input, output, Cpu.amend]

theorem ExtendedOperation.execute_carries (operation : ExtendedOperation) :
    Carries amendment operation.execute := by
  intro cpu
  cases operation with
  | block operation => exact operation.execute_carries amendment cpu
  | input target =>
    cases target <;> simp [execute]
  | _ => simp [execute, Cpu.amend]

/-- No instruction looks at what belongs to the driver. -/
theorem Instruction.execute_carries (instruction : Instruction) (offset : Byte) :
    Carries amendment (instruction.execute offset) := by
  cases instruction with
  | main index operation => exact operation.execute_carries amendment index
  | bits operation place =>
    exact fun cpu => (carriesAt_untaken _).mpr (operation.execute_carries amendment place cpu)
  | indexedBits index operation copy =>
    exact fun cpu =>
      (carriesAt_untaken _).mpr (operation.executeIndexed_carries amendment index offset copy cpu)
  | extended operation => exact operation.execute_carries amendment

end Instructions

/-! ### Steps -/

/-- A fetch does not write over the amendment: it leaves alone the page and the last bytes, and it
does not touch M1. -/
structure Cpu.Amendment.Lasting (amendment : Cpu.Amendment) : Prop where
  pending : amendment.pending = id
  lastFetched : amendment.lastFetched = id
  lastOpcode : amendment.lastOpcode = id
  outputs : ∀ outputs, amendment.outputs { outputs with m1 := true } =
    { amendment.outputs outputs with m1 := true }

namespace Exec

/-- What a fetch does once it has the offset and the opcode. -/
def decode (page : Page) (offset opcode : Byte) : Exec Segment :=
  match page.role opcode with
  | .selector => do
    modify fun cpu => { cpu with pending := some (page.next opcode) }
    return .selector page opcode
  | .instruction instruction => do
    modify fun cpu => { cpu with pending := none, lastOpcode := opcode }
    let taken ← instruction.execute offset
    return .instruction page opcode taken

theorem fetch_of_displaced {page : Page} (displaced : page.displacementFirst = true) :
    fetch page = fetchOperand >>= fun offset => fetchOperand >>= decode page offset := by
  cases page with
  | ixBits | iyBits => rfl
  | _ => cases displaced

theorem fetch_of_plain {page : Page} (plain : page.displacementFirst = false)
    (other : page ≠ .main) :
    fetch page = fetchOpcode >>= decode page 0 := by
  cases page with
  | ixBits | iyBits => cases plain
  | main => exact absurd rfl other
  | _ => rfl

theorem fetch_main :
    fetch .main = modify (·.beginInstruction) >>= fun _ => fetchOpcode >>= decode .main 0 := rfl

section Lasting

variable {amendment : Cpu.Amendment} (lasting : amendment.Lasting)

include lasting

theorem fetchOpcode_carries : Carries amendment fetchOpcode := by
  intro cpu
  simp only [fetchOpcode, carries_registers, carriesAt_bind, always_registers, carries_calls,
    always_readFor]
  intro opcode
  have noted : Carries amendment (modify fun cpu =>
      { cpu.updateRegisters fun regs => { regs.refresh with pc := regs.pc + 1 } with
        lastFetched := opcode
        outputs := { cpu.outputs with m1 := true } }) := by
    rw [carries_modify]
    intro cpu
    simp [Cpu.amend, Cpu.updateRegisters, lasting.lastFetched, lasting.outputs]
  rw [carriesAt_bind noted]
  exact carries_pure amendment opcode _

theorem decode_carries (page : Page) (offset opcode : Byte) :
    Carries amendment (decode page offset opcode) := by
  intro cpu
  unfold decode
  cases page.role opcode with
  | selector => simp [Cpu.amend, lasting.pending]
  | instruction instruction =>
    have executes := instruction.execute_carries amendment
    simp [Cpu.amend, lasting.pending, lasting.lastOpcode, (executes _ _).map]

/-- A fetch carries a lasting amendment through. -/
theorem fetch_carries (page : Page) : Carries amendment (fetch page) := by
  intro cpu
  have opcode := fetchOpcode_carries lasting
  have decodes := decode_carries lasting page
  cases order : page.displacementFirst with
  | true => simp [fetch_of_displaced order, decodes]
  | false =>
    by_cases main : page = .main
    · subst main
      have begun : Carries amendment (modify (·.beginInstruction)) := by
        simp [Cpu.amend, Cpu.beginInstruction, Cpu.ageFlags]
      rw [fetch_main]
      simp [begun, opcode, decodes]
    · rw [fetch_of_plain order main]
      simp [opcode, decodes]

theorem inject_carries : Carries amendment inject := by
  intro cpu
  have noted (opcode : Byte) :
      Carries amendment (modify fun cpu => { cpu with lastFetched := opcode }) := by
    simp [Cpu.amend, lasting.lastFetched]
  simp only [inject, carries_calls, carriesAt_bind, always_dataLines, noted, always_modify]
  intro opcode
  cases Page.main.role opcode with
  | selector => simp [Cpu.amend, lasting.pending]
  | instruction instruction =>
    have executes := instruction.execute_carries amendment
    simp [Cpu.amend, lasting.lastOpcode, (executes _ _).map]

/-- What a step performs carries a lasting amendment through, unless it is a reset, or takes NMI and
the amendment is to the note of it. -/
theorem perform_carries (looping : Bool) {turn : Turn} (other : turn ≠ .reset)
    (stays : turn = .nonMaskable → amendment.nmiPending = id) :
    Carries amendment (perform looping turn) := by
  have acknowledged : Carries amendment (modify (·.acknowledged looping)) := by
    simp [Cpu.amend, Cpu.acknowledged, Cpu.ageFlags, lasting.outputs]
  have fetches := fetch_carries lasting
  have injects := inject_carries lasting
  intro cpu
  cases turn with
  | reset => exact absurd rfl other
  | stall => simp [perform]
  | proceed page => exact fetches page cpu
  | begin => simp [perform, Cpu.amend, fetches]
  | idle =>
    simp [perform, idle, Cpu.amend, Cpu.beginInstruction, Cpu.ageFlags, Cpu.updateRegisters,
      lasting.outputs]
  | nonMaskable =>
    simp [perform, acknowledgeNonMaskable, interruptTo, acknowledged, Cpu.amend, stays rfl]
  | maskable =>
    simp only [perform, acknowledgeMaskable, carries_registers, carriesAt_bind, always_registers,
      carries_calls, always_acknowledge, acknowledged, always_modify, carries_updateRegisters,
      always_updateRegisters]
    cases cpu.registers.im with
    | injected => exact injects _
    | restart => simp [interruptTo]
    | vectored => simp [jumpThroughTable]

end Lasting

end Exec

end Z80
