import Z80.Proofs.Frame

/-!
# What a step does

A step is opened into its parts once and for all, whatever the bus answers: the lines are sampled,
the turn decides what is performed, and the time of the segment is booked. From the segments come
the facts that every driver relies on: a step takes at least one tact, leaves no backlog, is busy
exactly if a prefix is pending after it, and acknowledges an interrupt exactly if that was its turn.

## Main definitions

* `Cpu.ready`: the processor as a step finds it once the lines are sampled
* `Segment.acknowledgement?`: what a segment acknowledges
* `Segment.masks`, `Segment.unmasks`: the segments that write the enable of maskable interrupts
* `Segment.Settles`: what all segments have in common
* `Segment.Delimits`: what a segment tells of instruction boundaries

## Main results

* `Exec.step_apply`, `Exec.always_step`: a step, opened
* `Exec.always_fetch_opcode`, `Exec.always_fetch_displaced`: a fetch, opened
* `Page.prefixTacts_lt_tacts`: prefix bytes never cost as much as the instruction with them
* `Segment.tacts_le`: no step takes more than twenty-five tacts
* `Exec.step_settles`: every step settles
* `Exec.step_delimits`: a step is busy exactly if it is held or leaves a prefix pending
-/

namespace Z80

open Exec

/-! ### The turn -/

/-- The processor as a step finds it once the lines are sampled. -/
def Cpu.ready (cpu : Cpu) (lines : Lines) : Cpu :=
  { cpu.beginStep lines with looping := cpu.looping && lines.wait }

namespace Cpu

variable {cpu : Cpu} {lines : Lines}

theorem turn_eq_stall_iff : cpu.turn lines = .stall ↔ lines.wait = true := by
  rw [turn]
  split
  · simp [*]
  · rename_i running
    simp only [running]
    split
    · simp
    · repeat (split; simp)
      simp

theorem turn_eq_proceed_iff {page : Page} :
    cpu.turn lines = .proceed page ↔ lines.wait = false ∧ cpu.pending = some page := by
  cases running : lines.wait <;> cases pending : cpu.pending <;> simp [turn, running, pending]
  grind

theorem turn_eq_nonMaskable_iff :
    cpu.turn lines = .nonMaskable ↔
      lines.wait = false ∧ cpu.pending = none ∧ lines.reset = false ∧ cpu.suppressed = false ∧
        cpu.nmiPending = true := by
  cases running : lines.wait <;> cases pending : cpu.pending <;> simp [turn, running, pending]
  grind

theorem turn_eq_maskable_iff :
    cpu.turn lines = .maskable ↔
      lines.wait = false ∧ cpu.pending = none ∧ lines.reset = false ∧ cpu.suppressed = false ∧
        cpu.nmiPending = false ∧ cpu.registers.iff1 = true ∧ lines.int = true := by
  cases running : lines.wait <;> cases pending : cpu.pending <;> simp [turn, running, pending]
  grind

theorem turn_eq_begin_iff :
    cpu.turn lines = .begin ↔
      lines.wait = false ∧ cpu.pending = none ∧ lines.reset = false ∧
        (cpu.suppressed = true ∨
          cpu.nmiPending = false ∧ (cpu.registers.iff1 = false ∨ lines.int = false)) ∧
        cpu.halted = false := by
  cases running : lines.wait <;> cases pending : cpu.pending <;> simp [turn, running, pending]
  grind

/-- Whatever is neither a stall nor the next byte of an instruction happens on a boundary. -/
theorem pending_of_turn (stall : cpu.turn lines ≠ .stall)
    (proceed : ∀ page, cpu.turn lines ≠ .proceed page) : cpu.pending = none := by
  cases pending : cpu.pending with
  | none => rfl
  | some page =>
    have running : lines.wait = false := by simpa [turn_eq_stall_iff] using stall
    exact absurd (turn_eq_proceed_iff.mpr ⟨running, pending⟩) (proceed page)

end Cpu

namespace Exec

variable (cpu : Cpu)

/-- A step in two parts: what it performs, and its end. -/
theorem step_apply (lines : Lines) :
    step lines cpu = (fun result => (result.1, result.2.endStep result.1.tacts)) <$>
      perform cpu.looping ((cpu.ready lines).turn lines) (cpu.ready lines) := by
  have same : (cpu.ready lines).turn lines = (cpu.beginStep lines).turn lines := rfl
  have opened : step lines cpu =
      (do
        if (cpu.beginStep lines).turn lines ≠ .stall then
          modify fun cpu => { cpu with looping := false }
        let segment ← perform cpu.looping ((cpu.beginStep lines).turn lines)
        modify (·.endStep segment.tacts)
        return segment : Exec Segment) (cpu.beginStep lines) := rfl
  rw [map_eq_pure_bind, same, opened]
  by_cases stalled : (cpu.beginStep lines).turn lines = .stall
  · have held := Cpu.turn_eq_stall_iff.mp stalled
    have ready : cpu.ready lines = cpu.beginStep lines := by
      simp [Cpu.ready, held, Cpu.beginStep, Cpu.sampleNmi]
    rw [if_neg (not_not_intro stalled), ready]
    rfl
  · have running : ¬ lines.wait = true := mt Cpu.turn_eq_stall_iff.mpr stalled
    have ready : cpu.ready lines = { cpu.beginStep lines with looping := false } := by
      simp [Cpu.ready, running]
    rw [if_pos stalled, ready]
    rfl

theorem always_step (lines : Lines) (post : List Exchange → Segment → Cpu → Prop) :
    Always (step lines) cpu post ↔
      Always (perform cpu.looping ((cpu.ready lines).turn lines)) (cpu.ready lines)
        fun calls segment after => post calls segment (after.endStep segment.tacts) := by
  simp [Always, step_apply, map_eq_pure_bind, Program.always_bind, Program.Always]

theorem runOn_step {σ : Type} (bus : Bus σ) (device : σ) (lines : Lines) :
    runOn (step lines) bus cpu device =
      let performed :=
        runOn (perform cpu.looping ((cpu.ready lines).turn lines)) bus (cpu.ready lines) device
      ⟨performed.value, performed.cpu.endStep performed.value.tacts, performed.device⟩ := by
  simp [runOn, step_apply, map_eq_pure_bind]

theorem callsOn_step {σ : Type} (bus : Bus σ) (device : σ) (lines : Lines) :
    callsOn (step lines) bus cpu device =
      callsOn (perform cpu.looping ((cpu.ready lines).turn lines)) bus (cpu.ready lines)
        device := by
  simp [callsOn, step_apply, map_eq_pure_bind]

end Exec

/-! ### Fetches -/

/-- The processor before a fetch in a page. -/
def Cpu.opened (cpu : Cpu) (page : Page) : Cpu := if page = .main then cpu.beginInstruction else cpu

/-- Opening an instruction touches latches only. -/
@[simp] theorem Cpu.opened_kept (cpu : Cpu) (page : Page) :
    (cpu.opened page).registers = cpu.registers ∧ (cpu.opened page).pending = cpu.pending ∧
      (cpu.opened page).total = cpu.total ∧ (cpu.opened page).backlog = cpu.backlog := by
  unfold opened
  split <;> exact ⟨rfl, rfl, rfl, rfl⟩

/-- The processor after the fetch of an opcode or prefix byte. -/
def Cpu.fetched (cpu : Cpu) (opcode : Byte) : Cpu :=
  { cpu.updateRegisters fun regs => { regs.refresh with pc := regs.pc + 1 } with
    lastFetched := opcode
    outputs := { cpu.outputs with m1 := true } }

namespace Exec

variable (cpu : Cpu) {page : Page}

theorem always_fetch_opcode (plain : page.displacementFirst = false)
    (post : List Exchange → Segment → Cpu → Prop) :
    Always (fetch page) cpu post ↔ ∀ opcode : Byte,
      (page.role opcode = .selector →
        post [⟨.read cpu.registers.pc .opcode, opcode⟩] (.selector page opcode)
          { (cpu.opened page).fetched opcode with pending := some (page.next opcode) }) ∧
      ∀ instruction, page.role opcode = .instruction instruction →
        Always (instruction.execute 0)
          { (cpu.opened page).fetched opcode with pending := none, lastOpcode := opcode }
          fun calls taken after =>
            post (⟨.read cpu.registers.pc .opcode, opcode⟩ :: calls)
              (.instruction page opcode taken) after := by
  have same : (cpu.opened page).registers.pc = cpu.registers.pc := by simp
  have opened (rest : Byte → Exec Segment) :
      Always (do
        if page = .main then modify (·.beginInstruction)
        let opcode ← fetchOpcode
        rest opcode) cpu post ↔
      Always (do
        let opcode ← fetchOpcode
        rest opcode) (cpu.opened page) post := by
    unfold Cpu.opened
    by_cases main : page = .main <;> simp [main]
  simp only [fetch, plain, Bool.false_eq_true, if_false, pure_bind]
  rw [← same, opened, always_bind, always_fetchOpcode]
  generalize cpu.opened page = start
  apply forall_congr'
  intro opcode
  cases page.role opcode with
  | selector =>
    simp
    rfl
  | instruction instruction =>
    simp
    rfl

theorem always_fetch_displaced (displaced : page.displacementFirst = true)
    (post : List Exchange → Segment → Cpu → Prop) :
    Always (fetch page) cpu post ↔ ∀ (offset opcode : Byte) (instruction : Instruction),
      page.role opcode = .instruction instruction →
        Always (instruction.execute offset)
          { cpu.updateRegisters fun regs => { regs with pc := regs.pc + 1 + 1 } with
            pending := none
            lastOpcode := opcode }
          fun calls taken after =>
            post (⟨.read cpu.registers.pc .operand, offset⟩ ::
                ⟨.read (cpu.registers.pc + 1) .operand, opcode⟩ :: calls)
              (.instruction page opcode taken) after := by
  have other : page ≠ .main := by
    rintro rfl
    cases displaced
  simp only [fetch, other, displaced, if_true, if_false, always_bind, always_fetchOperand]
  apply forall_congr'
  intro offset
  apply forall_congr'
  intro opcode
  cases page with
  | ixBits | iyBits => simp [Page.role, Role.ofIndexedBits]
  | _ => cases displaced

end Exec

/-! ### The times of the table -/

theorem Operation.four_le_mainTacts (operation : Operation) : 4 ≤ operation.mainTacts := by
  cases operation with
  | increment place | decrement place | accumulate _ place | loadImmediate place =>
    cases place <;> simp [mainTacts]
  | _ => simp [mainTacts]

theorem Operation.eight_le_tacts (operation : Operation) {index : Index} (other : index ≠ .hl) :
    8 ≤ operation.tacts index := by
  have least := operation.four_le_mainTacts
  unfold tacts
  rw [if_neg other]
  split
  · decide
  · split <;> omega

/-- The prefix bytes of an instruction cost less than the instruction with them. -/
theorem Page.prefixTacts_lt_tacts {page : Page} {opcode : Byte} {instruction : Instruction}
    (role : page.role opcode = .instruction instruction) :
    page.prefixTacts < instruction.tacts := by
  cases page with
  | main =>
    simp only [Page.role, Role.ofMain] at role
    split at role <;> cases role
    next operation _ =>
      exact Nat.lt_of_lt_of_le (by decide) operation.four_le_mainTacts
  | ix | iy =>
    simp only [Page.role, Role.ofMain] at role
    split at role <;> cases role
    next operation _ =>
      exact Nat.lt_of_lt_of_le (by decide) (operation.eight_le_tacts (by decide))
  | bits =>
    cases role
    cases BitOperation.ofOpcode opcode <;> cases Place.ofField (Opcode.source opcode) <;>
      simp [prefixTacts, prefixBytes, Instruction.tacts, BitOperation.tacts]
  | ixBits | iyBits =>
    cases role
    cases BitOperation.ofOpcode opcode <;>
      simp [prefixTacts, prefixBytes, Instruction.tacts, BitOperation.indexedTacts]
  | extended =>
    simp only [Page.role] at role
    split at role <;> cases role
    next operation _ =>
      cases operation <;>
        simp [prefixTacts, prefixBytes, Instruction.tacts, ExtendedOperation.tacts]

theorem Operation.tacts_add_extraTacts_le (operation : Operation) (index : Index) :
    operation.tacts index + operation.extraTacts ≤ 23 := by
  have taken : operation.mainTacts + operation.extraTacts ≤ 19 := by
    cases operation with
    | increment place | decrement place | accumulate _ place | loadImmediate place =>
      cases place <;> simp [mainTacts, extraTacts]
    | _ => simp [mainTacts, extraTacts]
  -- Only short operations work on an indexed byte.
  have indexed : operation.usesMemory = true →
      operation.mainTacts ≤ 11 ∧ operation.extraTacts = 0 := by
    cases operation with
    | increment place | decrement place | accumulate _ place | loadImmediate place =>
      cases place <;> simp [mainTacts, extraTacts, usesMemory]
    | _ => simp [mainTacts, extraTacts, usesMemory]
  unfold tacts
  split
  · omega
  · split
    · decide
    · split
      · next memory =>
        have short := indexed memory
        omega
      · omega

/-- No instruction takes more tacts than an operation that changes an indexed byte. -/
theorem Instruction.tacts_add_extraTacts_le (instruction : Instruction) :
    instruction.tacts + instruction.extraTacts ≤ 23 := by
  cases instruction with
  | main index operation => exact operation.tacts_add_extraTacts_le index
  | bits operation place =>
    cases operation <;> cases place <;> simp [tacts, extraTacts, BitOperation.tacts]
  | indexedBits _ operation _ =>
    cases operation <;> simp [tacts, extraTacts, BitOperation.indexedTacts]
  | extended operation =>
    cases operation with
    | block operation =>
      cases repeats : operation.repeats <;>
        simp [tacts, extraTacts, ExtendedOperation.tacts, ExtendedOperation.extraTacts, repeats]
    | _ => simp [tacts, extraTacts, ExtendedOperation.tacts, ExtendedOperation.extraTacts]

/-! ### Acknowledgements and the enable -/

/-- The instruction of a role that has one. -/
def Role.instruction? : Role → Option Instruction
  | .selector => none
  | .instruction found => some found

/-- What the turn acknowledges, in the given mode. -/
def Turn.acknowledgement? (mode : InterruptMode) : Turn → Option Acknowledgement
  | .nonMaskable => some .nonMaskable
  | .maskable => some (.maskable mode.number)
  | _ => none

theorem Turn.acknowledgement?_eq_nonMaskable_iff {turn : Turn} {mode : InterruptMode} :
    turn.acknowledgement? mode = some .nonMaskable ↔ turn = .nonMaskable := by
  cases turn <;> simp [acknowledgement?]

theorem Turn.acknowledgement?_eq_maskable_iff {turn : Turn} {mode : InterruptMode}
    {number : Byte} :
    turn.acknowledgement? mode = some (.maskable number) ↔
      number = mode.number ∧ turn = .maskable := by
  cases turn <;> simp [acknowledgement?, eq_comm]

namespace Segment

variable {page : Page} {opcode : Byte} {instruction : Instruction}

theorem tacts_selector (role : page.role opcode = .selector) :
    (selector page opcode).tacts = 4 := by
  simp [tacts, Page.entry, Entry.tacts, role]

theorem entryTacts_pos (role : page.role opcode = .instruction instruction) (taken : Bool) :
    0 < entryTacts page opcode taken := by
  have least := Page.prefixTacts_lt_tacts role
  simp only [entryTacts, Page.entry, Entry.tacts, role]
  omega

theorem entryTacts_le (page : Page) (opcode : Byte) (taken : Bool) :
    entryTacts page opcode taken ≤ 23 := by
  have whole : (page.entry opcode).tacts +
      (if taken then (page.entry opcode).extraTacts else 0) ≤ 23 := by
    simp only [Page.entry, Entry.tacts, Entry.extraTacts]
    cases page.role opcode with
    | selector => cases taken <;> decide
    | instruction instruction =>
      have most := instruction.tacts_add_extraTacts_le
      cases taken with
      | true => exact most
      | false => exact Nat.le_trans (Nat.le_add_right ..) most
  exact Nat.le_trans (Nat.sub_le ..) whole

/-- No step takes more tacts than the longest instruction behind an acknowledgement. -/
theorem tacts_le (segment : Segment) : segment.tacts ≤ 25 := by
  cases segment with
  | selector page opcode | injectedSelector opcode =>
    simp only [tacts, Page.entry, Entry.tacts]
    split
    · decide
    · next instruction _ =>
      have most := instruction.tacts_add_extraTacts_le
      omega
  | instruction page opcode taken =>
    exact Nat.le_trans (entryTacts_le page opcode taken) (by decide)
  | injected opcode taken =>
    have most := entryTacts_le .main opcode taken
    simp only [tacts]
    omega
  | _ => decide

/-- What the segment acknowledges. -/
def acknowledgement? : Segment → Option Acknowledgement
  | .nonMaskable => some .nonMaskable
  | .restarted => some (.maskable InterruptMode.restart.number)
  | .vectored => some (.maskable InterruptMode.vectored.number)
  | .injectedSelector _ | .injected _ _ => some (.maskable InterruptMode.injected.number)
  | _ => none

/-- The instruction that ran in the segment. -/
def instruction? : Segment → Option Instruction
  | .instruction page opcode _ => (page.role opcode).instruction?
  | .injected opcode _ => (Page.main.role opcode).instruction?
  | _ => none

/-- The segment completes EI, RETN or RETI. -/
def unmasks (segment : Segment) : Bool := segment.instruction?.any Instruction.enables

/-- The segment clears the enable of maskable interrupts: it is a reset, an acknowledgement or
DI. -/
def masks : Segment → Bool
  | .reset => true
  | segment =>
    segment.acknowledgement?.isSome || segment.instruction?.any Instruction.disables

/-- What the ends of all steps have in common: `accepted` is what the turn has the step acknowledge,
and `before` is the processor with its lines sampled. -/
@[mk_iff]
structure Settles (segment : Segment) (accepted : Option Acknowledgement) (before : Cpu)
    (calls : List Exchange) (after : Cpu) : Prop where
  backlog : after.backlog = 0
  stepTacts : after.stepTacts = segment.tacts
  total : after.total = before.total.after segment.tacts
  positive : 0 < segment.tacts
  busy : 1 < segment.tacts → segment.busy = after.pending.isSome
  accepted : segment.acknowledgement? = accepted
  quiet : acknowledgements calls = segment.acknowledgement?.toList
  iff1 : segment.unmasks = false →
    after.registers.iff1 = (before.registers.iff1 && !segment.masks)

end Segment

-- The segments and turns below are known, so that these compute.
attribute [local simp] Role.instruction? Turn.acknowledgement? Segment.acknowledgement?
  Segment.instruction? Segment.masks Segment.tacts Segment.busy Segment.settles_iff Cpu.endStep

namespace Instruction.Frame

variable {page : Page} {opcode : Byte} {instruction : Instruction} {cpu start after : Cpu}
  {calls : List Exchange}

/-- An instruction of a page settles once its opcode is fetched. -/
theorem settles (frame : instruction.Frame start calls after)
    (role : page.role opcode = .instruction instruction) (taken : Bool) (fetches : List Exchange)
    (fetched : acknowledgements fetches = []) (paid : start.backlog = 0)
    (total : start.total = cpu.total) (pending : start.pending = none)
    (iff1 : start.registers.iff1 = cpu.registers.iff1) :
    (Segment.instruction page opcode taken).Settles none cpu (fetches ++ calls)
      (after.endStep (Segment.instruction page opcode taken).tacts) where
  backlog := frame.driver.backlog.trans paid
  stepTacts := rfl
  total := by rw [← total, ← frame.driver.total, Cpu.endStep]
  positive := Segment.entryTacts_pos role taken
  busy _ := by simp [frame.driver.pending, pending]
  accepted := rfl
  quiet := by simp [fetched, frame.quiet]
  iff1 := by simpa [Segment.unmasks, role, iff1] using frame.iff1

/-- An instruction that a device injects settles once it is acknowledged. -/
theorem settles_injected (cpu : Cpu) (frame : instruction.Frame start calls after)
    (role : Page.main.role opcode = .instruction instruction) (taken : Bool)
    (fetches : List Exchange)
    (noted : acknowledgements fetches = [.maskable InterruptMode.injected.number])
    (paid : start.backlog = 0) (total : start.total = cpu.total) (pending : start.pending = none)
    (iff1 : start.registers.iff1 = false) :
    (Segment.injected opcode taken).Settles (some (.maskable InterruptMode.injected.number)) cpu
      (fetches ++ calls) (after.endStep (Segment.injected opcode taken).tacts) where
  backlog := frame.driver.backlog.trans paid
  stepTacts := rfl
  total := by rw [← total, ← frame.driver.total, Cpu.endStep]
  positive := Nat.add_pos_left (by decide) _
  busy _ := by simp [frame.driver.pending, pending]
  accepted := rfl
  quiet := by simp [noted, frame.quiet]
  iff1 := by simpa [Segment.unmasks, role, iff1] using frame.iff1

end Instruction.Frame

namespace Exec

variable (cpu : Cpu)

theorem fetch_settles (page : Page) (paid : cpu.backlog = 0) :
    (fetch page).Always cpu fun calls segment after =>
      segment.Settles none cpu calls (after.endStep segment.tacts) := by
  cases order : page.displacementFirst with
  | false =>
    rw [always_fetch_opcode cpu order]
    intro opcode
    constructor
    · intro role
      simp [Cpu.fetched, Registers.refresh, paid, role, Page.entry, Entry.tacts]
    · intro instruction role
      refine (instruction.execute_frame _ 0).mono ?_
      intro calls taken after frame
      have start : ((cpu.opened page).fetched opcode).backlog = 0 := by simpa [Cpu.fetched]
      exact frame.settles role taken [⟨.read cpu.registers.pc .opcode, opcode⟩] rfl start
        (by simp [Cpu.fetched]) rfl (by simp [Cpu.fetched, Registers.refresh])
  | true =>
    rw [always_fetch_displaced cpu order]
    intro offset opcode instruction role
    refine (instruction.execute_frame _ offset).mono ?_
    intro calls taken after frame
    exact frame.settles role taken [⟨.read cpu.registers.pc .operand, offset⟩,
      ⟨.read (cpu.registers.pc + 1) .operand, opcode⟩] rfl paid rfl rfl rfl

theorem acknowledgeMaskable_settles (looping : Bool) (boundary : cpu.pending = none)
    (paid : cpu.backlog = 0) :
    (acknowledgeMaskable looping).Always cpu fun calls segment after =>
      segment.Settles (some (.maskable cpu.registers.im.number)) cpu calls
        (after.endStep segment.tacts) := by
  cases mode : cpu.registers.im with
  | restart =>
    simp [acknowledgeMaskable, mode, interruptTo, Cpu.acknowledged, Cpu.ageFlags, paid, boundary]
  | vectored =>
    simp [acknowledgeMaskable, mode, jumpThroughTable, Cpu.acknowledged, Cpu.ageFlags, paid,
      boundary]
  | injected =>
    simp only [acknowledgeMaskable, inject, always_bind, always_registers, always_acknowledge,
      always_modify, always_updateRegisters, mode, always_dataLines]
    intro opcode
    cases role : Page.main.role opcode with
    | selector =>
      simp [mode, role, Cpu.acknowledged, Cpu.ageFlags, paid, Page.entry, Entry.tacts]
    | instruction instruction =>
      simp only [always_bind, always_modify]
      refine (instruction.execute_frame _ 0).mono ?_
      intro calls taken after frame
      have noted : acknowledgements [⟨.acknowledge (.maskable cpu.registers.im.number), ()⟩,
          ⟨.dataLines, opcode⟩] = [.maskable InterruptMode.injected.number] := by
        simp [mode]
      simpa using frame.settles_injected cpu role taken _ noted paid rfl boundary rfl

/-- Whatever a step performs settles. -/
theorem perform_settles (looping : Bool) (lines : Lines) (paid : cpu.backlog = 0) :
    (perform looping (cpu.turn lines)).Always cpu fun calls segment after =>
      segment.Settles ((cpu.turn lines).acknowledgement? cpu.registers.im) cpu calls
        (after.endStep segment.tacts) := by
  -- Only a stall and the next byte of an instruction can find a prefix pending.
  have boundary := @Cpu.pending_of_turn cpu lines
  cases turn : cpu.turn lines with
  | stall => simp [perform, paid]
  | proceed page => exact fetch_settles cpu page paid
  | reset =>
    simp [perform, Cpu.clear]
  | nonMaskable =>
    have pending := boundary (by simp [turn]) (by simp [turn])
    simp [perform, acknowledgeNonMaskable, interruptTo, Cpu.acknowledged, Cpu.ageFlags, paid,
      pending]
  | maskable =>
    have pending := boundary (by simp [turn]) (by simp [turn])
    exact acknowledgeMaskable_settles cpu looping pending paid
  | idle =>
    have pending := boundary (by simp [turn]) (by simp [turn])
    simp [perform, idle, Cpu.beginInstruction, Registers.refresh, Cpu.ageFlags, paid, pending]
  | begin =>
    have settles := fetch_settles { cpu with suppressed := false } .main paid
    simpa [perform] using settles

/-- Every step settles, and acknowledges what its turn is to acknowledge. -/
theorem step_settles (lines : Lines) :
    (step lines).Always cpu fun calls segment after =>
      segment.Settles (((cpu.ready lines).turn lines).acknowledgement? cpu.registers.im)
        (cpu.ready lines) calls after := by
  rw [always_step]
  exact perform_settles (cpu.ready lines) cpu.looping lines rfl

end Exec

/-! ### Boundaries -/

/-- What a segment tells of boundaries: it is busy exactly if it leaves a prefix pending, and then
it has made no access to data or to a port. -/
@[mk_iff]
structure Segment.Delimits (segment : Segment) (calls : List Exchange) (after : Cpu) : Prop where
  busy : segment.busy = after.pending.isSome
  untouched : segment.busy = true → ∀ call ∈ calls, call.isAccess = false

attribute [local simp] Segment.busy Segment.delimits_iff

namespace Exec

variable (cpu : Cpu)

theorem fetch_delimits (page : Page) :
    (fetch page).Always cpu fun calls segment after => segment.Delimits calls after := by
  cases order : page.displacementFirst with
  | false =>
    rw [always_fetch_opcode cpu order]
    intro opcode
    refine ⟨fun _ => by simp, fun instruction _ => ?_⟩
    refine (instruction.execute_frame _ 0).mono ?_
    intro calls taken after frame
    simp [frame.driver.pending]
  | true =>
    rw [always_fetch_displaced cpu order]
    intro offset opcode instruction role
    refine (instruction.execute_frame _ offset).mono ?_
    intro calls taken after frame
    simp [frame.driver.pending]

theorem inject_delimits (boundary : cpu.pending = none) :
    inject.Always cpu fun calls segment after => segment.Delimits calls after := by
  simp only [inject, always_bind, always_modify, always_dataLines]
  intro opcode
  cases Page.main.role opcode with
  | selector => simp
  | instruction instruction =>
    simp only [always_bind, always_modify, always_pure]
    refine (instruction.execute_frame _ 0).mono ?_
    intro calls taken after frame
    simp [frame.driver.pending, boundary]

/-- Whatever a step performs, unless it is held, tells of boundaries. -/
theorem perform_delimits (looping : Bool) {lines : Lines} (running : lines.wait = false) :
    (perform looping (cpu.turn lines)).Always cpu fun calls segment after =>
      segment.Delimits calls after := by
  have boundary := @Cpu.pending_of_turn cpu lines
  cases turn : cpu.turn lines with
  | stall => exact absurd (Cpu.turn_eq_stall_iff.mp turn) (by simp [running])
  | proceed page => exact fetch_delimits cpu page
  | begin => exact fetch_delimits { cpu with suppressed := false } .main
  | reset => simp [perform, Cpu.clear]
  | nonMaskable =>
    have pending := boundary (by simp [turn]) (by simp [turn])
    simp [perform, acknowledgeNonMaskable, interruptTo, Cpu.acknowledged, Cpu.ageFlags, pending]
  | idle =>
    have pending := boundary (by simp [turn]) (by simp [turn])
    simp [perform, idle, Cpu.beginInstruction, Cpu.ageFlags, pending]
  | maskable =>
    have pending := boundary (by simp [turn]) (by simp [turn])
    simp only [perform, acknowledgeMaskable, always_bind, always_registers, always_acknowledge,
      always_modify, always_updateRegisters]
    cases cpu.registers.im with
    | injected =>
      refine (inject_delimits _ ?_).mono ?_
      · exact pending
      intro calls segment after delimits
      simpa using delimits
    | restart => simp [interruptTo, Cpu.acknowledged, Cpu.ageFlags, pending]
    | vectored => simp [jumpThroughTable, Cpu.acknowledged, Cpu.ageFlags, pending]

/-- A step is busy exactly if WAIT holds it or a prefix is pending after it, and then it makes no
access to data or to a port. -/
theorem step_delimits (lines : Lines) :
    (step lines).Always cpu fun calls segment after =>
      segment.busy = (lines.wait || after.pending.isSome) ∧
        (segment.busy = true → ∀ call ∈ calls, call.isAccess = false) := by
  rw [always_step]
  cases held : lines.wait with
  | true =>
    have turn : (cpu.ready lines).turn lines = .stall := Cpu.turn_eq_stall_iff.mpr held
    simp [turn, perform]
  | false =>
    refine (perform_delimits (cpu.ready lines) cpu.looping held).mono ?_
    intro calls segment after delimits
    exact ⟨by simpa [Cpu.endStep] using delimits.busy, delimits.untouched⟩
end Exec

end Z80
