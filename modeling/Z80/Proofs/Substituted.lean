import Z80.Proofs.Restart
import Z80.Proofs.Unread

/-!
# Going on from replaced registers

A bus may put another value to work than a register holds. An instruction that steps the register
goes on from that value: it does what it would do if the register had held the value, the replaced
value is used throughout, and what the register did hold leaves no trace.

## Main definitions

* `Answers`, `Bus.answering`: a bus that answers the questions in a fixed way
* `Substitution`: values for the registers that an instruction steps
* `Cpu.holding`: the processor whose registers hold these values
* `Exec.Echoes`: what a computation shows with the values given by the bus, it shows again with the
  values in the registers

## Main results

* `Exec.Echoes.bind`: the rule for sequences
* `Substitution.takesUp_execute`: each instruction that steps the registers goes on from the values
* `Exec.substituted_runs`: so do interrupts, and whole runs up to the next boundary
-/

namespace Z80

open Exec

/-! ### Answers -/

/-- What a bus answers to questions about register values. -/
structure Answers where
  pointer : Source → Word → Word := fun _ value => value
  byteValue : Source → Byte → Byte := fun _ value => value
  pairValue : Source → Word → Word := fun _ value => value
  portAddress : Source → Word → Word := fun _ value => value

/-- Every register value stands. -/
def Answers.standing : Answers := {}

/-- The bus with its questions answered in a fixed way. -/
def Bus.answering {σ : Type} (bus : Bus σ) (answers : Answers) : Bus σ :=
  { bus with
    pointer := fun source value device => (answers.pointer source value, device)
    byteValue := fun source value device => (answers.byteValue source value, device)
    pairValue := fun source value device => (answers.pairValue source value, device)
    portAddress := fun source value device => (answers.portAddress source value, device) }

/-- The call asks about a register value. -/
def Exchange.asks : Exchange → Bool
  | ⟨.pointer _ _, _⟩ | ⟨.byteValue _ _, _⟩ | ⟨.pairValue _ _, _⟩ | ⟨.portAddress _ _, _⟩ => true
  | _ => false

/-- The calls that do not ask about register values. -/
def unasked (calls : List Exchange) : List Exchange := calls.filter fun call => !call.asks

@[simp] theorem unasked_append (calls more : List Exchange) :
    unasked (calls ++ more) = unasked calls ++ unasked more := List.filter_append ..

/-! ### Substitutions -/

/-- Values for the registers that an instruction steps. -/
inductive Substitution where
  /-- For SP, in a push or a pop. -/
  | stack (sp : Word)
  /-- For B, in DJNZ. -/
  | counter (b : Byte)
  /-- For HL, DE and BC, in one step of a block transfer. -/
  | transfer (hl de bc : Word)
  /-- For HL and BC, in one step of a block compare. -/
  | comparison (hl bc : Word)

namespace Instruction

/-- The instruction pushes or pops. A conditional call or return only does so if it is taken. -/
def usesStack (taken : Bool) : Instruction → Bool
  | .main _ (.push _) | .main _ (.pop _) | .main _ .call | .main _ (.restart _) | .main _ .ret
  | .extended (.returnFromInterrupt _) => true
  | .main _ (.callIf _) | .main _ (.returnIf _) => taken
  | _ => false

/-- The instruction is DJNZ. -/
def countsAndJumps : Instruction → Bool
  | .main _ .countAndJump => true
  | _ => false

/-- What one step of a block instruction does. -/
def blockAction? : Instruction → Option BlockAction
  | .extended (.block operation) => some operation.action
  | _ => none

theorem exists_block {instruction : Instruction} {action : BlockAction}
    (found : instruction.blockAction? = some action) :
    ∃ operation, instruction = .extended (.block operation) ∧ operation.action = action := by
  cases instruction with
  | extended extended =>
    cases extended with
    | block operation => exact ⟨operation, rfl, Option.some.inj found⟩
    | _ => cases found
  | _ => cases found

end Instruction

namespace Substitution

/-- What the bus answers. -/
def answers : Substitution → Answers
  | .stack sp =>
    { pointer := fun source value =>
        match source with
        | .sp => sp
        | _ => value }
  | .counter b =>
    { byteValue := fun source value =>
        match source with
        | .b => b
        | _ => value }
  | .transfer hl de bc =>
    { pointer := fun source value =>
        match source with
        | .hl => hl
        | .de => de
        | _ => value
      pairValue := fun source value =>
        match source with
        | .bc => bc
        | _ => value }
  | .comparison hl bc =>
    { pointer := fun source value =>
        match source with
        | .hl => hl
        | _ => value
      pairValue := fun source value =>
        match source with
        | .bc => bc
        | _ => value }

/-- The registers with the values in them. -/
def hold (regs : Registers) : Substitution → Registers
  | .stack sp => { regs with sp }
  | .counter b => regs.setReg .hl .b b
  | .transfer hl de bc => ((regs.setHL hl).setDE de).setBC bc
  | .comparison hl bc => (regs.setHL hl).setBC bc

/-- The values are for interrupts that push the program counter. -/
def isStack : Substitution → Bool
  | .stack _ => true
  | _ => false

/-- The values are for the registers that the instruction steps. -/
def steps (values : Substitution) (instruction : Instruction) (taken : Bool) : Bool :=
  match values with
  | .stack _ => instruction.usesStack taken
  | .counter _ => instruction.countsAndJumps
  | .transfer _ _ _ => instruction.blockAction? == some .transfer
  | .comparison _ _ => instruction.blockAction? == some .compare

/-- The values are for what happened in the segment. -/
def serves (values : Substitution) : Segment → Bool
  | .nonMaskable | .restarted | .vectored => values.isStack
  | .instruction page opcode taken =>
    (page.role opcode).instruction?.any fun instruction => values.steps instruction taken
  | .injected opcode taken =>
    (Page.main.role opcode).instruction?.any fun instruction => values.steps instruction taken
  | _ => false

end Substitution

/-- The processor whose registers hold the values. -/
def Cpu.holding (cpu : Cpu) (values : Substitution) : Cpu :=
  cpu.updateRegisters fun regs => values.hold regs

section Held

variable (regs : Registers) (hl de bc : Word) (b : Byte)

theorem Substitution.hl_hold_transfer :
    ((Substitution.transfer hl de bc).hold regs).sourceValue .hl = hl :=
  General.hl_setHL regs.general hl

theorem Substitution.de_hold_transfer :
    ((Substitution.transfer hl de bc).hold regs).sourceValue .de = de :=
  General.de_setDE (regs.general.setHL hl) de

theorem Substitution.hl_hold_comparison :
    ((Substitution.comparison hl bc).hold regs).sourceValue .hl = hl :=
  General.hl_setHL regs.general hl

theorem Substitution.b_hold_counter :
    Word.low (((Substitution.counter b).hold regs).sourceValue .b) = b := Word.low_ofBytes 0 b

end Held

/-! ### Two runs -/

namespace Exec

variable {α β σ : Type}

/-- What the computation shows on a bus that gives the answers, it shows again, from a processor
changed before, where every value stands. In the end the processors differ by the change after. -/
structure Echoes (answers : Answers) (before after : Cpu → Cpu) (program : Exec α) (bus : Bus σ)
    (cpu : Cpu) (device : σ) : Prop where
  run :
    let run := runOn program (bus.answering answers) cpu device
    runOn program (bus.answering .standing) (before cpu) device =
      { run with cpu := after run.cpu }
  calls : unasked (callsOn program (bus.answering .standing) (before cpu) device) =
    unasked (callsOn program (bus.answering answers) cpu device)

section Rules

variable {answers : Answers} {before between after : Cpu → Cpu} {program : Exec α} {bus : Bus σ}
  {cpu : Cpu} {device : σ}

theorem Echoes.bind {next : α → Exec β}
    (first : Echoes answers before between program bus cpu device)
    (rest :
      let run := runOn program (bus.answering answers) cpu device
      Echoes answers between after (next run.value) bus run.cpu run.device) :
    Echoes answers before after (program >>= next) bus cpu device := by
  constructor
  · simp only [runOn_bind, first.run]
    exact rest.run
  · simp only [callsOn_bind, first.run, unasked_append, first.calls]
    rw [rest.calls]

/-- Whatever the first part gives, the rest goes on from it. -/
theorem Echoes.andThen {next : α → Exec β}
    (first : Echoes answers before between program bus cpu device)
    (rest : ∀ value cpu device, Echoes answers between after (next value) bus cpu device) :
    Echoes answers before after (program >>= next) bus cpu device :=
  first.bind (rest ..)

/-- The registers may be looked at where the change does not show. -/
theorem Echoes.registers_bind {next : Registers → Exec β}
    (unseen : next (before cpu).registers = next cpu.registers)
    (rest : Echoes answers before after (next cpu.registers) bus cpu device) :
    Echoes answers before after (registers >>= next) bus cpu device := by
  constructor
  · simp only [runOn_bind, runOn_registers, unseen]
    exact rest.run
  · simp only [callsOn_bind, runOn_registers, callsOn_registers, unseen, unasked_append, rest.calls]

theorem echoes_pure (value : α) : Echoes answers after after (pure value) bus cpu device :=
  ⟨rfl, rfl⟩

theorem echoes_modify {change : Cpu → Cpu} (same : change (before cpu) = after (change cpu)) :
    Echoes answers before after (modify change) bus cpu device :=
  ⟨congrArg (Result.mk () · device) same, rfl⟩

/-- Once the values are taken up, changes of the processor do not tell the runs apart. -/
theorem settled_modify (change : Cpu → Cpu) :
    Echoes answers id id (modify change) bus cpu device := ⟨rfl, rfl⟩

/-- The bus serves all that is no question alike. -/
theorem echoes_read (address : Word) : Echoes answers after after (read address) bus cpu device :=
  ⟨rfl, rfl⟩

theorem echoes_write (address : Word) (value : Byte) :
    Echoes answers after after (write address value) bus cpu device := ⟨rfl, rfl⟩

theorem echoes_acknowledge (kind : Acknowledgement) :
    Echoes answers after after (acknowledge kind) bus cpu device := ⟨rfl, rfl⟩

theorem echoes_dataLines : Echoes answers after after dataLines bus cpu device := ⟨rfl, rfl⟩

/-- A question is answered by what the changed register holds. -/
theorem echoes_pointer {source : Source}
    (held : (before cpu).registers.sourceValue source =
      answers.pointer source (cpu.registers.sourceValue source)) :
    Echoes answers before before (pointer source) bus cpu device :=
  ⟨congrArg (Result.mk · (before cpu) device) held, rfl⟩

theorem echoes_pairValue {source : Source}
    (held : (before cpu).registers.sourceValue source =
      answers.pairValue source (cpu.registers.sourceValue source)) :
    Echoes answers before before (pairValue source) bus cpu device :=
  ⟨congrArg (Result.mk · (before cpu) device) held, rfl⟩

theorem echoes_byteValue {source : Source}
    (held : Word.low ((before cpu).registers.sourceValue source) =
      answers.byteValue source (Word.low (cpu.registers.sourceValue source))) :
    Echoes answers before before (byteValue source) bus cpu device :=
  ⟨congrArg (Result.mk · (before cpu) device) held, rfl⟩

/-- A branch that was taken matters, and the other one does not. -/
theorem Echoes.branch {body : Exec Unit} {condition : Bool}
    (echoes : Echoes answers before after body bus cpu device)
    (taken : (runOn (if condition = true then do body; return true else return false)
      (bus.answering answers) cpu device).value = true) :
    Echoes answers before after (if condition = true then do body; return true else return false)
      bus cpu device := by
  cases condition with
  | true => exact echoes.bind (echoes_pure true)
  | false => cases taken

theorem echoes_rewind (repeating : Bool) :
    Echoes answers id id (BlockOperation.rewind repeating) bus cpu device := by
  cases repeating <;> exact ⟨rfl, rfl⟩

end Rules

/-- A part that touches none of the replaced registers passes the values on. -/
abbrev Passes (values : Substitution) (program : Exec α) (bus : Bus σ) (cpu : Cpu) (device : σ) :
    Prop :=
  Echoes values.answers (·.holding values) (·.holding values) program bus cpu device

/-- A part that steps the replaced registers takes up the values. -/
abbrev TakesUp (values : Substitution) (program : Exec α) (bus : Bus σ) (cpu : Cpu) (device : σ) :
    Prop :=
  Echoes values.answers (·.holding values) id program bus cpu device

section Parts

variable (values : Substitution) (bus : Bus σ) (cpu : Cpu) (device : σ)

theorem passes_fetches :
    Passes values fetchOpcode bus cpu device ∧ Passes values fetchOperand bus cpu device ∧
      Passes values fetchWord bus cpu device := by
  cases values <;> exact ⟨⟨rfl, rfl⟩, ⟨rfl, rfl⟩, rfl, rfl⟩

theorem passes_flags : Passes values flags bus cpu device := by
  cases values <;> exact ⟨rfl, rfl⟩

theorem passes_latch (address : Word) : Passes values (latch address) bus cpu device := by
  cases values <;> exact ⟨rfl, rfl⟩

variable (sp : Word)

theorem takesUp_pushWord (value : Word) :
    TakesUp (.stack sp) (pushWord value) bus cpu device := ⟨rfl, rfl⟩

theorem takesUp_popWord : TakesUp (.stack sp) popWord bus cpu device := ⟨rfl, rfl⟩

theorem takesUp_callTo (target : Word) : TakesUp (.stack sp) (callTo target) bus cpu device :=
  .registers_bind rfl (.bind (takesUp_pushWord bus cpu device sp _) ⟨rfl, rfl⟩)

theorem takesUp_returnToCaller : TakesUp (.stack sp) returnToCaller bus cpu device :=
  .bind (takesUp_popWord bus cpu device sp) ⟨rfl, rfl⟩

theorem takesUp_interruptTo (target : Word) :
    TakesUp (.stack sp) (interruptTo target) bus cpu device :=
  .registers_bind rfl (.bind (takesUp_pushWord bus cpu device sp _) ⟨rfl, rfl⟩)

theorem takesUp_jumpThroughTable : TakesUp (.stack sp) jumpThroughTable bus cpu device :=
  .bind echoes_dataLines
    (.registers_bind rfl (.bind (takesUp_pushWord bus cpu _ sp _) ⟨rfl, rfl⟩))

/-- BC is counted down from the value that the bus gives. -/
theorem echoes_countPair {answers : Answers} {bc : Word}
    (given : ∀ value, answers.pairValue .bc value = bc) :
    Echoes answers (·.updateRegisters (·.setBC bc)) id BlockOperation.countPair bus cpu device := by
  refine .bind (echoes_pairValue ?_) (.bind (echoes_modify rfl) (echoes_pure _))
  rw [given]
  exact General.bc_setBC ..

section Blocks

variable (hl de bc address : Word) (operation : BlockOperation)

/-- HL and DE are stepped first, and then only BC is still to be taken up. -/
theorem takesUp_transfer :
    TakesUp (.transfer hl de bc) (operation.transfer address) bus cpu device := by
  refine .andThen (echoes_read _) fun value cpu device => ?_
  refine .andThen (echoes_pointer (Substitution.de_hold_transfer ..)) fun target cpu device => ?_
  refine .andThen (echoes_write ..) fun _ cpu device => ?_
  have stepped : Echoes (Substitution.transfer hl de bc).answers (·.holding (.transfer hl de bc))
      (·.updateRegisters (·.setBC bc))
      (updateRegisters fun regs =>
        (regs.setHL (operation.advance address)).setDE (operation.advance target))
      bus cpu device := echoes_modify rfl
  refine .andThen stepped fun _ cpu device => ?_
  refine .andThen (echoes_countPair _ _ _ fun _ => rfl) fun count cpu device => ?_
  exact .andThen (echoes_rewind _) fun rewound cpu device => ⟨rfl, rfl⟩

theorem takesUp_compare :
    TakesUp (.comparison hl bc) (operation.compare address) bus cpu device := by
  refine .andThen (echoes_read _) fun value cpu device => ?_
  have stepped : Echoes (Substitution.comparison hl bc).answers (·.holding (.comparison hl bc))
      (·.updateRegisters (·.setBC bc)) (updateRegisters (·.setHL (operation.advance address)))
      bus cpu device := echoes_modify rfl
  refine .andThen stepped fun _ cpu device => ?_
  refine .andThen (echoes_countPair _ _ _ fun _ => rfl) fun count cpu device => ?_
  refine .andThen (settled_modify _) fun _ cpu device => ?_
  refine .registers_bind rfl ?_
  exact .andThen (echoes_rewind _) fun rewound cpu device => ⟨rfl, rfl⟩

end Blocks

/-- DJNZ counts down from the value that the bus gives, and jumps as it counts. -/
theorem takesUp_countAndJump (b : Byte) (index : Index) :
    TakesUp (.counter b) (Operation.countAndJump.execute index) bus cpu device := by
  refine .andThen (passes_fetches ..).2.1 fun offset cpu device => ?_
  refine .andThen (echoes_byteValue (Substitution.b_hold_counter ..)) fun value cpu device => ?_
  have stepped : Echoes (Substitution.counter b).answers (·.holding (.counter b)) id
      (updateRegisters (·.setReg .hl .b (value - 1))) bus cpu device := echoes_modify rfl
  refine .andThen stepped fun _ cpu device => ?_
  split <;> exact ⟨rfl, rfl⟩

end Parts

end Exec

/-! ### Instructions -/

namespace Substitution

variable {σ : Type} (bus : Bus σ) (cpu : Cpu) (device : σ) {instruction : Instruction}
  {offset : Byte}

theorem takesUp_stack (sp : Word)
    (steps : (stack sp).steps instruction (runOn (instruction.execute offset)
      (bus.answering (stack sp).answers) cpu device).value = true) :
    TakesUp (stack sp) (instruction.execute offset) bus cpu device := by
  cases instruction with
  | main index operation =>
    cases operation with
    | push pair =>
      have unseen : ((cpu.holding (stack sp)).registers.stackPair index pair) =
          cpu.registers.stackPair index pair := by
        cases pair <;> cases index <;> rfl
      exact .andThen (.registers_bind (congrArg pushWord unseen) (takesUp_pushWord ..)) fun _ _ _ =>
        echoes_pure _
    | pop pair =>
      exact .andThen (.andThen (takesUp_popWord ..) fun _ _ _ => settled_modify _) fun _ _ _ =>
        echoes_pure _
    | call =>
      exact .andThen (.andThen (passes_fetches ..).2.2 fun _ _ _ =>
        .andThen (passes_latch ..) fun _ _ _ => takesUp_callTo ..) fun _ _ _ => echoes_pure _
    | restart number =>
      exact .andThen (.andThen (takesUp_callTo ..) fun _ _ _ => settled_modify _) fun _ _ _ =>
        echoes_pure _
    | ret => exact .andThen (takesUp_returnToCaller ..) fun _ _ _ => echoes_pure _
    -- The flags are tested before the stack is touched, and they hold none of the values.
    | callIf condition =>
      simp only [Substitution.steps, Instruction.usesStack, Instruction.execute, Operation.execute,
        runOn_bind] at steps
      exact .bind (passes_fetches ..).2.2 (.bind (passes_latch ..)
        (.bind (passes_flags ..) (.branch (takesUp_callTo ..) steps)))
    | returnIf condition =>
      simp only [Substitution.steps, Instruction.usesStack, Instruction.execute, Operation.execute,
        runOn_bind] at steps
      exact .bind (passes_flags ..) (.branch (takesUp_returnToCaller ..) steps)
    | _ => cases steps
  | extended operation =>
    cases operation with
    | returnFromInterrupt told =>
      refine .andThen (.andThen (takesUp_returnToCaller ..) fun _ _ _ =>
        .andThen (settled_modify _) fun _ cpu device => ?_) fun _ _ _ => echoes_pure _
      cases told <;> exact ⟨rfl, rfl⟩
    | _ => cases steps
  | bits | indexedBits => cases steps

theorem takesUp_block {values : Substitution} (operation : BlockOperation)
    (pointed : ∀ regs : Registers, (values.hold regs).sourceValue .hl =
      values.answers.pointer .hl (regs.sourceValue .hl))
    (acts : ∀ address cpu device, TakesUp values (operation.act address) bus cpu device) :
    TakesUp values operation.execute bus cpu device := by
  refine .andThen (echoes_pointer (pointed _)) fun address cpu device => ?_
  refine .andThen (acts ..) fun repeating cpu device => ?_
  exact .andThen (settled_modify _) fun _ _ _ => echoes_pure _

/-- An instruction that steps the registers goes on from the values. -/
theorem takesUp_execute (values : Substitution)
    (steps : values.steps instruction (runOn (instruction.execute offset)
      (bus.answering values.answers) cpu device).value = true) :
    TakesUp values (instruction.execute offset) bus cpu device := by
  cases values with
  | stack sp => exact takesUp_stack bus cpu device sp steps
  | counter b =>
    cases instruction with
    | main index operation =>
      cases operation with
      | countAndJump => exact takesUp_countAndJump bus cpu device b index
      | _ => cases steps
    | extended | bits | indexedBits => cases steps
  | transfer hl de bc =>
    obtain ⟨operation, rfl, action⟩ := Instruction.exists_block (beq_iff_eq.mp steps)
    refine takesUp_block bus cpu device operation (fun regs => hl_hold_transfer ..) ?_
    intro address cpu device
    rw [BlockOperation.act, action]
    exact takesUp_transfer ..
  | comparison hl bc =>
    obtain ⟨operation, rfl, action⟩ := Instruction.exists_block (beq_iff_eq.mp steps)
    refine takesUp_block bus cpu device operation (fun regs => hl_hold_comparison ..) ?_
    intro address cpu device
    rw [BlockOperation.act, action]
    exact takesUp_compare ..

end Substitution

/-! ### Steps -/

/-- A segment that the values are for is the last of its instruction. -/
theorem Substitution.busy_of_serves (values : Substitution) {segment : Segment}
    (serves : values.serves segment = true) : segment.busy = false := by
  cases segment with
  | stalled | selector | injectedSelector => cases serves
  | _ => rfl

/-- The processor behind a segment: if the instruction is still to come, the registers hold the
values. -/
def Cpu.behind (cpu : Cpu) (values : Substitution) (segment : Segment) : Cpu :=
  if segment.busy then cpu.holding values else cpu

namespace Exec

variable {α σ : Type}

/-- A computation that comes to a segment takes up the values, or passes them on if the instruction
is still to come. -/
structure CarriesOn (values : Substitution) (program : Exec Segment) (bus : Bus σ) (cpu : Cpu)
    (device : σ) : Prop where
  echoes :
    let segment := (runOn program (bus.answering values.answers) cpu device).value
    (segment.busy || values.serves segment) = true →
      Echoes values.answers (·.holding values) (·.behind values segment) program bus cpu device

section Rules

variable {values : Substitution} {program : Exec α} {bus : Bus σ} {cpu : Cpu} {device : σ}

theorem CarriesOn.bind {next : α → Exec Segment}
    (first : Passes values program bus cpu device)
    (rest :
      let run := runOn program (bus.answering values.answers) cpu device
      CarriesOn values (next run.value) bus run.cpu run.device) :
    CarriesOn values (program >>= next) bus cpu device := by
  constructor
  intro segment wanted
  simp only [segment, runOn_bind] at wanted ⊢
  exact first.bind (rest.echoes wanted)

theorem CarriesOn.andThen {next : α → Exec Segment}
    (first : Passes values program bus cpu device)
    (rest : ∀ value cpu device, CarriesOn values (next value) bus cpu device) :
    CarriesOn values (program >>= next) bus cpu device :=
  .bind first (rest ..)

theorem CarriesOn.registers_bind {next : Registers → Exec Segment}
    (unseen : next (cpu.holding values).registers = next cpu.registers)
    (rest : CarriesOn values (next cpu.registers) bus cpu device) :
    CarriesOn values (registers >>= next) bus cpu device :=
  ⟨fun wanted => .registers_bind unseen (rest.echoes wanted)⟩

/-- The instruction is still to come. -/
theorem carriesOn_busy {segment : Segment} (busy : segment.busy = true) :
    CarriesOn values (pure segment) bus cpu device := by
  constructor
  intro reached wanted
  simp only [reached, runOn_pure, Cpu.behind, busy, if_true]
  exact echoes_pure segment

/-- With the values taken up, the segment is complete. -/
theorem TakesUp.carriesOn {segment : α → Segment} (complete : ∀ value, (segment value).busy = false)
    (takesUp :
      let run := runOn program (bus.answering values.answers) cpu device
      values.serves (segment run.value) = true → TakesUp values program bus cpu device) :
    CarriesOn values (program >>= fun value => pure (segment value)) bus cpu device := by
  constructor
  intro reached wanted
  simp only [reached, runOn_bind, runOn_pure, Cpu.behind, complete, Bool.false_or] at wanted ⊢
  exact .andThen (takesUp wanted) fun _ _ _ => echoes_pure _

end Rules

variable (values : Substitution) (bus : Bus σ) (cpu : Cpu) (device : σ)

theorem decode_carriesOn (page : Page) (offset opcode : Byte) :
    CarriesOn values (decode page offset opcode) bus cpu device := by
  unfold decode
  cases role : page.role opcode with
  | selector => exact .andThen (echoes_modify rfl) fun _ _ _ => carriesOn_busy rfl
  | instruction instruction =>
    refine .andThen (echoes_modify rfl) fun _ cpu device => TakesUp.carriesOn (fun _ => rfl) ?_
    intro run serves
    simp only [Substitution.serves, role, Role.instruction?, Option.any_some] at serves
    exact values.takesUp_execute bus cpu device serves

theorem fetch_carriesOn (page : Page) : CarriesOn values (fetch page) bus cpu device := by
  cases order : page.displacementFirst with
  | true =>
    rw [fetch_of_displaced order]
    exact .andThen (passes_fetches ..).2.1 fun offset _ _ => .andThen (passes_fetches ..).2.1
      fun opcode _ _ => decode_carriesOn ..
  | false =>
    by_cases main : page = .main
    · rw [main, fetch_main]
      exact .andThen (echoes_modify rfl) fun _ _ _ => .andThen (passes_fetches ..).1
        fun opcode _ _ => decode_carriesOn ..
    · rw [fetch_of_plain order main]
      exact .andThen (passes_fetches ..).1 fun opcode _ _ => decode_carriesOn ..

theorem inject_carriesOn : CarriesOn values inject bus cpu device := by
  refine .andThen echoes_dataLines fun opcode cpu device => ?_
  refine .andThen (echoes_modify rfl) fun _ cpu device => ?_
  cases role : Page.main.role opcode with
  | selector => exact .andThen (echoes_modify rfl) fun _ _ _ => carriesOn_busy rfl
  | instruction instruction =>
    refine .andThen (echoes_modify rfl) fun _ cpu device => TakesUp.carriesOn (fun _ => rfl) ?_
    intro run serves
    simp only [Substitution.serves, role, Role.instruction?, Option.any_some] at serves
    exact values.takesUp_execute bus cpu device serves

theorem answer_carriesOn (mode : InterruptMode) :
    CarriesOn values (answer mode) bus cpu device := by
  cases mode with
  | injected => exact inject_carriesOn values bus cpu device
  | restart =>
    refine TakesUp.carriesOn (fun _ => rfl) fun serves => ?_
    cases values with
    | stack sp => exact takesUp_interruptTo ..
    | _ => cases serves
  | vectored =>
    constructor
    intro segment wanted
    cases values with
    | stack sp => exact takesUp_jumpThroughTable ..
    | _ => cases wanted

/-- The changes that are common to all acknowledgements leave the values where they are. -/
theorem passes_acknowledged (looping : Bool) :
    Passes values (modify (·.acknowledged looping)) bus cpu device := by
  apply echoes_modify
  cases values <;> rfl

theorem acknowledgeNonMaskable_carriesOn (looping : Bool) :
    CarriesOn values (acknowledgeNonMaskable looping) bus cpu device := by
  refine .andThen (echoes_modify rfl) fun _ cpu device => ?_
  refine .andThen (echoes_acknowledge _) fun _ cpu device => ?_
  refine .andThen (passes_acknowledged ..) fun _ cpu device => ?_
  refine .andThen (echoes_modify ?_) fun _ cpu device => ?_
  · cases values <;> rfl
  refine TakesUp.carriesOn (fun _ => rfl) fun serves => ?_
  cases values with
  | stack sp => exact takesUp_interruptTo ..
  | _ => cases serves

theorem acknowledgeMaskable_carriesOn (looping : Bool) :
    CarriesOn values (acknowledgeMaskable looping) bus cpu device := by
  refine .registers_bind ?_ ?_
  · cases values <;> rfl
  refine .andThen (echoes_acknowledge _) fun _ cpu device => ?_
  refine .andThen (passes_acknowledged ..) fun _ cpu device => ?_
  refine .andThen (echoes_modify ?_) fun _ cpu device => ?_
  · cases values <;> rfl
  exact answer_carriesOn ..

/-- Whatever a step has to do, it carries on with the values. -/
theorem perform_carriesOn (looping : Bool) (turn : Turn) :
    CarriesOn values (perform looping turn) bus cpu device := by
  cases turn with
  | stall => exact carriesOn_busy rfl
  | proceed page => exact fetch_carriesOn values bus cpu device page
  | nonMaskable => exact acknowledgeNonMaskable_carriesOn values bus cpu device looping
  | maskable => exact acknowledgeMaskable_carriesOn values bus cpu device looping
  | begin => exact .andThen (echoes_modify rfl) fun _ _ _ => fetch_carriesOn ..
  -- These complete a segment that no values are for.
  | reset | idle => exact ⟨nofun⟩

theorem turn_holding (lines : Lines) : (cpu.holding values).turn lines = cpu.turn lines := by
  cases values <;> rfl

theorem step_carriesOn (lines : Lines) : CarriesOn values (step lines) bus cpu device := by
  constructor
  intro segment wanted
  have ready : (cpu.holding values).ready lines = (cpu.ready lines).holding values := rfl
  have looping : (cpu.holding values).looping = cpu.looping := rfl
  simp only [segment, runOn_step] at wanted ⊢
  obtain ⟨run, calls⟩ := (perform_carriesOn values bus (cpu.ready lines) device cpu.looping
    ((cpu.ready lines).turn lines)).echoes wanted
  constructor
  · simp only [runOn_step, ready, looping, turn_holding, run, Cpu.behind]
    split <;> rfl
  · simp only [callsOn_step, ready, looping, turn_holding, calls]

theorem getLast?_of_busy {segment last : Segment} {run : List Segment}
    (ends : (segment :: run).getLast? = some last) (busy : segment.busy = true)
    (serves : values.serves last = true) : run.getLast? = some last := by
  cases run with
  | nil =>
    obtain rfl := Option.some.inj ends
    exact absurd ((values.busy_of_serves serves).symm.trans busy) nofun
  | cons => exact ends

/-- The values wait until the segment that they are for. -/
theorem takesUp_segments (lines : Lines) (fuel : Nat) {last : Segment}
    (ends : (runOn (segments fuel lines) (bus.answering values.answers) cpu device).value.getLast? =
      some last)
    (serves : values.serves last = true) :
    TakesUp values (segments fuel lines) bus cpu device := by
  -- By induction on the steps left: each busy segment leaves the values in place for the next one.
  induction fuel generalizing cpu device with
  | zero => cases ends
  | succ fuel ih =>
    have stepped := (step_carriesOn values bus cpu device lines).echoes
    simp only [segments, runOn_bind] at ends
    cases busy : (runOn (step lines) (bus.answering values.answers) cpu device).value.busy with
    | true =>
      simp only [busy, Bool.true_or, forall_const, Cpu.behind, if_true] at stepped
      simp only [busy, if_true, runOn_bind, runOn_pure] at ends
      refine .bind stepped ?_
      simp only [busy, if_true]
      exact .andThen (ih _ _ (getLast?_of_busy values ends busy serves)) fun _ _ _ => echoes_pure _
    | false =>
      simp only [busy, Bool.false_eq_true, if_false, runOn_pure, List.getLast?_singleton,
        Option.some.injEq] at ends
      subst ends
      simp only [busy, Bool.false_or, Cpu.behind, Bool.false_eq_true, if_false] at stepped
      refine .bind (stepped serves) ?_
      simp only [busy, Bool.false_eq_true, if_false]
      exact echoes_pure _

/-- So does the time of the run. -/
theorem takesUp_nextInstruction (lines : Lines)
    (takesUp : TakesUp values (segments stepLimit (unheld lines)) bus cpu device) :
    TakesUp values (nextInstruction lines) bus cpu device := by
  rw [nextInstruction_eq]
  exact .andThen takesUp fun _ _ _ => echoes_pure _

/-- Where a bus gives fixed values for the registers that an instruction or an interrupt steps, a
step and a whole run up to the next boundary make the same calls, take the same path in the same
time and leave the same processor and the same device as where every value stands and the registers
hold these values from the beginning. The run gives its time if a count holds it. -/
theorem substituted_runs (lines : Lines) :
    let asking := bus.answering values.answers
    let plain := bus.answering .standing
    let held := cpu.holding values
    (values.serves (runOn (step lines) asking cpu device).value = true →
      runOn (step lines) plain held device = runOn (step lines) asking cpu device ∧
        unasked (callsOn (step lines) plain held device) =
          unasked (callsOn (step lines) asking cpu device)) ∧
    ∀ last,
      (runOn (segments stepLimit (unheld lines)) asking cpu device).value.getLast? = some last →
      values.serves last = true →
        (runOn (segments stepLimit (unheld lines)) plain held device).value =
            (runOn (segments stepLimit (unheld lines)) asking cpu device).value ∧
          (runOn (nextInstruction lines) asking cpu device).value =
            counted ((runOn (segments stepLimit (unheld lines)) asking cpu device).value.map
              Segment.tacts).sum ∧
          runOn (nextInstruction lines) plain held device =
            runOn (nextInstruction lines) asking cpu device ∧
          unasked (callsOn (nextInstruction lines) plain held device) =
            unasked (callsOn (nextInstruction lines) asking cpu device) := by
  intro asking plain held
  constructor
  · intro serves
    have complete := values.busy_of_serves serves
    have echoes := (step_carriesOn values bus cpu device lines).echoes
    simp only [asking] at serves complete
    simp only [serves, complete, Bool.or_true, forall_const, Cpu.behind, Bool.false_eq_true,
      if_false] at echoes
    exact ⟨echoes.run, echoes.calls⟩
  · intro last ends serves
    have complete := values.busy_of_serves serves
    have path := takesUp_segments values bus cpu device (unheld lines) stepLimit ends serves
    have whole := takesUp_nextInstruction values bus cpu device lines path
    refine ⟨congrArg Result.value path.run, ?_, whole.run, whole.calls⟩
    have stops : ended (runOn (segments stepLimit (unheld lines)) asking cpu device).value := by
      simp [ended, ends, complete]
    rw [nextInstruction_eq, runOn_bind, runOn_pure, if_pos stops]

/-- PUSH IX with another value for SP: the prefix byte comes first, and the push goes on from the
value. -/
theorem push_from_substituted_sp :
    let values := Substitution.stack 0x0001
    let cpu := Cpu.fresh.updateRegisters fun regs => { regs with ix := 0x1234, pc := 0x8000 }
    let board := Board.fresh.load 0x8000 [0xDD, 0xE5]
    let run := runOn (nextInstruction {}) (Board.bus.answering values.answers) cpu board
    run = runOn (nextInstruction {}) Board.bus (cpu.holding values) board ∧
      run.value = some 15 ∧ run.cpu.registers.sp = 0xFFFF ∧ run.device.peek 0xFFFF = 0x34 := by
  intro values cpu board run
  have path : (runOn (segments stepLimit (unheld {})) (Board.bus.answering values.answers) cpu
      board).value.getLast? = some (.instruction .ix 0xE5 false) := by
    decide +kernel
  obtain ⟨-, -, same, -⟩ := (substituted_runs values Board.bus cpu board {}).2 _ path (by decide)
  exact ⟨same.symm, by decide +kernel, by decide +kernel, by decide +kernel⟩

end Exec

end Z80
