import Z80.Cpu.Access

/-!
# What holds whatever the bus answers

A program is a tree of requests, so a statement about all buses is a statement about all branches
of the tree. `Always` says that a condition on the calls, on the value and on the processor holds
at the end of every branch. It goes through a computation one part after the other
(`Exec.always_bind`), and what always holds then holds on each bus (`Exec.Always.onBus`).

## Main definitions

* `Program.Always`, `Exec.Always`: a condition holds at the end of every branch

## Main results

* `Exec.always_bind`: the rule for sequences
* `Exec.Always.onBus`: from all branches to the run on a bus
-/

namespace Z80

namespace Program

variable {α β σ : Type}

/-- The condition holds of the calls and of the value of every branch of the program. -/
def Always : Program α → (List Exchange → α → Prop) → Prop
  | .done value, post => post [] value
  | .call request next, post =>
    ∀ answer, (next answer).Always fun calls => post (⟨request, answer⟩ :: calls)

theorem always_bind (program : Program α) (next : α → Program β)
    (post : List Exchange → β → Prop) :
    (program >>= next).Always post ↔
      program.Always fun calls value =>
        (next value).Always fun more result => post (calls ++ more) result := by
  induction program generalizing post with
  | done value => rfl
  | call request rest ih => simp only [call_bind, Always, ih, List.cons_append]

theorem Always.mono {program : Program α} {post wider : List Exchange → α → Prop}
    (always : program.Always post)
    (implies : ∀ calls value, post calls value → wider calls value) :
    program.Always wider := by
  induction program generalizing post wider with
  | done value => exact implies _ _ always
  | call request rest ih =>
    intro answer
    exact ih answer (always answer) fun calls value => implies _ value

theorem Always.and {program : Program α} {first second : List Exchange → α → Prop}
    (left : program.Always first) (right : program.Always second) :
    program.Always fun calls value => first calls value ∧ second calls value := by
  induction program generalizing first second with
  | done value => exact ⟨left, right⟩
  | call request rest ih =>
    intro answer
    exact ih answer (left answer) (right answer)

/-- Whatever is fixed beforehand can be fixed afterwards. -/
theorem always_forall {ι : Sort _} {program : Program α} {post : ι → List Exchange → α → Prop}
    (always : ∀ i, program.Always (post i)) :
    program.Always fun calls value => ∀ i, post i calls value := by
  induction program generalizing post with
  | done value => exact always
  | call request rest ih =>
    intro answer
    exact ih answer fun i => always i answer

@[simp] theorem always_true (program : Program α) : program.Always fun _ _ => True := by
  induction program with
  | done value => trivial
  | call request rest ih => exact fun answer => ih answer

/-- The branch that a bus picks is one of all branches. -/
theorem Always.onBus {program : Program α} {post : List Exchange → α → Prop}
    (always : program.Always post) (bus : Bus σ) (device : σ) :
    post (program.calls bus device) (program.run bus device).1 := by
  induction program generalizing post device with
  | done value => exact always
  | call request rest ih =>
    rw [calls_call, run_call]
    exact ih _ (always _) _

end Program

namespace Exec

variable {α β σ : Type}

/-- Started on a processor, the computation ends every branch so that the condition holds of the
calls, of the value and of the processor that it leaves. -/
def Always (program : Exec α) (cpu : Cpu) (post : List Exchange → α → Cpu → Prop) : Prop :=
  (program cpu).Always fun calls result => post calls result.1 result.2

section Rules

variable {program : Exec α} {cpu : Cpu} {first second post wider : List Exchange → α → Cpu → Prop}

theorem Always.mono (always : program.Always cpu post)
    (implies : ∀ calls value after, post calls value after → wider calls value after) :
    program.Always cpu wider :=
  Program.Always.mono always fun calls result => implies calls result.1 result.2

theorem Always.and (left : program.Always cpu first) (right : program.Always cpu second) :
    program.Always cpu fun calls value after =>
      first calls value after ∧ second calls value after :=
  Program.Always.and left right

theorem always_forall {ι : Sort _} {post : ι → List Exchange → α → Cpu → Prop}
    (always : ∀ i, program.Always cpu (post i)) :
    program.Always cpu fun calls value after => ∀ i, post i calls value after :=
  Program.always_forall always

/-- What always holds, holds of the run on each bus. -/
theorem Always.onBus (always : program.Always cpu post) (bus : Bus σ) (device : σ) :
    post (program.callsOn bus cpu device) (program.runOn bus cpu device).value
      (program.runOn bus cpu device).cpu :=
  Program.Always.onBus always bus device

end Rules

section Steps

variable (cpu : Cpu)

@[simp] theorem always_true (program : Exec α) : Always program cpu fun _ _ _ => True :=
  Program.always_true (program cpu)

@[simp] theorem always_pure (value : α) (post : List Exchange → α → Cpu → Prop) :
    Always (pure value) cpu post ↔ post [] value cpu := Iff.rfl

@[simp] theorem always_bind (program : Exec α) (next : α → Exec β)
    (post : List Exchange → β → Cpu → Prop) :
    Always (program >>= next) cpu post ↔
      Always program cpu fun calls value cpu =>
        Always (next value) cpu fun more result cpu => post (calls ++ more) result cpu :=
  Program.always_bind (program cpu) (fun first => next first.1 first.2) _

@[simp] theorem always_map (change : α → β) (program : Exec α)
    (post : List Exchange → β → Cpu → Prop) :
    Always (change <$> program) cpu post ↔
      Always program cpu fun calls value => post calls (change value) := by
  simp only [map_eq_pure_bind, always_bind, always_pure, List.append_nil]

@[simp] theorem always_get (post : List Exchange → Cpu → Cpu → Prop) :
    Always get cpu post ↔ post [] cpu cpu := Iff.rfl

@[simp] theorem always_modify (change : Cpu → Cpu) (post : List Exchange → Unit → Cpu → Prop) :
    Always (modify change) cpu post ↔ post [] () (change cpu) := Iff.rfl

@[simp] theorem always_registers (post : List Exchange → Registers → Cpu → Prop) :
    Always registers cpu post ↔ post [] cpu.registers cpu := Iff.rfl

@[simp] theorem always_updateRegisters (change : Registers → Registers)
    (post : List Exchange → Unit → Cpu → Prop) :
    Always (updateRegisters change) cpu post ↔ post [] () (cpu.updateRegisters change) := Iff.rfl

@[simp] theorem always_ite (condition : Prop) [Decidable condition] (first second : Exec α)
    (post : List Exchange → α → Cpu → Prop) :
    Always (if condition then first else second) cpu post ↔
      (condition → Always first cpu post) ∧ (¬ condition → Always second cpu post) := by
  split <;> simp [*]

@[simp] theorem always_readFor (access : Access) (address : Word)
    (post : List Exchange → Byte → Cpu → Prop) :
    Always (readFor access address) cpu post ↔
      ∀ byte : Byte, post [⟨.read address access, byte⟩] byte cpu := Iff.rfl

@[simp] theorem always_write (address : Word) (value : Byte)
    (post : List Exchange → Unit → Cpu → Prop) :
    Always (write address value) cpu post ↔ post [⟨.write address value, ()⟩] () cpu :=
  ⟨fun always => always (), fun holds _ => holds⟩

@[simp] theorem always_input (port : Word) (post : List Exchange → Byte → Cpu → Prop) :
    Always (input port) cpu post ↔ ∀ byte : Byte, post [⟨.input port, byte⟩] byte cpu := Iff.rfl

@[simp] theorem always_output (port : Word) (value : Byte)
    (post : List Exchange → Unit → Cpu → Prop) :
    Always (output port value) cpu post ↔ post [⟨.output port value, ()⟩] () cpu :=
  ⟨fun always => always (), fun holds _ => holds⟩

@[simp] theorem always_dataLines (post : List Exchange → Byte → Cpu → Prop) :
    Always dataLines cpu post ↔ ∀ byte : Byte, post [⟨.dataLines, byte⟩] byte cpu := Iff.rfl

@[simp] theorem always_noteReturn (post : List Exchange → Unit → Cpu → Prop) :
    Always noteReturn cpu post ↔ post [⟨.returned, ()⟩] () cpu :=
  ⟨fun always => always (), fun holds _ => holds⟩

@[simp] theorem always_acknowledge (kind : Acknowledgement)
    (post : List Exchange → Unit → Cpu → Prop) :
    Always (acknowledge kind) cpu post ↔ post [⟨.acknowledge kind, ()⟩] () cpu :=
  ⟨fun always => always (), fun holds _ => holds⟩

@[simp] theorem always_pointerFor (source : Source) (value : Word)
    (post : List Exchange → Word → Cpu → Prop) :
    Always (pointerFor source value) cpu post ↔
      ∀ word : Word, post [⟨.pointer source value, word⟩] word cpu := Iff.rfl

@[simp] theorem always_byteFor (source : Source) (value : Byte)
    (post : List Exchange → Byte → Cpu → Prop) :
    Always (byteFor source value) cpu post ↔
      ∀ byte : Byte, post [⟨.byteValue source value, byte⟩] byte cpu := Iff.rfl

@[simp] theorem always_pairFor (source : Source) (value : Word)
    (post : List Exchange → Word → Cpu → Prop) :
    Always (pairFor source value) cpu post ↔
      ∀ word : Word, post [⟨.pairValue source value, word⟩] word cpu := Iff.rfl

@[simp] theorem always_portFor (source : Source) (value : Word)
    (post : List Exchange → Word → Cpu → Prop) :
    Always (portFor source value) cpu post ↔
      ∀ word : Word, post [⟨.portAddress source value, word⟩] word cpu := Iff.rfl

end Steps

end Exec

end Z80
