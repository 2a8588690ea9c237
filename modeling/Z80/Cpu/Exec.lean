import Z80.Bus.Program
import Z80.Cpu

/-!
# Computing on a processor and its bus

Instructions are computations that change a processor and call its bus. On a particular bus a
computation gives a value and leaves a processor and a device, and the calls that it made can be
listed. Both go through a computation one part after the other (`runOn_bind`, `callsOn_bind`).

## Main definitions

* `Exec`: computations on a processor and a bus
* `Exec.runOn`, `Exec.callsOn`: what a computation does on a bus
-/

namespace Z80

/-- A computation that changes a processor and calls its bus. -/
abbrev Exec := StateT Cpu Program

/-- What a computation gives, and the processor and the device that it leaves. -/
structure Result (σ α : Type) where
  value : α
  cpu : Cpu
  device : σ

namespace Exec

variable {α β σ : Type}

/-- Call the bus. -/
def ask (request : Request) : Exec request.Answer := StateT.lift (Program.ask request)

/-- Read a byte of memory. -/
def readFor (access : Access) (address : Word) : Exec Byte := ask (.read address access)

/-- Write a byte of memory. -/
def write (address : Word) (value : Byte) : Exec Unit := ask (.write address value)

/-- Read a port. -/
def input (port : Word) : Exec Byte := ask (.input port)

/-- Write a port. -/
def output (port : Word) (value : Byte) : Exec Unit := ask (.output port value)

/-- Take the byte on the data lines. -/
def dataLines : Exec Byte := ask .dataLines

/-- Tell the bus that RETI has run. -/
def noteReturn : Exec Unit := ask .returned

/-- Tell the bus that an interrupt is being acknowledged. -/
def acknowledge (kind : Acknowledgement) : Exec Unit := ask (.acknowledge kind)

/-- Ask for the address to use for the value of a register. -/
def pointerFor (source : Source) (value : Word) : Exec Word := ask (.pointer source value)

/-- Ask for the byte to use for the value of a register. -/
def byteFor (source : Source) (value : Byte) : Exec Byte := ask (.byteValue source value)

/-- Ask for the word to use for the value of a counting pair. -/
def pairFor (source : Source) (value : Word) : Exec Word := ask (.pairValue source value)

/-- Ask for the port to use for the value of a register. -/
def portFor (source : Source) (value : Word) : Exec Word := ask (.portAddress source value)

/-- The registers as they are. -/
def registers : Exec Registers := return (← get).registers

/-- Change the registers. -/
def updateRegisters (change : Registers → Registers) : Exec Unit :=
  modify (·.updateRegisters change)

/-- Run a computation on a bus. -/
def runOn (program : Exec α) (bus : Bus σ) (cpu : Cpu) (device : σ) : Result σ α :=
  let ((value, cpu), device) := (program cpu).run bus device
  { value, cpu, device }

/-- The calls that a computation makes on a bus, in order. -/
def callsOn (program : Exec α) (bus : Bus σ) (cpu : Cpu) (device : σ) : List Exchange :=
  (program cpu).calls bus device

section Running

variable (bus : Bus σ) (cpu : Cpu) (device : σ)

@[simp] theorem runOn_pure (value : α) :
    runOn (pure value) bus cpu device = ⟨value, cpu, device⟩ := rfl

@[simp] theorem callsOn_pure (value : α) :
    callsOn (pure value : Exec α) bus cpu device = [] := rfl

@[simp] theorem runOn_bind (program : Exec α) (next : α → Exec β) :
    runOn (program >>= next) bus cpu device =
      let first := runOn program bus cpu device
      runOn (next first.value) bus first.cpu first.device := by
  simp only [runOn, bind, StateT.bind]
  exact congrArg (fun last : (β × Cpu) × σ => Result.mk last.1.1 last.1.2 last.2)
    (Program.run_bind bus (program cpu) (fun first => next first.1 first.2) device)

@[simp] theorem callsOn_bind (program : Exec α) (next : α → Exec β) :
    callsOn (program >>= next) bus cpu device =
      let first := runOn program bus cpu device
      callsOn program bus cpu device ++ callsOn (next first.value) bus first.cpu first.device :=
  Program.calls_bind bus (program cpu) (fun first => next first.1 first.2) device

@[simp] theorem runOn_map (change : α → β) (program : Exec α) :
    runOn (change <$> program) bus cpu device =
      let first := runOn program bus cpu device
      ⟨change first.value, first.cpu, first.device⟩ := by
  rw [map_eq_pure_bind, runOn_bind]
  rfl

@[simp] theorem callsOn_map (change : α → β) (program : Exec α) :
    callsOn (change <$> program) bus cpu device = callsOn program bus cpu device := by
  rw [map_eq_pure_bind, callsOn_bind]
  simp

@[simp] theorem runOn_get :
    runOn (get : Exec Cpu) bus cpu device = ⟨cpu, cpu, device⟩ := rfl

@[simp] theorem callsOn_get : callsOn (get : Exec Cpu) bus cpu device = [] := rfl

@[simp] theorem runOn_modify (change : Cpu → Cpu) :
    runOn (modify change) bus cpu device = ⟨(), change cpu, device⟩ := rfl

@[simp] theorem callsOn_modify (change : Cpu → Cpu) :
    callsOn (modify change : Exec Unit) bus cpu device = [] := rfl

@[simp] theorem runOn_registers :
    runOn registers bus cpu device = ⟨cpu.registers, cpu, device⟩ := rfl

@[simp] theorem callsOn_registers : callsOn registers bus cpu device = [] := rfl

@[simp] theorem runOn_updateRegisters (change : Registers → Registers) :
    runOn (updateRegisters change) bus cpu device =
      ⟨(), cpu.updateRegisters change, device⟩ := rfl

@[simp] theorem callsOn_updateRegisters (change : Registers → Registers) :
    callsOn (updateRegisters change) bus cpu device = [] := rfl

@[simp] theorem runOn_readFor (access : Access) (address : Word) :
    runOn (readFor access address) bus cpu device =
      ⟨(bus.read address access device).1, cpu, (bus.read address access device).2⟩ := rfl

@[simp] theorem callsOn_readFor (access : Access) (address : Word) :
    callsOn (readFor access address) bus cpu device =
      [⟨.read address access, (bus.read address access device).1⟩] := rfl

@[simp] theorem runOn_write (address : Word) (value : Byte) :
    runOn (write address value) bus cpu device =
      ⟨(), cpu, bus.write address value device⟩ := rfl

@[simp] theorem callsOn_write (address : Word) (value : Byte) :
    callsOn (write address value) bus cpu device = [⟨.write address value, ()⟩] := rfl

@[simp] theorem runOn_input (port : Word) :
    runOn (input port) bus cpu device =
      ⟨(bus.input port device).1, cpu, (bus.input port device).2⟩ := rfl

@[simp] theorem callsOn_input (port : Word) :
    callsOn (input port) bus cpu device =
      [⟨.input port, (bus.input port device).1⟩] := rfl

@[simp] theorem runOn_output (port : Word) (value : Byte) :
    runOn (output port value) bus cpu device = ⟨(), cpu, bus.output port value device⟩ := rfl

@[simp] theorem callsOn_output (port : Word) (value : Byte) :
    callsOn (output port value) bus cpu device = [⟨.output port value, ()⟩] := rfl

@[simp] theorem runOn_dataLines :
    runOn dataLines bus cpu device =
      ⟨(bus.dataLines device).1, cpu, (bus.dataLines device).2⟩ := rfl

@[simp] theorem callsOn_dataLines :
    callsOn dataLines bus cpu device =
      [⟨.dataLines, (bus.dataLines device).1⟩] := rfl

@[simp] theorem runOn_noteReturn :
    runOn noteReturn bus cpu device = ⟨(), cpu, bus.returned device⟩ := rfl

@[simp] theorem callsOn_noteReturn :
    callsOn noteReturn bus cpu device = [⟨.returned, ()⟩] := rfl

@[simp] theorem runOn_acknowledge (kind : Acknowledgement) :
    runOn (acknowledge kind) bus cpu device = ⟨(), cpu, bus.acknowledge kind device⟩ := rfl

@[simp] theorem callsOn_acknowledge (kind : Acknowledgement) :
    callsOn (acknowledge kind) bus cpu device = [⟨.acknowledge kind, ()⟩] := rfl

@[simp] theorem runOn_pointerFor (source : Source) (value : Word) :
    runOn (pointerFor source value) bus cpu device =
      ⟨(bus.pointer source value device).1, cpu, (bus.pointer source value device).2⟩ := rfl

@[simp] theorem callsOn_pointerFor (source : Source) (value : Word) :
    callsOn (pointerFor source value) bus cpu device =
      [⟨.pointer source value, (bus.pointer source value device).1⟩] := rfl

@[simp] theorem runOn_byteFor (source : Source) (value : Byte) :
    runOn (byteFor source value) bus cpu device =
      ⟨(bus.byteValue source value device).1, cpu, (bus.byteValue source value device).2⟩ := rfl

@[simp] theorem callsOn_byteFor (source : Source) (value : Byte) :
    callsOn (byteFor source value) bus cpu device =
      [⟨.byteValue source value, (bus.byteValue source value device).1⟩] := rfl

@[simp] theorem runOn_pairFor (source : Source) (value : Word) :
    runOn (pairFor source value) bus cpu device =
      ⟨(bus.pairValue source value device).1, cpu, (bus.pairValue source value device).2⟩ := rfl

@[simp] theorem callsOn_pairFor (source : Source) (value : Word) :
    callsOn (pairFor source value) bus cpu device =
      [⟨.pairValue source value, (bus.pairValue source value device).1⟩] := rfl

@[simp] theorem runOn_portFor (source : Source) (value : Word) :
    runOn (portFor source value) bus cpu device =
      ⟨(bus.portAddress source value device).1, cpu,
        (bus.portAddress source value device).2⟩ := rfl

@[simp] theorem callsOn_portFor (source : Source) (value : Word) :
    callsOn (portFor source value) bus cpu device =
      [⟨.portAddress source value, (bus.portAddress source value device).1⟩] := rfl

@[simp] theorem runOn_ite (condition : Prop) [Decidable condition] (first second : Exec α) :
    runOn (if condition then first else second) bus cpu device =
      if condition then runOn first bus cpu device else runOn second bus cpu device := by
  split <;> rfl

@[simp] theorem callsOn_ite (condition : Prop) [Decidable condition] (first second : Exec α) :
    callsOn (if condition then first else second) bus cpu device =
      if condition then callsOn first bus cpu device else callsOn second bus cpu device := by
  split <;> rfl

end Running

end Exec

end Z80
