import Z80.Registers

/-!
# Calls to the bus

A machine talks to its bus through requests: accesses to memory and ports, notices, and questions
whether a register value is to be replaced before it is put to work. A program is a computation
that makes such requests and goes on with the answers. It is independent of any particular bus, so
two computations that make the same calls in the same order are equal as programs.

## Main definitions

* `Request`, `Request.Answer`: what the machine asks and what it gets back
* `Program`: computations that make requests
* `Bus`: the answers of a device with a state
* `Program.run`, `Program.calls`: running a program on a bus, and the calls that it makes
-/

namespace Z80

/-- What a byte is read from memory for. -/
inductive Access where
  /-- An opcode or prefix byte. -/
  | opcode
  /-- Any other byte of the instruction stream. -/
  | operand
  /-- A byte that the program works with. -/
  | data
deriving DecidableEq, Inhabited

/-- What is acknowledged: the non-maskable interrupt, or a maskable one in a numbered mode. -/
inductive Acknowledgement where
  | nonMaskable
  | maskable (mode : Byte)
deriving DecidableEq

/-- A register whose value is about to be put to work as an address, a port or a counter. -/
inductive Source where
  | a | b | i | bc | de | hl | ix | iy | sp
deriving DecidableEq, Inhabited

/-- A call to the bus. -/
inductive Request where
  | read (address : Word) (access : Access)
  | write (address : Word) (value : Byte)
  | input (port : Word)
  | output (port : Word) (value : Byte)
  /-- The byte that the interrupting device puts on the data lines. -/
  | dataLines
  /-- Notice that RETI has run. -/
  | returned
  /-- Notice that an interrupt is being acknowledged. -/
  | acknowledge (kind : Acknowledgement)
  /-- The address to use for the value of a register. -/
  | pointer (source : Source) (value : Word)
  /-- The byte to use for the value of a counter or of the vector page. -/
  | byteValue (source : Source) (value : Byte)
  /-- The word to use for the value of a counting pair. -/
  | pairValue (source : Source) (value : Word)
  /-- The port to use for the value of a register. -/
  | portAddress (source : Source) (value : Word)
deriving DecidableEq

/-- What the bus answers. -/
abbrev Request.Answer : Request → Type
  | .read _ _ | .input _ | .dataLines | .byteValue _ _ => Byte
  | .write _ _ | .output _ _ | .returned | .acknowledge _ => Unit
  | .pointer _ _ | .pairValue _ _ | .portAddress _ _ => Word

/-- A computation that calls the bus. -/
inductive Program (α : Type) : Type where
  | done (value : α)
  | call (request : Request) (next : request.Answer → Program α)

namespace Program

variable {α β γ : Type}

/-- Go on with a second computation after the first. -/
def bind (program : Program α) (next : α → Program β) : Program β :=
  match program with
  | .done value => next value
  | .call request rest => .call request fun answer => (rest answer).bind next

instance : Monad Program where
  pure := .done
  bind := bind

@[simp] theorem pure_eq_done (value : α) : (pure value : Program α) = .done value := rfl

@[simp] theorem done_bind (value : α) (next : α → Program β) :
    (Program.done value >>= next) = next value := rfl

@[simp] theorem call_bind (request : Request) (rest : request.Answer → Program α)
    (next : α → Program β) :
    (Program.call request rest >>= next) = .call request fun answer => rest answer >>= next := rfl

theorem bind_done (program : Program α) : (program >>= Program.done) = program := by
  induction program with
  | done value => rfl
  | call request rest ih => simp only [call_bind, ih]

theorem bind_assoc (program : Program α) (next : α → Program β) (last : β → Program γ) :
    (program >>= next >>= last) = program >>= fun value => next value >>= last := by
  induction program with
  | done value => rfl
  | call request rest ih => simp only [call_bind, ih]

instance : LawfulMonad Program :=
  LawfulMonad.mk' Program (fun program => bind_done program) (fun _ _ => rfl) bind_assoc

/-- Make one request. -/
def ask (request : Request) : Program request.Answer := .call request .done

end Program

/-- A device with a state. It must serve memory and ports; otherwise the data lines float high,
notices pass unheeded and every register value stands. -/
structure Bus (σ : Type) where
  read : Word → Access → σ → Byte × σ
  write : Word → Byte → σ → σ
  input : Word → σ → Byte × σ
  output : Word → Byte → σ → σ
  dataLines : σ → Byte × σ := fun state => (0xFF, state)
  returned : σ → σ := fun state => state
  acknowledge : Acknowledgement → σ → σ := fun _ state => state
  pointer : Source → Word → σ → Word × σ := fun _ value state => (value, state)
  byteValue : Source → Byte → σ → Byte × σ := fun _ value state => (value, state)
  pairValue : Source → Word → σ → Word × σ := fun _ value state => (value, state)
  portAddress : Source → Word → σ → Word × σ := fun _ value state => (value, state)

namespace Bus

variable {σ : Type}

/-- The answer to a request and the new state. -/
def answer (bus : Bus σ) (request : Request) (state : σ) : request.Answer × σ :=
  match request with
  | .read address access => bus.read address access state
  | .write address value => ((), bus.write address value state)
  | .input port => bus.input port state
  | .output port value => ((), bus.output port value state)
  | .dataLines => bus.dataLines state
  | .returned => ((), bus.returned state)
  | .acknowledge kind => ((), bus.acknowledge kind state)
  | .pointer source value => bus.pointer source value state
  | .byteValue source value => bus.byteValue source value state
  | .pairValue source value => bus.pairValue source value state
  | .portAddress source value => bus.portAddress source value state

end Bus

/-- A request with the answer it got. -/
structure Exchange where
  request : Request
  answer : request.Answer

namespace Program

variable {α β σ : Type}

/-- The result of a program on a bus, and the state it leaves. -/
def run (bus : Bus σ) : Program α → σ → α × σ
  | .done value, state => (value, state)
  | .call request next, state =>
    let (answer, state) := bus.answer request state
    run bus (next answer) state

/-- The calls that a program makes on a bus, in order. -/
def calls (bus : Bus σ) : Program α → σ → List Exchange
  | .done _, _ => []
  | .call request next, state =>
    let (answer, state) := bus.answer request state
    ⟨request, answer⟩ :: calls bus (next answer) state

@[simp] theorem run_done (bus : Bus σ) (value : α) (state : σ) :
    (Program.done value).run bus state = (value, state) := rfl

@[simp] theorem run_call (bus : Bus σ) (request : Request) (next : request.Answer → Program α)
    (state : σ) :
    (Program.call request next).run bus state =
      (next (bus.answer request state).1).run bus (bus.answer request state).2 := rfl

@[simp] theorem run_bind (bus : Bus σ) (program : Program α) (next : α → Program β) (state : σ) :
    (program >>= next).run bus state =
      (next (program.run bus state).1).run bus (program.run bus state).2 := by
  induction program generalizing state with
  | done value => rfl
  | call request rest ih => simp only [call_bind, run_call, ih]

@[simp] theorem calls_done (bus : Bus σ) (value : α) (state : σ) :
    (Program.done value).calls bus state = [] := rfl

@[simp] theorem calls_call (bus : Bus σ) (request : Request)
    (next : request.Answer → Program α) (state : σ) :
    (Program.call request next).calls bus state =
      ⟨request, (bus.answer request state).1⟩ ::
        (next (bus.answer request state).1).calls bus (bus.answer request state).2 := rfl

@[simp] theorem calls_bind (bus : Bus σ) (program : Program α) (next : α → Program β)
    (state : σ) :
    (program >>= next).calls bus state =
      program.calls bus state ++
        (next (program.run bus state).1).calls bus (program.run bus state).2 := by
  induction program generalizing state with
  | done value => rfl
  | call request rest ih => simp only [call_bind, calls_call, run_call, ih, List.cons_append]

end Program

end Z80
