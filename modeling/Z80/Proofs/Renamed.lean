import Mathlib.Tactic.MkIffOfInductiveProp
import Z80.Instruction.Entry
import Z80.Proofs.Stored

/-!
# Index registers in the place of HL

An index prefix puts IX or IY in the place of HL. An operation then does what it does plainly with
the two registers exchanged before and after, except where it has HL itself on every page: beside an
indexed operand, and in the two exchanges EX DE,HL and EXX. What it does with an indexed operand is
what it does plainly with the same byte at HL, so that only the address is another one. Between IX
and IY there is no exception.

The exchange is followed through a computation one part after the other (`Exec.mirrorsAt_bind`): a
part mirrors another if it makes the same calls and keeps the two processors exchanged.

## Main definitions

* `Registers.exchange`, `Cpu.exchange`: two of HL, IX and IY exchanged
* `Exec.Mirrors`: to run a computation comes to running another with two registers exchanged
* `Operation.fixesHL`: the operations that have HL itself in some place
* `Operation.Indexes`: an operation on an indexed byte, next to its plain form

## Main results

* `Operation.execute_mirrors`: all other operations mirror themselves on another page, on any bus
* `Operation.execute_mirrors_displaced`, `BitOperation.executeIndexed_mirrors`: between IX and IY
  all operations do
* `Operation.execute_indexed`: what an operation does with an indexed byte
* `Operation.index_replaces_hl`: all of this for every opcode, on a board
-/

namespace Z80

open Exec

attribute [ext] Result

/-! ### Exchanging two index registers -/

namespace Registers

/-- The registers with two of HL, IX and IY exchanged. -/
def exchange (regs : Registers) (first second : Index) : Registers :=
  (regs.setIndex first (regs.index second)).setIndex second (regs.index first)

variable (regs : Registers) (first second : Index)

/-- The exchange keeps all that does not hold an index. -/
@[simp] theorem exchange_kept :
    (regs.exchange first second).accumulator = regs.accumulator ∧
      (regs.exchange first second).a = regs.a ∧ (regs.exchange first second).f = regs.f ∧
      (regs.exchange first second).af = regs.af ∧ (regs.exchange first second).bc = regs.bc ∧
      (regs.exchange first second).de = regs.de ∧
      (regs.exchange first second).general.b = regs.general.b ∧
      (regs.exchange first second).general.c = regs.general.c ∧
      (regs.exchange first second).general.d = regs.general.d ∧
      (regs.exchange first second).general.e = regs.general.e ∧
      (regs.exchange first second).sp = regs.sp ∧ (regs.exchange first second).pc = regs.pc := by
  cases first <;> cases second <;>
    exact ⟨rfl, rfl, rfl, rfl, rfl, rfl, rfl, rfl, rfl, rfl, rfl, rfl⟩

@[simp] theorem exchange_exchange : (regs.exchange first second).exchange first second = regs := by
  cases first <;> cases second <;>
    simp [exchange, index, setIndex, setHL, General.setHL, General.hl]

/-! What reads the one register reads the other after the exchange. -/

@[simp] theorem index_exchange : (regs.exchange first second).index second = regs.index first := by
  cases first <;> cases second <;> simp [exchange, index, setIndex, setHL, hl]

@[simp] theorem reg_exchange (register : Reg) :
    (regs.exchange first second).reg second register = regs.reg first register := by
  cases register <;> simp [reg]

@[simp] theorem pair_exchange (pair : Pair) :
    (regs.exchange first second).pair second pair = regs.pair first pair := by
  cases pair <;> simp [pair]

@[simp] theorem stackPair_exchange (pair : StackPair) :
    (regs.exchange first second).stackPair second pair = regs.stackPair first pair := by
  cases pair <;> simp [stackPair]

@[simp] theorem sourceValue_toSource (index : Index) :
    regs.sourceValue index.toSource = regs.index index := by
  cases index <;> rfl

/-! What writes the one register writes the other after the exchange. -/

@[simp] theorem setIndex_exchange (word : Word) :
    (regs.exchange first second).setIndex second word =
      (regs.setIndex first word).exchange first second := by
  cases first <;> cases second <;>
    simp [exchange, index, setIndex, setHL, General.setHL, hl, General.hl]

@[simp] theorem setReg_exchange (register : Reg) (byte : Byte) :
    (regs.exchange first second).setReg second register byte =
      (regs.setReg first register byte).exchange first second := by
  cases register with
  | h | l => simp [setReg]
  | _ => cases first <;> cases second <;> rfl

@[simp] theorem setPair_exchange (pair : Pair) (word : Word) :
    (regs.exchange first second).setPair second pair word =
      (regs.setPair first pair word).exchange first second := by
  cases pair with
  | index => simp [setPair]
  | _ => cases first <;> cases second <;> rfl

@[simp] theorem setStackPair_exchange (pair : StackPair) (word : Word) :
    (regs.exchange first second).setStackPair second pair word =
      (regs.setStackPair first pair word).exchange first second := by
  cases pair with
  | index => simp [setStackPair]
  | _ => cases first <;> cases second <;> rfl

/-- What writes no index register does so before the exchange or after it. -/
@[simp] theorem others_exchange :
    (∀ byte, (regs.exchange first second).setA byte = (regs.setA byte).exchange first second) ∧
      (∀ index byte, (regs.exchange first second).setReg index .b byte =
        (regs.setReg index .b byte).exchange first second) ∧
      (regs.exchange first second).swapAccumulator =
        regs.swapAccumulator.exchange first second := by
  cases first <;> cases second <;> exact ⟨fun _ => rfl, fun _ _ => rfl, rfl⟩

end Registers

/-- The processor with two of HL, IX and IY exchanged. -/
def Cpu.exchange (cpu : Cpu) (first second : Index) : Cpu :=
  cpu.updateRegisters (·.exchange first second)

/-- The result with two of HL, IX and IY exchanged. -/
def Result.exchange {σ α : Type} (result : Result σ α) (first second : Index) : Result σ α :=
  { result with cpu := result.cpu.exchange first second }

namespace Cpu

variable (cpu : Cpu) (first second : Index)

@[simp] theorem exchange_exchange : (cpu.exchange first second).exchange first second = cpu := by
  simp [exchange, updateRegisters]

@[simp] theorem registers_exchange :
    (cpu.exchange first second).registers = cpu.registers.exchange first second := rfl

@[simp] theorem writtenBefore_exchange :
    (cpu.exchange first second).writtenBefore = cpu.writtenBefore := rfl

end Cpu

/-! ### Computations that mirror each other -/

namespace Exec

variable {α β σ : Type} {bus : Bus σ} {first second : Index}

/-- Run from a processor and a device, the one computation does what the other does with two index
registers exchanged before and after. -/
def MirrorsAt (bus : Bus σ) (first second : Index) (program image : Exec α) (cpu : Cpu)
    (device : σ) : Prop :=
  runOn program bus cpu device =
    (runOn image bus (cpu.exchange first second) device).exchange first second

/-- It does so from everywhere. -/
def Mirrors (bus : Bus σ) (first second : Index) (program image : Exec α) : Prop :=
  ∀ cpu device, MirrorsAt bus first second program image cpu device

section Rules

variable {program image : Exec α} {cpu : Cpu} {device : σ}

@[simp] theorem Mirrors.mirrorsAt (mirrors : Mirrors bus first second program image) (cpu : Cpu)
    (device : σ) : MirrorsAt bus first second program image cpu device := mirrors cpu device

/-- Behind two parts that mirror each other, the rest has to do so from where the first part
leads. -/
@[simp] theorem mirrorsAt_bind {next after : α → Exec β}
    (mirrors : Mirrors bus first second program image) :
    MirrorsAt bus first second (program >>= next) (image >>= after) cpu device ↔
      let start := runOn program bus cpu device
      MirrorsAt bus first second (next start.value) (after start.value) start.cpu
        start.device := by
  have same := mirrors cpu device
  unfold MirrorsAt at same ⊢
  simp only [runOn_bind, same, Result.exchange, Cpu.exchange_exchange]

@[simp] theorem mirrorsAt_registers_bind {next after : Registers → Exec β} :
    MirrorsAt bus first second (registers >>= next) (registers >>= after) cpu device ↔
      MirrorsAt bus first second (next cpu.registers)
        (after (cpu.registers.exchange first second)) cpu device := by
  simp only [MirrorsAt, runOn_bind, runOn_registers, Cpu.registers_exchange]

@[simp] theorem mirrorsAt_get_bind {next after : Cpu → Exec β} :
    MirrorsAt bus first second (get >>= next) (get >>= after) cpu device ↔
      MirrorsAt bus first second (next cpu) (after (cpu.exchange first second)) cpu device := by
  simp only [MirrorsAt, runOn_bind, runOn_get]

theorem MirrorsAt.map (mirrors : MirrorsAt bus first second program image cpu device)
    (change : α → β) :
    MirrorsAt bus first second (change <$> program) (change <$> image) cpu device := by
  unfold MirrorsAt at mirrors ⊢
  simp [mirrors, Result.exchange]

@[simp] theorem mirrorsAt_map (mirrors : Mirrors bus first second program image)
    (change : α → β) :
    MirrorsAt bus first second (change <$> program) (change <$> image) cpu device :=
  (mirrors cpu device).map change

@[simp] theorem mirrorsAt_untaken (body after : Exec Unit) :
    MirrorsAt bus first second (untaken body) (untaken after) cpu device ↔
      MirrorsAt bus first second body after cpu device := by
  simp [MirrorsAt, untaken, Result.exchange, Result.ext_iff]

@[simp] theorem mirrorsAt_ite (condition : Prop) [Decidable condition]
    (program other image reverse : Exec α) :
    MirrorsAt bus first second (if condition then program else other)
        (if condition then image else reverse) cpu device ↔
      (condition → MirrorsAt bus first second program image cpu device) ∧
        (¬ condition → MirrorsAt bus first second other reverse cpu device) := by
  split <;> simp [*]

@[simp] theorem mirrors_pure (value : α) :
    Mirrors bus first second (pure value) (pure value) := by
  intro cpu device
  simp [MirrorsAt, Result.exchange]

theorem mirrors_modify {change other : Cpu → Cpu}
    (swaps : ∀ cpu, other (cpu.exchange first second) = (change cpu).exchange first second) :
    Mirrors bus first second (modify change) (modify other) := by
  intro cpu device
  simp [MirrorsAt, Result.exchange, swaps]

theorem mirrors_updateRegisters {change other : Registers → Registers}
    (swaps : ∀ regs, other (regs.exchange first second) = (change regs).exchange first second) :
    Mirrors bus first second (updateRegisters change) (updateRegisters other) := by
  apply mirrors_modify
  intro cpu
  simp [Cpu.exchange, Cpu.updateRegisters, swaps]

end Rules

/-- Every call to the bus mirrors itself. -/
@[simp] theorem mirrors_calls :
    (∀ access address,
        Mirrors bus first second (readFor access address) (readFor access address)) ∧
      (∀ address value, Mirrors bus first second (write address value) (write address value)) ∧
      (∀ port, Mirrors bus first second (input port) (input port)) ∧
      (∀ port value, Mirrors bus first second (output port value) (output port value)) ∧
      (∀ source value,
        Mirrors bus first second (pointerFor source value) (pointerFor source value)) ∧
      (∀ source value, Mirrors bus first second (byteFor source value) (byteFor source value)) ∧
      ∀ source value,
        Mirrors bus first second (portFor source value) (portFor source value) := by
  refine ⟨?_, ?_, ?_, ?_, ?_, ?_, ?_⟩ <;> intros <;> intro cpu device <;>
    simp [MirrorsAt, Result.exchange]

/-- What writes no index register mirrors itself. -/
@[simp] theorem mirrors_changes :
    (∀ address, Mirrors bus first second (latch address) (latch address)) ∧
      (∀ address, Mirrors bus first second (goTo address) (goTo address)) ∧
      (∀ word : Word, Mirrors bus first second
        (updateRegisters fun regs => { regs with sp := word })
        (updateRegisters fun regs => { regs with sp := word })) ∧
      ∀ one two, Mirrors bus first second
        (updateRegisters fun regs => { regs with iff1 := one, iff2 := two })
        (updateRegisters fun regs => { regs with iff1 := one, iff2 := two }) := by
  refine ⟨?_, ?_, ?_, ?_⟩ <;> intros <;> apply mirrors_updateRegisters <;> cases first <;>
    cases second <;> exact fun _ => rfl

@[simp] theorem mirrors_fetchOperand : Mirrors bus first second fetchOperand fetchOperand := by
  intro cpu device
  simp only [fetchOperand, mirrorsAt_registers_bind, Registers.exchange_kept, mirrors_calls,
    mirrorsAt_bind]
  rw [← map_eq_pure_bind]
  refine (mirrors_updateRegisters ?_ _ _).map _
  cases first <;> cases second <;> exact fun _ => rfl

@[simp] theorem mirrors_fetchWord : Mirrors bus first second fetchWord fetchWord := by
  intro cpu device
  simp [fetchWord]

/-- The accesses that have no index register in them mirror themselves. -/
@[simp] theorem mirrors_accesses :
    (∀ address, Mirrors bus first second (read address) (read address)) ∧
      (∀ address, Mirrors bus first second (readWord address) (readWord address)) ∧
      (∀ address word,
        Mirrors bus first second (writeWord address word) (writeWord address word)) ∧
      (∀ pair : AddressPair,
        Mirrors bus first second (pointer pair.toSource) (pointer pair.toSource)) ∧
      Mirrors bus first second (pointer .sp) (pointer .sp) ∧
      Mirrors bus first second (portAddress .a) (portAddress .a) ∧
      Mirrors bus first second (byteValue .b) (byteValue .b) := by
  refine ⟨?_, ?_, ?_, ?_, ?_, ?_, ?_⟩
  · simp [read]
  · intro address cpu device
    simp [readWord, read]
  · intro address word cpu device
    simp [writeWord]
  · intro pair cpu device
    cases pair <;> simp [pointer, AddressPair.toSource, Registers.sourceValue]
  · intro cpu device
    simp [pointer, Registers.sourceValue]
  · intro cpu device
    simp [portAddress, Registers.sourceValue]
  · intro cpu device
    simp [byteValue, Registers.sourceValue]

@[simp] theorem mirrors_stack :
    (∀ value, Mirrors bus first second (pushWord value) (pushWord value)) ∧
      Mirrors bus first second popWord popWord := by
  constructor
  · intro value cpu device
    simp [pushWord]
  · intro cpu device
    simp [popWord]

@[simp] theorem mirrors_flags :
    Mirrors bus first second flags flags ∧
      ∀ new, Mirrors bus first second (writeFlags new) (writeFlags new) := by
  constructor
  · intro cpu device
    simp [MirrorsAt, flags, Result.exchange]
  · intro new
    apply mirrors_modify
    cases first <;> cases second <;> exact fun _ => rfl

@[simp] theorem mirrors_writeAccumulator (outcome : Arithmetic.Outcome 8) :
    Mirrors bus first second (writeAccumulator outcome) (writeAccumulator outcome) := by
  intro cpu device
  simp [writeAccumulator, mirrors_updateRegisters]

/-- Jumps, calls and returns mirror themselves, and so do the parts that write the accumulator and
the latch. -/
@[simp] theorem mirrors_parts :
    (∀ offset, Mirrors bus first second (jumpBy offset) (jumpBy offset)) ∧
      (∀ target, Mirrors bus first second (jumpTo target) (jumpTo target)) ∧
      Mirrors bus first second returnToCaller returnToCaller ∧
      (∀ target, Mirrors bus first second (callTo target) (callTo target)) ∧
      (∀ op operand, Mirrors bus first second (combine op operand) (combine op operand)) ∧
      ∀ address, Mirrors bus first second (latchStore address) (latchStore address) := by
  refine ⟨?_, ?_, ?_, ?_, ?_, ?_⟩
  · intro offset cpu device
    simp [jumpBy]
  · intro target cpu device
    simp [jumpTo]
  · intro cpu device
    simp [returnToCaller, jumpTo]
  · intro target cpu device
    simp [callTo]
  · intro op operand cpu device
    simp [combine]
  · intro address cpu device
    simp [latchStore]

end Exec

/-! ### Operations with a register in the place of HL -/

/-- The register is a half of the register in the place of HL. -/
def Reg.isHalf : Reg → Bool
  | .h | .l => true
  | _ => false

namespace Operation

/-- The operation has HL itself in some place on every page: beside an indexed operand, or in an
exchange. -/
def fixesHL : Operation → Bool
  | .exchangePairs | .exchangeGeneral => true
  | operation => operation.usesMemory

/-- The operation mentions HL. -/
def mentionsHL : Operation → Bool
  | .loadPair pair | .incrementPair pair | .decrementPair pair => pair == .index
  | .pop pair | .push pair => pair == .index
  | .increment (.register register) | .decrement (.register register)
  | .loadImmediate (.register register) | .accumulate _ (.register register) => register.isHalf
  | .load target source => target.isHalf || source.isHalf
  | .addPair _ | .storeIndex | .loadIndex | .jumpIndex | .loadStackPointer | .exchangeStack => true
  | operation => operation.fixesHL

/-- An operation that has HL nowhere itself does with one register in the place of HL what it does
with another one, with the two exchanged before and after. -/
theorem execute_mirrors {σ : Type} (bus : Bus σ) (first second : Index) (operation : Operation)
    (varies : operation.fixesHL = false) :
    Mirrors bus first second (operation.execute first) (operation.execute second) := by
  intro cpu device
  cases operation with
  | increment place | decrement place | accumulate _ place | loadImmediate place =>
    cases place with
    | register register => simp [execute, readPlace, modifyPlace, mirrors_updateRegisters]
    | memory => cases varies
  | loadMemory | storeMemory | exchangePairs | exchangeGeneral => cases varies
  -- These change latches beside the registers.
  | halt | enableInterrupts =>
    simp only [execute, mirrorsAt_untaken]
    refine mirrors_modify ?_ _ _
    cases first <;> cases second <;> exact fun _ => rfl
  | jumpIndex | loadStackPointer =>
    simp only [execute, mirrorsAt_untaken]
    refine mirrors_updateRegisters ?_ _ _
    -- The register goes into the program counter or the stack pointer as a whole.
    intro regs
    rw [Registers.index_exchange]
    cases first <;> cases second <;> rfl
  | _ => simp [execute, mirrors_updateRegisters]

/-- An operation that does not mention HL is the same computation on every page. -/
theorem execute_of_unmentioned {operation : Operation} (unmentioned : operation.mentionsHL = false)
    (first second : Index) : operation.execute first = operation.execute second := by
  cases operation with
  | increment place | decrement place | accumulate _ place | loadImmediate place =>
    cases place with
    | memory => cases unmentioned
    | register register =>
      cases register with
      | h | l => cases unmentioned
      | _ => rfl
  | loadPair pair | incrementPair pair | decrementPair pair | pop pair | push pair =>
    cases pair with
    | index => cases unmentioned
    | _ => rfl
  | load target source =>
    cases target with
    | h | l => cases unmentioned
    | _ =>
      cases source with
      | h | l => cases unmentioned
      | _ => rfl
  | addPair | storeIndex | loadIndex | jumpIndex | loadStackPointer | exchangeStack | loadMemory
  | storeMemory | exchangePairs | exchangeGeneral => cases unmentioned
  | _ => rfl

end Operation

/-! ### IX and IY -/

/-- With HL out of the exchange, its halves are out of it too. -/
theorem Exec.mirrors_setReg_hl {σ : Type} {bus : Bus σ} (register : Reg) (byte : Byte) :
    Mirrors bus .iy .ix (updateRegisters (·.setReg .hl register byte))
      (updateRegisters (·.setReg .hl register byte)) := by
  apply mirrors_updateRegisters
  cases register <;> exact fun _ => rfl

section Displaced

variable {σ : Type} {bus : Bus σ} (alike : bus.pointer .iy = bus.pointer .ix)

include alike

theorem Exec.mirrors_pointer : Mirrors bus .iy .ix (pointer .iy) (pointer .ix) := by
  intro cpu device
  have same : (cpu.registers.exchange .iy .ix).ix = cpu.registers.iy := rfl
  simp [MirrorsAt, pointer, Registers.sourceValue, Result.exchange, alike, same]

theorem Exec.mirrors_operandAddress :
    Mirrors bus .iy .ix (operandAddress .iy) (operandAddress .ix) := by
  intro cpu device
  simp [operandAddress, Index.toSource, mirrors_pointer alike]

/-- Every operation does with IY what it does with IX, with the two exchanged before and after, on a
bus that treats their addresses alike. -/
theorem Operation.execute_mirrors_displaced (operation : Operation) :
    Mirrors bus .iy .ix (operation.execute .iy) (operation.execute .ix) := by
  cases fixes : operation.fixesHL with
  | false => exact operation.execute_mirrors bus .iy .ix fixes
  | true =>
    intro cpu device
    -- Beside an indexed operand, H and L themselves are meant, which the exchange leaves alone.
    have source (regs : Registers) (register : Reg) :
        (regs.exchange .iy .ix).reg .hl register = regs.reg .hl register := by
      cases register <;> rfl
    cases operation with
    | increment place | decrement place | accumulate _ place | loadImmediate place =>
      cases place with
      | register register => cases fixes
      | memory => simp [execute, readPlace, modifyPlace, mirrors_operandAddress alike]
    | loadMemory | storeMemory =>
      simp [execute, mirrors_operandAddress alike, mirrors_setReg_hl, source]
    | exchangePairs | exchangeGeneral =>
      simp only [execute, mirrorsAt_untaken]
      exact mirrors_updateRegisters (fun _ => rfl) _ _
    | _ => cases fixes

/-- So does every bit operation. -/
theorem BitOperation.executeIndexed_mirrors (operation : BitOperation) (offset : Byte)
    (copy : Option Reg) :
    Mirrors bus .iy .ix (operation.executeIndexed .iy offset copy)
      (operation.executeIndexed .ix offset copy) := by
  intro cpu device
  have applies (value source : Byte) : Mirrors bus .iy .ix (operation.apply value source)
      (operation.apply value source) := by
    intro cpu device
    cases operation <;> simp [apply]
  simp only [executeIndexed, Index.toSource, mirrors_pointer alike, mirrorsAt_bind,
    mirrors_changes, mirrors_accesses, applies]
  -- What is done with the result depends on whether there is one, and on the copy.
  generalize runOn (operation.apply _ _) _ _ _ = applied
  obtain ⟨_ | result, cpu, device⟩ := applied
  · simp
  · cases copy <;> simp [mirrors_setReg_hl]

end Displaced

/-! ### Indexed operands -/

/-- The same access to data, made at another address. -/
def Exchange.movedTo (address : Word) : Exchange → Exchange
  | ⟨.read _ .data, byte⟩ => ⟨.read address .data, byte⟩
  | ⟨.write _ byte, done⟩ => ⟨.write address byte, done⟩
  | call => call

/-- The calls that access data or a port, in order. -/
def accesses (calls : List Exchange) : List Exchange := calls.filter Exchange.isAccess

@[simp] theorem accesses_nil : accesses [] = [] := rfl

@[simp] theorem accesses_cons (call : Exchange) (calls : List Exchange) :
    accesses (call :: calls) = (if call.isAccess then [call] else []) ++ accesses calls := by
  rw [accesses, List.filter_cons]
  split <;> rfl

@[simp] theorem accesses_append (calls more : List Exchange) :
    accesses (calls ++ more) = accesses calls ++ accesses more := List.filter_append ..

namespace Board

variable (board : Board) (address : Word)

@[simp] theorem fst_read (access : Access) :
    (bus.read address access board).1 = board.peek address := rfl

/-- To read memory changes none of it. -/
@[simp] theorem peek_read (other : Word) (access : Access) :
    (bus.read address access board).2.peek other = board.peek other := by
  simp [bus, bareBus, Board.read, peek]

@[simp] theorem peek_write (byte : Byte) : (bus.write address byte board).peek address = byte := by
  simp [bus, bareBus, Board.write, peek, poke]

theorem peek_write_of_ne {other : Word} (byte : Byte) (apart : other ≠ address) :
    (bus.write address byte board).peek other = board.peek other := by
  simp [bus, bareBus, Board.write, peek, poke, board.memory.read_write_of_ne byte apart]

/-- The address of an indexed operand: the register, moved by the offset that stands at the program
counter. -/
def indexedAddress (cpu : Cpu) (index : Index) : Word :=
  Word.displaced (cpu.registers.index index) (board.peek cpu.registers.pc)

end Board

/-- An index register is no part of the accumulator or of the general registers, and neither the
program counter nor the latch. -/
theorem Registers.index_updated (regs : Registers) {index : Index} (displaced : index ≠ .hl)
    (accumulator : Accumulator) (general : General) (pc wz : Word) :
    Registers.index { regs with accumulator, general, pc, wz } index = regs.index index := by
  cases index with
  | hl => contradiction
  | ix | iy => rfl

section OnBoard

variable (cpu : Cpu) (board : Board)

@[simp] theorem Exec.runOn_operandAddress_hl :
    runOn (operandAddress .hl) Board.bus cpu board = ⟨cpu.registers.hl, cpu, board⟩ := rfl

@[simp] theorem Exec.accesses_operandAddress_hl :
    accesses (callsOn (operandAddress .hl) Board.bus cpu board) = [] := by
  simp [operandAddress, pointer]

variable {index : Index} (displaced : index ≠ .hl)

include displaced

theorem Exec.runOn_operandAddress_displaced :
    runOn (operandAddress index) Board.bus cpu board =
      ⟨board.indexedAddress cpu index,
        cpu.updateRegisters fun regs =>
          { regs with pc := regs.pc + 1, wz := board.indexedAddress cpu index },
        (Board.bus.read cpu.registers.pc .operand board).2⟩ := by
  cases index with
  | hl => contradiction
  | ix | iy => rfl

theorem Exec.accesses_operandAddress_displaced :
    accesses (callsOn (operandAddress index) Board.bus cpu board) = [] := by
  cases index with
  | hl => contradiction
  | ix | iy => simp [operandAddress, pointer, fetchOperand, latch]

end OnBoard

namespace Operation

/-- The operation on a page, on a board. -/
def onBoard (operation : Operation) (index : Index) (cpu : Cpu) (board : Board) :
    Result Board Bool :=
  runOn (operation.execute index) Board.bus cpu board

/-- The accesses to data that it makes. -/
def accessesOnBoard (operation : Operation) (index : Index) (cpu : Cpu) (board : Board) :
    List Exchange :=
  accesses (callsOn (operation.execute index) Board.bus cpu board)

/-- The other board shows at HL the byte that the board shows as the indexed operand. An operation
that only stores takes its byte from the instruction stream instead. -/
structure SameOperand (operation : Operation) (index : Index) (cpu : Cpu) (board other : Board) :
    Prop where
  loaded : operation ≠ .loadImmediate .memory →
    other.peek cpu.registers.hl = board.peek (board.indexedAddress cpu index)
  given : operation = .loadImmediate .memory →
    other.peek (cpu.registers.pc + 1) = board.peek (cpu.registers.pc + 1)

/-- What an operation does with an indexed byte on a board, next to what its plain form does behind
the offset with HL on another board. -/
@[mk_iff]
structure Indexes (operation : Operation) (index : Index) (start plain : Cpu) (board other : Board)
    (address : Word) : Prop where
  value : (operation.onBoard index start board).value = (operation.onBoard .hl plain other).value
  /-- The processors are the same in the end but for the latch, which holds the address. -/
  processor : (operation.onBoard index start board).cpu =
    (operation.onBoard .hl plain other).cpu.updateRegisters fun regs => { regs with wz := address }
  unmoved : (operation.onBoard index start board).cpu.registers.index index =
    start.registers.index index
  stored : (operation.onBoard index start board).device.peek address =
    (operation.onBoard .hl plain other).device.peek start.registers.hl
  kept : ∀ elsewhere, elsewhere ≠ address →
    (operation.onBoard index start board).device.peek elsewhere = board.peek elsewhere
  /-- The same bytes are loaded and stored, and all of them at the address. -/
  accesses : operation.accessesOnBoard index start board =
    (operation.accessesOnBoard .hl plain other).map (Exchange.movedTo address)

/-- An operation does with an indexed byte what its plain form does with the same byte at HL. -/
theorem execute_indexed {operation : Operation} (memory : operation.usesMemory = true)
    {index : Index} (displaced : index ≠ .hl) {cpu : Cpu} {board other : Board}
    (same : operation.SameOperand index cpu board other) :
    operation.Indexes index cpu (cpu.updateRegisters fun regs => { regs with pc := regs.pc + 1 })
      board other (board.indexedAddress cpu index) := by
  have address := runOn_operandAddress_displaced cpu board displaced
  have quiet := accesses_operandAddress_displaced cpu board displaced
  have kept := Registers.index_updated cpu.registers displaced
  simp only [indexes_iff, onBoard, accessesOnBoard]
  cases operation with
  | increment place | decrement place | accumulate _ place =>
    cases place with
    | register register => cases memory
    | memory =>
      have loaded := same.loaded (by simp)
      simp +contextual [execute, readPlace, modifyPlace, untaken, Exec.read, flags, writeFlags,
        combine, writeAccumulator, Exchange.movedTo, Board.peek_write_of_ne, Registers.setA,
        Registers.setF, Cpu.updateRegisters, *]
  | loadImmediate place =>
    cases place with
    | register register => cases memory
    | memory =>
      simp +contextual [execute, untaken, fetchOperand, Exchange.movedTo, Board.peek_write_of_ne,
        Cpu.updateRegisters, *]
      exact (same.given rfl).symm
  | loadMemory target =>
    have loaded := same.loaded (by simp)
    -- What is loaded into H or L does not move the address, which was taken before.
    cases target with
    | h | l =>
      simp [execute, untaken, Exec.read, Exchange.movedTo, Registers.setReg, Registers.setIndex,
        Registers.setHL, Cpu.updateRegisters, *]
      rfl
    | _ =>
      simp [execute, untaken, Exec.read, Exchange.movedTo, Registers.setReg, Registers.setA,
        Cpu.updateRegisters, *]
  | storeMemory source =>
    -- Neither the program counter nor the latch is part of what is stored.
    have shown (pc wz : Word) :
        Registers.reg { cpu.registers with pc, wz } .hl source = cpu.registers.reg .hl source := by
      cases source <;> rfl
    simp +contextual [execute, untaken, Exchange.movedTo, Board.peek_write_of_ne,
      Cpu.updateRegisters, *]
  | _ => cases memory

/-- Only these bytes name the exchanges that have HL itself. -/
theorem fixesHL_of_role {opcode : Byte} {operation : Operation}
    (role : ofOpcode? opcode = some operation) (plain : operation.usesMemory = false)
    (pairs : opcode ≠ 0xEB) (general : opcode ≠ 0xD9) : operation.fixesHL = false := by
  have exchanges : ∀ opcode, (ofOpcode? opcode = some .exchangePairs → opcode = 0xEB) ∧
      (ofOpcode? opcode = some .exchangeGeneral → opcode = 0xD9) := by decide +kernel
  cases operation with
  | exchangePairs => exact absurd ((exchanges opcode).1 role) pairs
  | exchangeGeneral => exact absurd ((exchanges opcode).2 role) general
  | _ => exact plain

/-- On a board and from every processor, an index prefix puts IX in the place of HL. An opcode that
neither works on memory nor is EX DE,HL or EXX does what it does plainly, with HL and IX exchanged
before and after; if it does not mention HL, and if it is one of the two exchanges, it does just
what it does plainly. An opcode that works on memory does what it does plainly with the same byte at
HL, but at the address of IX moved by the offset, which the latch holds afterwards. With IY every
opcode does what it does with IX, the two exchanged before and after, and so does every operation on
the bits of an indexed byte. -/
theorem index_replaces_hl (cpu : Cpu) (board : Board) (opcode : Byte) (operation : Operation)
    (role : ofOpcode? opcode = some operation) :
    (Opcode.usesMemory opcode = false → opcode ≠ 0xEB → opcode ≠ 0xD9 →
        operation.onBoard .ix cpu board =
          (operation.onBoard .hl (cpu.exchange .ix .hl) board).exchange .ix .hl) ∧
      (operation.mentionsHL = false ∨ opcode = 0xEB ∨ opcode = 0xD9 →
        operation.onBoard .ix cpu board = operation.onBoard .hl cpu board) ∧
      (Opcode.usesMemory opcode = true → ∀ other, operation.SameOperand .ix cpu board other →
        operation.Indexes .ix cpu (cpu.updateRegisters fun regs => { regs with pc := regs.pc + 1 })
          board other (board.indexedAddress cpu .ix)) ∧
      operation.onBoard .iy cpu board =
        (operation.onBoard .ix (cpu.exchange .iy .ix) board).exchange .iy .ix ∧
      ∀ (bits : BitOperation) (offset : Byte) (copy : Option Reg),
        runOn (bits.executeIndexed .iy offset copy) Board.bus cpu board =
          (runOn (bits.executeIndexed .ix offset copy) Board.bus (cpu.exchange .iy .ix)
            board).exchange .iy .ix := by
  have memory : Opcode.usesMemory opcode = operation.usesMemory := by
    simp [Opcode.usesMemory, role]
  rw [memory]
  refine ⟨?_, ?_, ?_, ?_, ?_⟩
  · intro plain pairs general
    exact operation.execute_mirrors Board.bus .ix .hl (fixesHL_of_role role plain pairs general) _ _
  · rintro (unmentioned | rfl | rfl)
    · rw [onBoard, onBoard, execute_of_unmentioned unmentioned .ix .hl]
    all_goals
      cases role
      rfl
  · intro uses other same
    exact execute_indexed uses (by decide) same
  · exact operation.execute_mirrors_displaced rfl _ _
  · intro bits offset copy
    exact bits.executeIndexed_mirrors rfl offset copy _ _

/-- LD H,(IX+d): the byte is loaded into H itself, and comes from one below IX. -/
theorem load_indexed_into_h :
    let cpu : Cpu := Cpu.fresh.updateRegisters fun regs => { regs with ix := 0x8000 }
    let board := (Board.fresh.load 0x0000 [0xFF]).load 0x7FFF [0x5A]
    let loaded := (Operation.loadMemory .h).onBoard .ix cpu board
    loaded.cpu.registers.general.h = 0x5A ∧ loaded.cpu.registers.ix = 0x8000 ∧
      loaded.cpu.registers.wz = 0x7FFF := by
  intro cpu board loaded
  have same : (Operation.loadMemory .h).SameOperand .ix cpu board (board.poke 0x0000 0x5A) :=
    ⟨fun _ => by decide +kernel, nofun⟩
  obtain ⟨-, -, indexes, -, -⟩ := index_replaces_hl cpu board 0x66 (.loadMemory .h) (by decide)
  have indexed := indexes (by decide) _ same
  refine ⟨?_, indexed.unmoved, ?_⟩
  · rw [indexed.processor]
    decide +kernel
  · rw [indexed.processor]
    decide +kernel

end Operation

end Z80
