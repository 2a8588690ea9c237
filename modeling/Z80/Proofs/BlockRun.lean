import Z80.Proofs.Runs
import Z80.Proofs.Stored
import Z80.Proofs.Unread

/-!
# Runs of block instructions

A repeating block instruction is fetched anew for each of its rounds: one step takes its prefix
byte, and the next takes its opcode, does one round of the work and goes back if there is more to
do. A whole run is one round after the other, as long as the instruction still stands in memory.

## Main definitions

* `BlockOperation.opcode`: the second byte of a block instruction
* `BlockOperation.Stands`: the processor is about to begin a block instruction
* `BlockOperation.roundOn`: one round, as two steps make it
* `BlockOperation.Invariant`: a condition that holds between the rounds of a run
* `BlockOperation.far`, `BlockOperation.rounds`: where a round works, and how many there are

## Main results

* `BlockOperation.execute_round`: what all rounds have in common, whatever the bus answers
* `Exec.runOn_unlooped_round`: two steps of a run make a round
* `BlockOperation.nextUnlooped_of_rounds`: a whole run, from what one round preserves
-/

namespace Z80

open Exec

namespace BlockOperation

/-- The second byte of the instruction. -/
def opcode (operation : BlockOperation) : Byte :=
  let kind := match operation.action with
    | .transfer => 0
    | .compare => 1
    | .input => 2
    | .output => 3
  (if operation.repeats then 0xB0 else 0xA0) + (if operation.upward then 0 else 8) + kind

theorem role_opcode (operation : BlockOperation) :
    Page.extended.role operation.opcode = .instruction (.extended (.block operation)) := by
  obtain ⟨action, upward, repeats⟩ := operation
  cases action <;> cases upward <;> cases repeats <;> rfl

/-- The processor is on a boundary where it goes on with the block instruction at the program
counter. -/
structure Stands (operation : BlockOperation) (cpu : Cpu) (board : Board) : Prop where
  boundary : cpu.pending = none
  awake : cpu.halted = false
  undisturbed : cpu.nmiPending = false
  selector : board.memory.read cpu.registers.pc = 0xED
  opcode : board.memory.read (cpu.registers.pc + 1) = operation.opcode

/-- What every round of a block instruction has in common. It goes back to its first byte exactly if
it repeats, and notes that it did. -/
@[mk_iff]
structure Round (operation : BlockOperation) (before : Cpu) (repeating : Bool) (after : Cpu) :
    Prop where
  repeats : repeating = true → operation.repeats = true
  looping : after.looping = repeating
  pending : after.pending = before.pending
  halted : after.halted = before.halted
  nmiPending : after.nmiPending = before.nmiPending
  pc : after.registers.pc =
    if repeating then before.registers.pc - 2 else before.registers.pc
  r : after.registers.r = before.registers.r
  a : after.registers.a = before.registers.a

attribute [local simp] round_iff Registers.setHL Registers.setDE Registers.setBC Registers.a

/-- Whatever the bus answers, a block instruction makes a round. -/
theorem execute_round (operation : BlockOperation) (cpu : Cpu) :
    operation.execute.Always cpu fun _ repeating after => operation.Round cpu repeating after := by
  obtain ⟨action, upward, repeats⟩ := operation
  -- Whether the round repeats is decided on the way, and all branches agree with it.
  cases action <;> simp [execute, act, transfer, compare, input, output] <;> grind

/-- The end of a round: it goes back if it repeats, and writes the flags. -/
def conclude (repeating : Bool) (change : Flags → Byte → Option Byte → Flags) : Exec Bool := do
  let rewound ← rewind repeating
  writeFlags (change (← flags) (← registers).a rewound)
  return repeating

/-- The end of a round keeps the general registers, and it takes the flags from the high byte of the
instruction's address if it goes back there. -/
theorem runOn_conclude {σ : Type} (bus : Bus σ) (cpu : Cpu) (device : σ) (repeating : Bool)
    (change : Flags → Byte → Option Byte → Flags) :
    let run := runOn (conclude repeating change) bus cpu device
    let rewound := if repeating then some (Word.high (cpu.registers.pc - 2)) else none
    run.value = repeating ∧ run.device = device ∧
      run.cpu.registers.general = cpu.registers.general ∧
      run.cpu.registers.f = change cpu.registers.f cpu.registers.a rewound := by
  cases repeating with
  | true => exact ⟨rfl, rfl, rfl, rfl⟩
  | false => exact ⟨rfl, rfl, rfl, rfl⟩

end BlockOperation

/-! ### Two steps make a round -/

namespace Cpu

/-- The processor about to fetch the first byte of an instruction. -/
def begun (cpu : Cpu) : Cpu := beginInstruction { cpu.ready {} with suppressed := false }

/-- The processor once it has fetched the first byte of an extended instruction, with the step that
this takes. -/
def selected (cpu : Cpu) : Cpu :=
  { cpu.begun.fetched 0xED with pending := some .extended }.endStep 4

/-- The processor once it has fetched both bytes of an extended instruction. -/
def decoded (cpu : Cpu) (opcode : Byte) : Cpu :=
  { (cpu.selected.ready {}).fetched opcode with pending := none, lastOpcode := opcode }

/-- Fetching an instruction moves the program counter and the refresh counter only. -/
@[simp] theorem registers_decoded (cpu : Cpu) (opcode : Byte) :
    (cpu.decoded opcode).registers =
      { cpu.registers.refresh.refresh with pc := cpu.registers.pc + 1 + 1 } := rfl

/-- From behind the two bytes it is two back to the instruction. -/
theorem pc_decoded_sub_two (cpu : Cpu) (opcode : Byte) :
    (cpu.decoded opcode).registers.pc - 2 = cpu.registers.pc := by
  change cpu.registers.pc + 1 + 1 - 2 = _
  bv_omega

theorem data_decoded (cpu : Cpu) (opcode : Byte) :
    (cpu.decoded opcode).registers.general = cpu.registers.general ∧
      (cpu.decoded opcode).registers.accumulator = cpu.registers.accumulator := ⟨rfl, rfl⟩

/-- Without a signal it touches none of the latches that can hold the next instruction off. -/
theorem decoded_kept (cpu : Cpu) (opcode : Byte) :
    (cpu.decoded opcode).pending = none ∧ (cpu.decoded opcode).halted = cpu.halted ∧
      (cpu.decoded opcode).nmiPending = cpu.nmiPending := by
  simp [decoded, selected, begun, ready, fetched, beginStep, sampleNmi, endStep, beginInstruction,
    ageFlags]

/-- The end of a step keeps the registers and those latches. -/
theorem endStep_kept (cpu : Cpu) (tacts : Nat) :
    (cpu.endStep tacts).registers = cpu.registers ∧ (cpu.endStep tacts).pending = cpu.pending ∧
      (cpu.endStep tacts).halted = cpu.halted ∧
      (cpu.endStep tacts).nmiPending = cpu.nmiPending ∧
      (cpu.endStep tacts).looping = cpu.looping := ⟨rfl, rfl, rfl, rfl, rfl⟩

end Cpu

namespace BlockOperation

/-- The board after the two bytes of the instruction are fetched. -/
def fetchedFrom (pc : Word) (board : Board) : Board :=
  ((board.read pc .opcode).2.read (pc + 1) .opcode).2

@[simp] theorem memory_fetchedFrom (pc : Word) (board : Board) :
    (fetchedFrom pc board).memory = board.memory := by
  simp [fetchedFrom, Board.read]

@[simp] theorem ports_fetchedFrom (pc : Word) (board : Board) :
    (fetchedFrom pc board).ports = board.ports := by
  simp [fetchedFrom, Board.read]

@[simp] theorem outputs_fetchedFrom (pc : Word) (board : Board) :
    (fetchedFrom pc board).outputs = board.outputs := by
  simp [fetchedFrom, Board.read]

/-- One round of a block instruction, as two steps make it. -/
def roundOn (operation : BlockOperation) (cpu : Cpu) (board : Board) : Result Board Bool :=
  let executed := runOn operation.execute Board.bus (cpu.decoded operation.opcode)
    (fetchedFrom cpu.registers.pc board)
  { executed with cpu := executed.cpu.endStep (if executed.value then 17 else 12) }

/-- The end of the second step is outside the round and keeps what it did. -/
theorem roundOn_round (operation : BlockOperation) (cpu : Cpu) (board : Board) :
    operation.Round (cpu.decoded operation.opcode) (operation.roundOn cpu board).value
      (operation.roundOn cpu board).cpu := by
  have executed := (operation.execute_round (cpu.decoded operation.opcode)).onBus Board.bus
    (fetchedFrom cpu.registers.pc board)
  simpa only [roundOn, round_iff, Cpu.endStep_kept] using executed

/-- A round leaves the registers and the board as the action of the instruction leaves them. -/
theorem roundOn_eq_act (operation : BlockOperation) (cpu : Cpu) (board : Board) :
    let acted := runOn (operation.act cpu.registers.hl) Board.bus (cpu.decoded operation.opcode)
      (fetchedFrom cpu.registers.pc board)
    (operation.roundOn cpu board).value = acted.value ∧
      (operation.roundOn cpu board).cpu.registers = acted.cpu.registers ∧
      (operation.roundOn cpu board).device = acted.device := by
  have executed : runOn operation.execute Board.bus (cpu.decoded operation.opcode)
        (fetchedFrom cpu.registers.pc board) =
      let acted := runOn (operation.act cpu.registers.hl) Board.bus
        (cpu.decoded operation.opcode) (fetchedFrom cpu.registers.pc board)
      ⟨acted.value, { acted.cpu with looping := acted.value }, acted.device⟩ := by
    simp only [execute, runOn_bind, runOn_modify, runOn_pure]
    rfl
  rw [roundOn, executed]
  exact ⟨rfl, rfl, rfl⟩

end BlockOperation

namespace Exec

section Fetch

variable {σ : Type} {page : Page} {opcode : Byte} {bus : Bus σ} (cpu : Cpu) (device : σ)

theorem runOn_decode_selector (role : page.role opcode = .selector) (offset : Byte) :
    runOn (decode page offset opcode) bus cpu device =
      ⟨.selector page opcode, { cpu with pending := some (page.next opcode) }, device⟩ := by
  rw [decode, role]
  rfl

theorem runOn_decode_instruction {instruction : Instruction}
    (role : page.role opcode = .instruction instruction) (offset : Byte) :
    runOn (decode page offset opcode) bus cpu device =
      let executed := runOn (instruction.execute offset) bus
        { cpu with pending := none, lastOpcode := opcode } device
      ⟨.instruction page opcode executed.value, executed.cpu, executed.device⟩ := by
  rw [decode, role]
  simp

theorem runOn_fetchOpcode (board : Board) (stored : board.memory.read cpu.registers.pc = opcode) :
    runOn fetchOpcode Board.bus cpu board =
      ⟨opcode, cpu.fetched opcode, (board.read cpu.registers.pc .opcode).2⟩ := by
  subst stored
  rfl

end Fetch

section Round

variable {operation : BlockOperation} {cpu : Cpu} {board : Board}

/-- The first step of an extended instruction takes the prefix byte. -/
theorem runOn_step_selector (boundary : cpu.pending = none) (awake : cpu.halted = false)
    (undisturbed : cpu.nmiPending = false)
    (selector : board.memory.read cpu.registers.pc = 0xED) :
    runOn (step {}) Board.bus cpu board =
      ⟨.selector .main 0xED, cpu.selected, (board.read cpu.registers.pc .opcode).2⟩ := by
  have turn : (cpu.ready {}).turn {} = .begin := by
    rw [Cpu.turn_eq_begin_iff]
    simp [Cpu.ready, Cpu.beginStep, Cpu.sampleNmi, boundary, awake, undisturbed]
  have selects : Page.main.role 0xED = .selector := rfl
  have opened : runOn (perform cpu.looping .begin) Board.bus (cpu.ready {}) board =
      runOn (fetchOpcode >>= decode .main 0) Board.bus cpu.begun board := rfl
  rw [runOn_step, turn, opened, runOn_bind, runOn_fetchOpcode cpu.begun board selector]
  simp only [runOn_decode_selector _ _ selects]
  rfl

/-- The second step takes the opcode and runs the instruction. -/
theorem runOn_step_extended {opcode : Byte} {instruction : Instruction}
    (role : Page.extended.role opcode = .instruction instruction)
    (stored : board.memory.read (cpu.registers.pc + 1) = opcode) :
    runOn (step {}) Board.bus cpu.selected (board.read cpu.registers.pc .opcode).2 =
      let executed := runOn (instruction.execute 0) Board.bus (cpu.decoded opcode)
        (BlockOperation.fetchedFrom cpu.registers.pc board)
      let segment := Segment.instruction .extended opcode executed.value
      ⟨segment, executed.cpu.endStep segment.tacts, executed.device⟩ := by
  have stored : (board.read cpu.registers.pc .opcode).2.memory.read (cpu.registers.pc + 1) =
      opcode :=
    (congrArg (Memory.read · _) (Board.memory_record ..)).trans stored
  have turn : (cpu.selected.ready {}).turn {} = .proceed .extended := rfl
  have opened : runOn (perform cpu.selected.looping (.proceed .extended)) Board.bus
        (cpu.selected.ready {}) (board.read cpu.registers.pc .opcode).2 =
      runOn (fetchOpcode >>= decode .extended 0) Board.bus (cpu.selected.ready {})
        (board.read cpu.registers.pc .opcode).2 := rfl
  rw [runOn_step, turn, opened, runOn_bind, runOn_fetchOpcode (cpu.selected.ready {}) _ stored]
  simp only [runOn_decode_instruction _ _ role]
  rfl

/-- An extended block instruction takes sixteen tacts, four of them for its prefix byte, and five
more if it repeats. -/
theorem tacts_block (repeats : operation.repeats = true) (taken : Bool) :
    (Segment.instruction .extended operation.opcode taken).tacts = if taken then 17 else 12 := by
  simp only [Segment.tacts, Segment.entryTacts, Page.entry, Entry.tacts, Entry.extraTacts,
    operation.role_opcode]
  simp only [Instruction.tacts, Instruction.extraTacts, ExtendedOperation.tacts,
    ExtendedOperation.extraTacts, repeats]
  cases taken <;> rfl

/-- The second step of a round does its work. -/
theorem runOn_step_block (repeats : operation.repeats = true)
    (stands : operation.Stands cpu board) :
    runOn (step {}) Board.bus cpu.selected (board.read cpu.registers.pc .opcode).2 =
      let round := operation.roundOn cpu board
      ⟨.instruction .extended operation.opcode round.value, round.cpu, round.device⟩ := by
  rw [runOn_step_extended operation.role_opcode stands.opcode]
  simp only [tacts_block repeats]
  rfl

end Round

/-! ### Runs -/

/-- The rest of a run up to the next boundary outside a repeating block instruction, when no line is
asserted. -/
def unlooped (fuel spent : Nat) : Exec (Option Nat) :=
  drive (fun segment cpu => !segment.busy && !cpu.looping)
    (fun lines => { lines with int := false, reset := false }) addTacts fuel {} spent

theorem nextUnlooped_eq : nextUnlooped {} = (·.bind counted) <$> unlooped stepLimit 0 := rfl

theorem runOn_unlooped {σ : Type} (fuel spent : Nat) (bus : Bus σ) (cpu : Cpu) (device : σ) :
    runOn (unlooped (fuel + 1) spent) bus cpu device =
      let stepped := runOn (step {}) bus cpu device
      let spent := spent + stepped.value.tacts
      if !stepped.value.busy && !stepped.cpu.looping then
        ⟨some spent, stepped.cpu, stepped.device⟩
      else runOn (unlooped fuel spent) bus stepped.cpu stepped.device :=
  runOn_drive ..

variable {operation : BlockOperation} {cpu : Cpu} {board : Board}

/-- Two steps of a run make a round, and the run goes on exactly if the round repeats. -/
theorem runOn_unlooped_round (repeats : operation.repeats = true)
    (stands : operation.Stands cpu board) (fuel spent : Nat) :
    runOn (unlooped (fuel + 2) spent) Board.bus cpu board =
      let round := operation.roundOn cpu board
      if round.value then runOn (unlooped fuel (spent + 21)) Board.bus round.cpu round.device
      else ⟨some (spent + 16), round.cpu, round.device⟩ := by
  have looping := (operation.roundOn_round cpu board).looping
  rw [runOn_unlooped, runOn_step_selector stands.boundary stands.awake stands.undisturbed
    stands.selector]
  -- The prefix byte leaves the instruction open and takes four tacts.
  change runOn (unlooped (fuel + 1) (spent + 4)) Board.bus cpu.selected _ = _
  rw [runOn_unlooped, runOn_step_block repeats stands]
  simp only [tacts_block repeats, looping]
  cases (operation.roundOn cpu board).value with
  | true => rfl
  | false => rfl

end Exec

/-! ### Bytes that are written one after the other -/

namespace Memory

variable (memories : Nat → Memory) {places : Nat → Word} {bytes : Nat → Byte} {count : Nat}

/-- A byte stays as it is if all bytes that are written over it are the same. -/
theorem read_of_writes
    (writes : ∀ i, memories (i + 1) = (memories i).write (places i) (bytes i)) {address : Word}
    (spared : ∀ i < count, places i = address → bytes i = (memories 0).read address) :
    (memories count).read address = (memories 0).read address := by
  induction count with
  | zero => rfl
  | succ count ih =>
    rw [writes, read_write]
    split
    · next hit => exact spared count (Nat.lt_succ_self count) hit.symm
    · exact ih fun i below => spared i (Nat.lt_succ_of_lt below)

/-- A byte that is written stays if nothing is written over it later. -/
theorem read_written
    (writes : ∀ i, memories (i + 1) = (memories i).write (places i) (bytes i)) {i : Nat}
    (within : i < count) (apart : ∀ j < count, places j = places i → j = i) :
    (memories count).read (places i) = bytes i := by
  induction count with
  | zero => cases within
  | succ count ih =>
    rw [writes, read_write]
    split
    · next hit => rw [apart count (Nat.lt_succ_self count) hit.symm]
    · next missed =>
      have earlier : i ≠ count := by
        rintro rfl
        exact missed rfl
      exact ih (by omega) fun j below => apart j (Nat.lt_succ_of_lt below)

end Memory

/-! ### How far and how often -/

namespace BlockOperation

variable {width : Nat} {count : BitVec width} {i : Nat}

/-- The address, port or register some steps further on. -/
def far (operation : BlockOperation) (steps : Nat) (value : BitVec width) : BitVec width :=
  if operation.upward then value + BitVec.ofNat width steps else value - BitVec.ofNat width steps

@[simp] theorem far_zero (operation : BlockOperation) (value : BitVec width) :
    operation.far 0 value = value := by
  unfold far
  split <;> simp

theorem advance_far (operation : BlockOperation) (steps : Nat) (value : BitVec width) :
    operation.advance (operation.far steps value) = operation.far (steps + 1) value := by
  unfold advance far
  split
  · rw [BitVec.ofNat_add, ← BitVec.add_assoc]
    rfl
  · rw [BitVec.ofNat_add, ← BitVec.sub_sub]
    rfl

/-- Within once around, different steps lead to different places. -/
theorem far_inj (operation : BlockOperation) (value : BitVec width) {i j : Nat}
    (first : i < 2 ^ width) (second : j < 2 ^ width)
    (same : operation.far i value = operation.far j value) : i = j := by
  have steps : BitVec.ofNat width i = BitVec.ofNat width j := by
    unfold far at same
    split at same
    · exact (BitVec.add_right_inj value).mp same
    · exact (BitVec.sub_right_inj value).mp same
  have numbers := congrArg BitVec.toNat steps
  rwa [BitVec.toNat_ofNat, BitVec.toNat_ofNat, Nat.mod_eq_of_lt first,
    Nat.mod_eq_of_lt second] at numbers

/-- How many rounds a count stands for: an empty count goes once around. -/
def rounds (count : BitVec width) : Nat := if count = 0 then 2 ^ width else count.toNat

theorem rounds_pos (count : BitVec width) : 0 < rounds count := by
  unfold rounds
  split
  · exact Nat.two_pow_pos width
  · next filled =>
    apply Nat.pos_of_ne_zero
    intro empty
    exact filled (BitVec.eq_of_toNat_eq (by simpa using empty))

theorem rounds_le (count : BitVec width) : rounds count ≤ 2 ^ width := by
  unfold rounds
  split
  · exact Nat.le_refl _
  · exact Nat.le_of_lt count.isLt

/-- Counting down through all rounds gets back to zero. -/
theorem ofNat_rounds (count : BitVec width) : BitVec.ofNat width (rounds count) = count := by
  apply BitVec.eq_of_toNat_eq
  unfold rounds
  split
  · next empty =>
    rw [empty, BitVec.toNat_ofNat, Nat.mod_self]
    simp
  · next filled => rw [BitVec.toNat_ofNat, Nat.mod_eq_of_lt count.isLt]

theorem sub_one_sub (count : BitVec width) (i : Nat) :
    count - BitVec.ofNat width i - 1 = count - BitVec.ofNat width (i + 1) := by
  rw [BitVec.ofNat_add, ← BitVec.sub_sub]
  rfl

/-- The count runs out with the last round and not before. -/
theorem sub_eq_zero_iff (within : i < rounds count) :
    count - BitVec.ofNat width (i + 1) = 0 ↔ i + 1 = rounds count := by
  rw [BitVec.sub_eq_iff_eq_add]
  constructor
  · intro same
    have value : count.toNat = (i + 1) % 2 ^ width := by
      rw [same]
      simp
    rcases Nat.lt_or_ge (i + 1) (2 ^ width) with small | full
    · rw [Nat.mod_eq_of_lt small] at value
      have filled : count ≠ 0 := by
        rintro rfl
        simp at value
      rw [rounds, if_neg filled, value]
    · exact Nat.le_antisymm within (Nat.le_trans (rounds_le count) full)
  · intro last
    rw [last, ofNat_rounds]
    simp

/-! ### From one round to a run -/

/-- A condition that holds between the rounds of a run: under it the instruction stands where the
run began, every round but the last preserves it and repeats, and the last one leaves the result. -/
structure Invariant (operation : BlockOperation) (start : Cpu) (last : Nat)
    (condition : Nat → Cpu → Board → Prop) (result : Cpu → Board → Prop) : Prop where
  selector : ∀ i ≤ last, ∀ cpu board, condition i cpu board →
    board.memory.read start.registers.pc = 0xED
  opcode : ∀ i ≤ last, ∀ cpu board, condition i cpu board →
    board.memory.read (start.registers.pc + 1) = operation.opcode
  again : ∀ i < last, ∀ cpu board, cpu.registers.a = start.registers.a → condition i cpu board →
    (operation.roundOn cpu board).value = true ∧
      condition (i + 1) (operation.roundOn cpu board).cpu (operation.roundOn cpu board).device
  done : ∀ cpu board, cpu.registers.a = start.registers.a → condition last cpu board →
    (operation.roundOn cpu board).value = false ∧
      result (operation.roundOn cpu board).cpu (operation.roundOn cpu board).device

/-- What a processor shows after some rounds, whatever they work on: the accumulator is as it was,
and the refresh counter has counted two fetches for each round. -/
structure Paced (start : Cpu) (count : Nat) (after : Cpu) : Prop where
  a : after.registers.a = start.registers.a
  r : after.registers.r.setWidth 7 = start.registers.r.setWidth 7 + BitVec.ofNat 7 (2 * count)

section Run

variable {operation : BlockOperation} {start cpu : Cpu} {board : Board} {i last : Nat}
  {condition : Nat → Cpu → Board → Prop} {result : Cpu → Board → Prop}

theorem Paced.round (paced : Paced start i cpu) :
    Paced start (i + 1) (operation.roundOn cpu board).cpu := by
  have round := operation.roundOn_round cpu board
  constructor
  · exact round.a.trans paced.a
  · rw [round.r, Cpu.registers_decoded]
    change cpu.registers.refresh.refresh.r.setWidth 7 = _
    rw [Registers.setWidth_r_refresh, Registers.setWidth_r_refresh, paced.r, Nat.mul_add,
      BitVec.ofNat_add, ← BitVec.add_assoc, BitVec.add_assoc]
    rfl

/-- After a round that repeats, the instruction stands again. -/
theorem Stands.again (stands : operation.Stands cpu board)
    (repeating : (operation.roundOn cpu board).value = true)
    (selector : (operation.roundOn cpu board).device.memory.read cpu.registers.pc = 0xED)
    (opcode : (operation.roundOn cpu board).device.memory.read (cpu.registers.pc + 1) =
      operation.opcode) :
    (operation.roundOn cpu board).cpu.registers.pc = cpu.registers.pc ∧
      operation.Stands (operation.roundOn cpu board).cpu (operation.roundOn cpu board).device := by
  obtain ⟨-, -, pending, halted, nmiPending, pc, -, -⟩ := operation.roundOn_round cpu board
  obtain ⟨boundary, awake, undisturbed⟩ := cpu.decoded_kept operation.opcode
  have back : (operation.roundOn cpu board).cpu.registers.pc = cpu.registers.pc := by
    rw [pc, if_pos repeating, Cpu.pc_decoded_sub_two]
  refine ⟨back, ?_, ?_, ?_, ?_, ?_⟩
  · rw [pending, boundary]
  · rw [halted, awake, stands.awake]
  · rw [nmiPending, undisturbed, stands.undisturbed]
  · rw [back, selector]
  · rw [back, opcode]

/-- A run whose invariant holds takes twenty-one tacts for each round but the last and sixteen for
the last one. -/
theorem unlooped_of_rounds (repeats : operation.repeats = true)
    (invariant : operation.Invariant start last condition result) (left : Nat)
    (sum : i + left = last) (fuel spent : Nat) (enough : 2 * left + 2 ≤ fuel)
    (stands : operation.Stands cpu board) (pc : cpu.registers.pc = start.registers.pc)
    (paced : Paced start i cpu) (holds : condition i cpu board) :
    let run := runOn (unlooped fuel spent) Board.bus cpu board
    run.value = some (spent + (21 * left + 16)) ∧
      run.cpu.registers.pc = start.registers.pc + 2 ∧ Paced start (last + 1) run.cpu ∧
      result run.cpu run.device := by
  -- The induction is on the rounds that are left, and each takes two steps of the fuel.
  induction left generalizing i cpu board fuel spent with
  | zero =>
    obtain ⟨fuel, rfl⟩ : ∃ more, fuel = more + 2 := ⟨fuel - 2, by omega⟩
    obtain rfl : i = last := sum
    obtain ⟨ended, done⟩ := invariant.done cpu board paced.a holds
    have behind : (operation.roundOn cpu board).cpu.registers.pc = start.registers.pc + 2 := by
      rw [(operation.roundOn_round cpu board).pc, ended, Cpu.registers_decoded, ← pc]
      change cpu.registers.pc + 1 + 1 = _
      bv_omega
    rw [runOn_unlooped_round repeats stands]
    simp only [ended, Bool.false_eq_true, if_false]
    exact ⟨trivial, behind, paced.round, done⟩
  | succ left ih =>
    obtain ⟨fuel, rfl⟩ : ∃ more, fuel = more + 2 := ⟨fuel - 2, by omega⟩
    obtain ⟨again, next⟩ := invariant.again i (by omega) cpu board paced.a holds
    -- The condition has the instruction stand where it was fetched from.
    have selector := invariant.selector (i + 1) (by omega) _ _ next
    have opcode := invariant.opcode (i + 1) (by omega) _ _ next
    rw [← pc] at selector opcode
    obtain ⟨back, standing⟩ := stands.again again selector opcode
    have rest := ih (by omega) fuel (spent + 21) (by omega) standing (back.trans pc) paced.round
      next
    have time : spent + 21 + (21 * left + 16) = spent + (21 * (left + 1) + 16) := by omega
    rw [runOn_unlooped_round repeats stands]
    simp only [again, if_true, ← time]
    exact rest

/-- A whole run of a block instruction, from a condition that its rounds preserve. -/
theorem nextUnlooped_of_rounds (repeats : operation.repeats = true)
    (invariant : operation.Invariant start last condition result) (short : last < 2 ^ 27)
    (stands : operation.Stands start board) (begins : condition 0 start board) :
    let run := runOn (nextUnlooped {}) Board.bus start board
    run.value = some (21 * last + 16) ∧ run.cpu.registers.pc = start.registers.pc + 2 ∧
      Paced start (last + 1) run.cpu ∧ result run.cpu run.device := by
  have enough : 2 * last + 2 ≤ stepLimit := by
    have limit : stepLimit = 2 ^ 32 := rfl
    omega
  have paced : Paced start 0 start := ⟨rfl, by simp⟩
  have fits : 21 * last + 16 < 2 ^ 32 := by omega
  obtain ⟨value, rest⟩ := unlooped_of_rounds repeats invariant last (Nat.zero_add last) stepLimit 0
    enough stands rfl paced begins
  rw [Nat.zero_add] at value
  simp only [nextUnlooped_eq, runOn_map, value, Option.bind_some, counted_of_lt fits]
  exact ⟨trivial, rest⟩

end Run

end BlockOperation

end Z80
