import Z80.Proofs.Ageing
import Z80.Proofs.Renamed

/-!
# Operations on the bits of an indexed byte

An opcode behind an offset names an operation and, in the field where the plain opcode has its
operand, a register. The operand is the indexed byte all the same. What is stored there is copied
into the register besides, and that is the real one even if it is called H or L. A test stores
nothing, so all its eight opcodes do the same.

## Main definitions

* `Opcode.inMemory`: the opcode whose operand field names memory
* `BitOperation.result`, `BitOperation.verdict`: what an operation stores, and the flags it writes
* `Copies`: a run that does what another does and copies a byte into a register

## Main results

* `Instruction.onBoard_indexed`: an operation on an indexed byte
* `Instruction.onBoard_copies`: what the register field adds
* `Instruction.onBoard_register`: what the same operation does with the byte in a register
* `Page.indexed_bits_copy`: all of this for the opcodes
-/

namespace Z80

open Exec

/-! ### Opcodes -/

/-- The opcode with memory in its operand field. -/
def Opcode.inMemory (opcode : Byte) : Byte := (opcode &&& 0xF8) ||| 0x06

theorem Opcode.inMemory_fields (opcode : Byte) :
    Opcode.group (Opcode.inMemory opcode) = Opcode.group opcode ∧
      Opcode.target (Opcode.inMemory opcode) = Opcode.target opcode ∧
      Place.ofField (Opcode.source (Opcode.inMemory opcode)) = .memory := by
  revert opcode
  decide +kernel

/-- The register that an offset moves. -/
def Page.index : Page → Index
  | .ix | .ixBits => .ix
  | .iy | .iyBits => .iy
  | .main | .bits | .extended => .hl

theorem Page.role_of_displaced {page : Page} (displaced : page.displacementFirst = true)
    (opcode : Byte) :
    page.role opcode = .instruction (.indexedBits page.index (.ofOpcode opcode)
      (Place.ofField (Opcode.source opcode)).register?) := by
  cases page with
  | ixBits | iyBits => rfl
  | _ => cases displaced

theorem Page.role_bits (opcode : Byte) :
    Page.bits.role opcode =
      .instruction (.bits (.ofOpcode opcode) (.ofField (Opcode.source opcode))) := rfl

namespace BitOperation

/-- The group and the target are all that an operation is read off. -/
theorem ofOpcode_congr {opcode other : Byte} (group : Opcode.group other = Opcode.group opcode)
    (target : Opcode.target other = Opcode.target opcode) : ofOpcode other = ofOpcode opcode := by
  rw [ofOpcode, ofOpcode, group, target]

/-- The operation stores a byte. -/
def stores : BitOperation → Bool
  | .test _ => false
  | _ => true

theorem stores_ofOpcode (opcode : Byte) :
    (ofOpcode opcode).stores = true ↔ Opcode.group opcode ≠ 1 := by
  revert opcode
  decide +kernel

theorem ofOpcode_of_test {opcode : Byte} (group : Opcode.group opcode = 1) :
    ofOpcode opcode = .test (Opcode.target opcode) := by
  rw [ofOpcode, group]
  rfl

/-- The byte that an operation stores. -/
def result (operation : BitOperation) (value : Byte) (flags : Flags) : Option Byte :=
  match operation with
  | .shift kind => some (Arithmetic.shift kind value flags.c).value
  | .test _ => none
  | .reset bit => some (Arithmetic.resetBit bit value)
  | .set bit => some (Arithmetic.setBit bit value)

/-- The flags that an operation writes. -/
def verdict (operation : BitOperation) (value source : Byte) (flags : Flags) : Option Flags :=
  match operation with
  | .shift kind => some (Arithmetic.shift kind value flags.c).flags
  | .test bit => some (Arithmetic.testBit bit value source flags)
  | .reset _ | .set _ => none

section Stores

variable {operation : BitOperation} (stores : operation.stores = true)

include stores

theorem exists_result (value : Byte) (flags : Flags) :
    ∃ stored, operation.result value flags = some stored := by
  cases operation with
  | test => cases stores
  | _ => exact ⟨_, rfl⟩

/-- Only a test looks at where its byte comes from. -/
theorem verdict_congr (value source other : Byte) (flags : Flags) :
    operation.verdict value source flags = operation.verdict value other flags := by
  cases operation with
  | test => cases stores
  | _ => rfl

end Stores

end BitOperation

/-! ### Processors -/

namespace Cpu

variable (cpu : Cpu) (flags : Option Flags) (copy : Option Reg) (byte : Byte)

/-- The processor with an address latched. -/
def latched (address : Word) : Cpu := cpu.updateRegisters fun regs => { regs with wz := address }

/-- The processor once an operation has written its flags, if it writes any. -/
def judged : Option Flags → Cpu
  | some flags => { cpu.updateRegisters (·.setF flags) with written := flags }
  | none => cpu

/-- The processor with a byte copied into a register, if one is named. -/
def copied (copy : Option Reg) (byte : Byte) : Cpu :=
  match copy with
  | some register => cpu.updateRegisters (·.setReg .hl register byte)
  | none => cpu

@[simp] theorem judged_kept :
    (cpu.judged flags).registers.wz = cpu.registers.wz ∧
      (cpu.judged flags).registers.ix = cpu.registers.ix ∧
      (cpu.judged flags).registers.iy = cpu.registers.iy := by
  cases flags <;> exact ⟨rfl, rfl, rfl⟩

theorem f_judged : (cpu.judged flags).registers.f = flags.getD cpu.registers.f := by
  cases flags <;> rfl

/-- To copy a byte is to write one real register at most. -/
@[simp] theorem copied_kept :
    (cpu.copied copy byte).registers.wz = cpu.registers.wz ∧
      (cpu.copied copy byte).registers.ix = cpu.registers.ix ∧
      (cpu.copied copy byte).registers.iy = cpu.registers.iy := by
  rcases copy with _ | _ | _ | _ | _ | _ | _ | _ <;> exact ⟨rfl, rfl, rfl⟩

theorem f_copied : (cpu.copied copy byte).registers.f = cpu.registers.f := by
  cases copy with
  | none => rfl
  | some register => exact Registers.f_setReg ..

end Cpu

@[simp] theorem Registers.reg_setReg (regs : Registers) (register : Reg) (byte : Byte) :
    (regs.setReg .hl register byte).reg .hl register = byte := by
  cases register <;>
    simp [setReg, reg, setIndex, index, setHL, General.setHL, hl, General.hl, Word.withHigh,
      Word.withLow, setA]

/-! ### Runs -/

/-- A run that does what another does, and copies the byte at an address into a register. -/
structure Copies (plain run : Result Board Bool) (register : Reg) (address : Word) : Prop where
  value : run.value = plain.value
  device : run.device = plain.device
  cpu : run.cpu = plain.cpu.updateRegisters (·.setReg .hl register (run.device.peek address))
  copied : run.cpu.registers.reg .hl register = run.device.peek address
  flags : run.cpu.registers.f = plain.cpu.registers.f

namespace Instruction

/-- An instruction on a board. -/
def onBoard (instruction : Instruction) (offset : Byte) (cpu : Cpu) (board : Board) :
    Result Board Bool :=
  runOn (instruction.execute offset) Board.bus cpu board

/-- The calls that it makes. -/
def callsOnBoard (instruction : Instruction) (offset : Byte) (cpu : Cpu) (board : Board) :
    List Exchange :=
  callsOn (instruction.execute offset) Board.bus cpu board

variable (cpu : Cpu) (board : Board) (offset : Byte) (index : Index) (operation : BitOperation)
  (copy : Option Reg) (register : Reg)

/-- An operation on a register works on the byte that it holds. -/
theorem onBoard_bits :
    let value := cpu.registers.reg .hl register
    let judged := cpu.judged (operation.verdict value value cpu.registers.f)
    (Instruction.bits operation (.register register)).onBoard offset cpu board =
      match operation.result value cpu.registers.f with
      | some stored => ⟨false, judged.copied (some register) stored, board⟩
      | none => ⟨false, judged, board⟩ := by
  cases operation <;> rfl

/-- An operation on an indexed byte reads it at the address that is latched, and what is stored goes
back there. -/
theorem onBoard_indexed :
    let address := Word.displaced (cpu.registers.index index) offset
    let value := board.peek address
    let seen := (Board.bus.read address .data board).2
    let judged := (cpu.latched address).judged
      (operation.verdict value (Word.high address) cpu.registers.f)
    (Instruction.indexedBits index operation copy).onBoard offset cpu board =
      match operation.result value cpu.registers.f with
      | some stored => ⟨false, judged.copied copy stored, Board.bus.write address stored seen⟩
      | none => ⟨false, judged, seen⟩ := by
  cases operation <;> cases copy <;> cases index <;> rfl

/-- The calls do not depend on the register that is copied into. -/
theorem callsOnBoard_indexed :
    let base := cpu.registers.index index
    let address := Word.displaced base offset
    let value := board.peek address
    (Instruction.indexedBits index operation copy).callsOnBoard offset cpu board =
      ⟨.pointer index.toSource base, base⟩ :: ⟨.read address .data, value⟩ ::
        (operation.result value cpu.registers.f).toList.map fun stored =>
          ⟨.write address stored, ()⟩ := by
  cases operation <;> cases copy <;> cases index <;> rfl

/-- The address is latched, and no index register is written. -/
theorem onBoard_kept :
    let run := (Instruction.indexedBits index operation copy).onBoard offset cpu board
    run.cpu.registers.wz = Word.displaced (cpu.registers.index index) offset ∧
      run.cpu.registers.ix = cpu.registers.ix ∧ run.cpu.registers.iy = cpu.registers.iy := by
  intro run
  simp only [run, onBoard_indexed]
  cases operation.result _ cpu.registers.f <;> simp [Cpu.latched]

/-- A test stores nothing, so there is nothing to copy. -/
theorem onBoard_test (bit : BitVec 3) :
    let address := Word.displaced (cpu.registers.index index) offset
    let run := (Instruction.indexedBits index (.test bit) copy).onBoard offset cpu board
    run = (Instruction.indexedBits index (.test bit) none).onBoard offset cpu board ∧
      run.device.memory = board.memory ∧
      run.cpu.registers.f =
        Arithmetic.testBit bit (board.peek address) (Word.high address) cpu.registers.f := by
  refine ⟨rfl, ?_, ?_⟩
  · exact Board.memory_record ..
  · rw [onBoard_indexed]
    exact Cpu.f_judged ..

section Stores

variable {operation} (stores : operation.stores = true)

include stores

/-- What is stored is copied as well. -/
theorem onBoard_copies :
    Copies ((Instruction.indexedBits index operation none).onBoard offset cpu board)
      ((Instruction.indexedBits index operation (some register)).onBoard offset cpu board) register
      (Word.displaced (cpu.registers.index index) offset) := by
  obtain ⟨stored, found⟩ := BitOperation.exists_result stores
    (board.peek (Word.displaced (cpu.registers.index index) offset)) cpu.registers.f
  have plain := onBoard_indexed cpu board offset index operation none
  have run := onBoard_indexed cpu board offset index operation (some register)
  simp only [found] at plain run
  constructor <;> simp [plain, run, Cpu.copied, Registers.f, Registers.accumulator_f_setReg]

/-- The same operation on a register that holds the byte leaves there what is stored, and the same
flags. -/
theorem onBoard_register :
    let address := Word.displaced (cpu.registers.index index) offset
    let run := (Instruction.indexedBits index operation copy).onBoard offset cpu board
    let holding := cpu.updateRegisters (·.setReg .hl register (board.peek address))
    let direct := (Instruction.bits operation (.register register)).onBoard 0 holding board
    direct.cpu.registers.reg .hl register = run.device.peek address ∧
      direct.cpu.registers.f = run.cpu.registers.f := by
  intro address run holding direct
  have held : holding.registers.reg .hl register = board.peek address := Registers.reg_setReg ..
  have same : holding.registers.f = cpu.registers.f := Registers.f_setReg ..
  obtain ⟨stored, found⟩ :=
    BitOperation.exists_result stores (board.peek address) cpu.registers.f
  have indexed := onBoard_indexed cpu board offset index operation copy
  have plain := onBoard_bits holding board 0 operation register
  simp only [held, same, found] at plain
  simp only [address] at found
  simp only [found] at indexed
  simp only [direct, run, plain, indexed]
  constructor
  · rw [Board.peek_write]
    exact Registers.reg_setReg ..
  · rw [Cpu.f_copied, Cpu.f_copied, Cpu.f_judged, Cpu.f_judged,
      BitOperation.verdict_congr stores _ _ (Word.high address), same]
    rfl

end Stores

end Instruction

/-- Behind an offset, an opcode whose operand field names a register makes the calls of the one
whose field names memory and latches the same address. A test does nothing else: it leaves memory
as it is and takes the two undocumented flags from the high byte of the address. Any other opcode
copies the byte that it stores into the register, the real one, and differs in nothing else; and
that byte and the flags are those of the same operation on a register that holds the byte read. -/
theorem Page.indexed_bits_copy (cpu : Cpu) (board : Board) (offset opcode : Byte) {page : Page}
    (displaced : page.displacementFirst = true) :
    ∃ instruction plain, page.role opcode = .instruction instruction ∧
      page.role (Opcode.inMemory opcode) = .instruction plain ∧
      let base := cpu.registers.index page.index
      let address := Word.displaced base offset
      let run := instruction.onBoard offset cpu board
      let plainRun := plain.onBoard offset cpu board
      instruction.callsOnBoard offset cpu board = plain.callsOnBoard offset cpu board ∧
        run.cpu.registers.wz = address ∧
        run.cpu.registers.ix = cpu.registers.ix ∧ run.cpu.registers.iy = cpu.registers.iy ∧
        (Opcode.group opcode = 1 →
          run = plainRun ∧ run.device.memory = board.memory ∧
            instruction.callsOnBoard offset cpu board =
              [⟨.pointer page.index.toSource base, base⟩,
                ⟨.read address .data, board.peek address⟩] ∧
            run.cpu.registers.f.y = (Word.high address).getLsbD 5 ∧
            run.cpu.registers.f.x = (Word.high address).getLsbD 3) ∧
        (Opcode.group opcode ≠ 1 → ∀ register : Reg,
          (Place.ofField (Opcode.source opcode) = .register register →
            Copies plainRun run register address) ∧
          ∀ (other : Byte) (form : Instruction), Page.bits.role other = .instruction form →
            Opcode.group other = Opcode.group opcode → Opcode.target other = Opcode.target opcode →
            Place.ofField (Opcode.source other) = .register register →
              let holding := cpu.updateRegisters (·.setReg .hl register (board.peek address))
              let direct := form.onBoard 0 holding board
              direct.cpu.registers.reg .hl register = run.device.peek address ∧
                direct.cpu.registers.f = run.cpu.registers.f) := by
  obtain ⟨group, target, field⟩ := Opcode.inMemory_fields opcode
  have memory : page.role (Opcode.inMemory opcode) =
      .instruction (.indexedBits page.index (.ofOpcode opcode) none) := by
    rw [role_of_displaced displaced, BitOperation.ofOpcode_congr group target, field]
    rfl
  refine ⟨_, _, role_of_displaced displaced opcode, memory, ?_⟩
  intro base address run plainRun
  obtain ⟨latched, ix, iy⟩ := Instruction.onBoard_kept cpu board offset page.index
    (.ofOpcode opcode) (Place.ofField (Opcode.source opcode)).register?
  refine ⟨?_, latched, ix, iy, ?_, ?_⟩
  · rw [Instruction.callsOnBoard_indexed, Instruction.callsOnBoard_indexed]
  · intro test
    have tests := BitOperation.ofOpcode_of_test test
    obtain ⟨same, kept, flags⟩ := Instruction.onBoard_test cpu board offset page.index
      (Place.ofField (Opcode.source opcode)).register? (Opcode.target opcode)
    simp only [run, plainRun, tests]
    refine ⟨same, kept, Instruction.callsOnBoard_indexed .., ?_, ?_⟩
    · rw [flags]
      rfl
    · rw [flags]
      rfl
  · intro other register
    have stores := (BitOperation.stores_ofOpcode opcode).mpr other
    constructor
    · intro named
      simp only [run, plainRun, named]
      exact Instruction.onBoard_copies cpu board offset page.index register stores
    · intro second form bits group target named holding direct
      have operation := BitOperation.ofOpcode_congr group target
      rw [role_bits, operation, named] at bits
      obtain rfl := Role.instruction.inj bits
      exact Instruction.onBoard_register cpu board offset page.index _ register stores

/-- SET 0,(IX-2),H at the top of memory: the byte is copied into H itself. -/
theorem Page.indexed_set_into_h :
    let cpu := Cpu.fresh.updateRegisters fun regs => { regs with ix := 0x0001 }
    let board := Board.fresh.load 0xFFFF [0x80]
    let run := (Instruction.indexedBits .ix (.set 0) (some .h)).onBoard 0xFE cpu board
    run.device.peek 0xFFFF = 0x81 ∧ run.cpu.registers.reg .hl .h = 0x81 ∧
      run.cpu.registers.ix = 0x0001 ∧ run.cpu.registers.wz = 0xFFFF := by
  intro cpu board run
  have role : Page.ixBits.role 0xC4 = .instruction (.indexedBits .ix (.set 0) (some .h)) := rfl
  have displaced : Page.ixBits.displacementFirst = true := rfl
  obtain ⟨instruction, plain, meant, -, -, latched, ix, -, -, stores⟩ :=
    Page.indexed_bits_copy cpu board 0xFE 0xC4 displaced
  obtain rfl := Role.instruction.inj (role.symm.trans meant)
  have copies := (stores (by decide) .h).1 rfl
  have address : Word.displaced (cpu.registers.index Page.ixBits.index) 0xFE = 0xFFFF := by decide
  have stored : run.device.peek 0xFFFF = 0x81 := by decide +kernel
  rw [address] at latched copies
  exact ⟨stored, copies.copied.trans stored, ix, latched⟩

end Z80
