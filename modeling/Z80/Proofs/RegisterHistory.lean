import Mathlib.Data.List.Induction
import Z80.Proofs.RegisterViews

/-!
# The register file as a store of bytes

What can be read of the register file is a choice of views of the same bytes: the halves of the
pairs in their banks, the halves of the registers that are in one bank only, and I and R. Writes
store bytes, exchanges move them from bank to bank, and a refresh counts R up. So every view shows
what the last operation left there that reached one of its bytes, however the operations before it
overlapped.

## Main definitions

* `Cell`: a byte of the register file; `ByteRegister.cell` and `WordRegister.cell` are the views
* `RegisterOperation`: what is done with the register file
* `RegisterOperation.leaves`: what an operation leaves in a cell
* `RegisterOperation.Reaches`: the cells that an operation is about
* `Cell.content`: what operations one after the other left in a cell

## Main results

* `RegisterOperation.cell_apply`: an operation leaves in each cell what `leaves` says
* `RegisterOperation.leaves_of_not_reaches`: and what was there where it is not about the cell
* `Cell.content_of_stores`: what was stored in a cell stays until an operation is about the cell
* `Registers.views_consistent`: what all views show after any operations
-/

namespace Z80

/-! ### Cells -/

/-- A pair that is in both banks. -/
inductive BankedPair where
  | af | bc | de | hl
deriving DecidableEq

/-- A register of two bytes that is in one bank only. -/
inductive SinglePair where
  | ix | iy | sp | pc | wz
deriving DecidableEq

/-- A half of a word. -/
inductive Half where
  | high | low
deriving DecidableEq

/-- A byte that the register file stores. -/
inductive Cell where
  | banked (pair : BankedPair) (bank : Bank) (half : Half)
  | single (pair : SinglePair) (half : Half)
  | i
  | r
deriving DecidableEq

/-- The half of the word. -/
def Half.of : Half → Word → Byte
  | .high => Word.high
  | .low => Word.low

/-- The cell that a word register has for one of its halves. -/
def WordRegister.cell (register : WordRegister) (bank : Bank) : Half → Cell :=
  match register with
  | .af => .banked .af bank
  | .bc => .banked .bc bank
  | .de => .banked .de bank
  | .hl => .banked .hl bank
  | .ix => .single .ix
  | .iy => .single .iy
  | .sp => .single .sp
  | .pc => .single .pc
  | .wz => .single .wz

/-- The cell that a byte register is. -/
def ByteRegister.cell (register : ByteRegister) (bank : Bank) : Cell :=
  match register with
  | .a => .banked .af bank .high
  | .f => .banked .af bank .low
  | .b => .banked .bc bank .high
  | .c => .banked .bc bank .low
  | .d => .banked .de bank .high
  | .e => .banked .de bank .low
  | .h => .banked .hl bank .high
  | .l => .banked .hl bank .low
  | .ixh => .single .ix .high
  | .ixl => .single .ix .low
  | .iyh => .single .iy .high
  | .iyl => .single .iy .low
  | .i => .i
  | .r => .r

/-- The word register that a pair is. -/
def BankedPair.register : BankedPair → WordRegister
  | .af => .af
  | .bc => .bc
  | .de => .de
  | .hl => .hl

/-- The word register that a pair is. -/
def SinglePair.register : SinglePair → WordRegister
  | .ix => .ix
  | .iy => .iy
  | .sp => .sp
  | .pc => .pc
  | .wz => .wz

/-- The byte in a cell. -/
def Registers.cell (regs : Registers) : Cell → Byte
  | .banked pair bank half => half.of (regs.getWord pair.register bank)
  | .single pair half => half.of (regs.getWord pair.register .main)
  | .i => regs.i
  | .r => regs.r

namespace Registers

/-- A byte register shows its cell. -/
theorem getByte_eq_cell (regs : Registers) (register : ByteRegister) (bank : Bank) :
    regs.getByte register bank = regs.cell (register.cell bank) := by
  cases register <;>
    simp [getByte, cell, ByteRegister.cell, Half.of, getWord, BankedPair.register,
      SinglePair.register, Accumulator.af, General.bc, General.de, General.hl]

/-- A word register shows its two cells. -/
theorem getWord_eq_cells (regs : Registers) (register : WordRegister) (bank : Bank) :
    regs.getWord register bank =
      Word.ofBytes (regs.cell (register.cell bank .high))
        (regs.cell (register.cell bank .low)) := by
  cases register <;> exact (Word.ofBytes_high_low _).symm

end Registers

/-! ### Operations -/

/-- What is done with the register file. -/
inductive RegisterOperation where
  | setByte (register : ByteRegister) (bank : Bank) (byte : Byte)
  | setWord (register : WordRegister) (bank : Bank) (word : Word)
  | setAF (word : Word)
  | setBC (word : Word)
  | setDE (word : Word)
  | setHL (word : Word)
  | swapAccumulator
  | swapGeneral
  | refresh

namespace RegisterOperation

/-- Do it. -/
def apply (operation : RegisterOperation) (regs : Registers) : Registers :=
  match operation with
  | .setByte register bank byte => regs.setByte register bank byte
  | .setWord register bank word => regs.setWord register bank word
  | .setAF word => regs.setAF word
  | .setBC word => regs.setBC word
  | .setDE word => regs.setDE word
  | .setHL word => regs.setHL word
  | .swapAccumulator => regs.swapAccumulator
  | .swapGeneral => regs.swapGeneral
  | .refresh => regs.refresh

/-- What a word stores in a cell: its high byte in the first cell of the register, and its low byte
in the second. -/
def storesWord (register : WordRegister) (bank : Bank) (word : Word) (cell : Cell) : Option Byte :=
  if cell = register.cell bank .high then some (Word.high word)
  else if cell = register.cell bank .low then some (Word.low word)
  else none

/-- What an operation stores in a cell. -/
def stores (operation : RegisterOperation) (cell : Cell) : Option Byte :=
  match operation with
  | .setByte register bank byte => if cell = register.cell bank then some byte else none
  | .setWord register bank word => storesWord register bank word cell
  | .setAF word => storesWord .af .main word cell
  | .setBC word => storesWord .bc .main word cell
  | .setDE word => storesWord .de .main word cell
  | .setHL word => storesWord .hl .main word cell
  | .swapAccumulator | .swapGeneral | .refresh => none

/-- The cell from which an operation fills a cell that it stores nothing in. -/
def source : RegisterOperation → Cell → Cell
  | .swapAccumulator, .banked .af bank half => .banked .af bank.other half
  | .swapGeneral, .banked .bc bank half => .banked .bc bank.other half
  | .swapGeneral, .banked .de bank half => .banked .de bank.other half
  | .swapGeneral, .banked .hl bank half => .banked .hl bank.other half
  | _, cell => cell

/-- The byte after a refresh: the low seven bits count up, and the top bit stays. -/
def counted (byte : Byte) : Byte :=
  BitVec.ofNat 8 (byte.toNat / 128 * 128 + (byte.toNat + 1) % 128)

/-- What an operation makes of a byte that it takes to a cell. -/
def passes : RegisterOperation → Cell → Byte → Byte
  | .refresh, .r => counted
  | _, _ => id

/-- What an operation leaves in a cell: what it stores there, or else what it takes there. -/
def leaves (operation : RegisterOperation) (before : Cell → Byte) (cell : Cell) : Byte :=
  (operation.stores cell).getD (operation.passes cell (before (operation.source cell)))

/-- The cells that an operation is about. -/
def Reaches : RegisterOperation → Cell → Prop
  | .setByte register bank _, cell => cell = register.cell bank
  | .setWord register bank _, cell => ∃ half, cell = register.cell bank half
  | .setAF _, cell => ∃ half, cell = .banked .af .main half
  | .setBC _, cell => ∃ half, cell = .banked .bc .main half
  | .setDE _, cell => ∃ half, cell = .banked .de .main half
  | .setHL _, cell => ∃ half, cell = .banked .hl .main half
  | .swapAccumulator, cell => ∃ bank half, cell = .banked .af bank half
  | .swapGeneral, cell => ∃ pair bank half, pair ≠ .af ∧ cell = .banked pair bank half
  | .refresh, cell => cell = .r

section Cells

-- With the registers and the cell known, these compute.
attribute [local simp] Registers.cell Half.of Registers.getWord Registers.accumulatorOf
  Registers.generalOf BankedPair.register SinglePair.register ByteRegister.cell WordRegister.cell
  Accumulator.af General.bc General.de General.hl Registers.updateAccumulator
  Registers.updateGeneral source

variable (regs : Registers) (cell : Cell)

/-- Writing a byte register stores the byte in its cell. -/
theorem cell_setByte (register : ByteRegister) (bank : Bank) (byte : Byte) :
    (regs.setByte register bank byte).cell cell =
      if cell = register.cell bank then byte else regs.cell cell := by
  cases register <;> cases bank <;> rcases cell with ⟨pair, other, half⟩ | ⟨pair, half⟩ | _ | _ <;>
    (try cases pair) <;> (try cases other) <;> (try cases half) <;> simp [Registers.setByte]

/-- Writing a word register stores its bytes in its two cells. -/
theorem cell_setWord (register : WordRegister) (bank : Bank) (word : Word) :
    (regs.setWord register bank word).cell cell =
      (storesWord register bank word cell).getD (regs.cell cell) := by
  cases register <;> cases bank <;> rcases cell with ⟨pair, other, half⟩ | ⟨pair, half⟩ | _ | _ <;>
    (try cases pair) <;> (try cases other) <;> (try cases half) <;>
    simp [Registers.setWord, storesWord, Accumulator.ofWord, General.setBC, General.setDE,
      General.setHL]

theorem cell_swapAccumulator :
    regs.swapAccumulator.cell cell = regs.cell (swapAccumulator.source cell) := by
  rcases cell with ⟨pair, bank, half⟩ | ⟨pair, half⟩ | _ | _
  · cases pair <;> cases bank <;> rfl
  · cases pair <;> rfl
  · rfl
  · rfl

theorem cell_swapGeneral : regs.swapGeneral.cell cell = regs.cell (swapGeneral.source cell) := by
  rcases cell with ⟨pair, bank, half⟩ | ⟨pair, half⟩ | _ | _
  · cases pair <;> cases bank <;> rfl
  · cases pair <;> rfl
  · rfl
  · rfl

theorem cell_refresh : regs.refresh.cell cell = refresh.passes cell (regs.cell cell) := by
  rcases cell with ⟨pair, bank, half⟩ | ⟨pair, half⟩ | _ | _
  · cases pair <;> cases bank <;> rfl
  · cases pair <;> rfl
  · rfl
  · -- The mask keeps the top bit, so the count goes around below it.
    have each : ∀ byte : Byte, (byte &&& 0x80) ||| ((byte + 1) &&& 0x7F) = counted byte := by
      decide +kernel
    exact each regs.r

end Cells

/-- An operation leaves in each cell what it stores there, or else what it takes there. -/
theorem cell_apply (operation : RegisterOperation) (regs : Registers) (cell : Cell) :
    (operation.apply regs).cell cell = operation.leaves regs.cell cell := by
  cases operation with
  | setByte register bank byte =>
    rw [apply, cell_setByte, leaves, stores]
    split <;> rfl
  | setWord register bank word => exact cell_setWord regs cell register bank word
  | setAF word => exact cell_setWord regs cell .af .main word
  | setBC word => exact cell_setWord regs cell .bc .main word
  | setDE word => exact cell_setWord regs cell .de .main word
  | setHL word => exact cell_setWord regs cell .hl .main word
  | swapAccumulator => exact cell_swapAccumulator regs cell
  | swapGeneral => exact cell_swapGeneral regs cell
  | refresh => exact cell_refresh regs cell

/-- An operation leaves alone the cells that it is not about. -/
theorem leaves_of_not_reaches {operation : RegisterOperation} {cell : Cell}
    (apart : ¬operation.Reaches cell) (before : Cell → Byte) :
    operation.leaves before cell = before cell := by
  -- Where nothing is stored, a write takes the byte of the same cell.
  have word (register : WordRegister) (bank : Bank) (word : Word)
      (apart : ¬∃ half, cell = register.cell bank half) :
      (storesWord register bank word cell).getD (before cell) = before cell := by
    rw [storesWord, if_neg fun same => apart ⟨.high, same⟩, if_neg fun same => apart ⟨.low, same⟩]
    rfl
  cases operation with
  | setByte register bank byte =>
    have apart : cell ≠ register.cell bank := apart
    rw [leaves, stores, if_neg apart]
    rfl
  | setWord register bank value => exact word register bank value apart
  | setAF value => exact word .af .main value apart
  | setBC value => exact word .bc .main value apart
  | setDE value => exact word .de .main value apart
  | setHL value => exact word .hl .main value apart
  | swapAccumulator =>
    rcases cell with ⟨pair, bank, half⟩ | _ | _ | _
    · cases pair with
      | af => exact absurd ⟨bank, half, rfl⟩ apart
      | bc | de | hl => rfl
    all_goals rfl
  | swapGeneral =>
    rcases cell with ⟨pair, bank, half⟩ | _ | _ | _
    · cases pair with
      | af => rfl
      | bc | de | hl => exact absurd ⟨_, bank, half, BankedPair.noConfusion, rfl⟩ apart
    all_goals rfl
  | refresh =>
    cases cell with
    | r => exact absurd rfl apart
    | banked | single | i => rfl

/-- No operation is about the interrupt state. -/
theorem apply_interrupts (operation : RegisterOperation) (regs : Registers) :
    (operation.apply regs).iff1 = regs.iff1 ∧ (operation.apply regs).iff2 = regs.iff2 ∧
      (operation.apply regs).im = regs.im := by
  cases operation with
  | setByte register bank byte => exact (Registers.setByte_kept regs register bank byte).2.2.2
  | setWord register bank word => cases register <;> cases bank <;> exact ⟨rfl, rfl, rfl⟩
  | setAF | setBC | setDE | setHL | swapAccumulator | swapGeneral | refresh =>
    exact ⟨rfl, rfl, rfl⟩

/-- Do the operations, the first one first. -/
def run (operations : List RegisterOperation) (regs : Registers) : Registers :=
  operations.foldl (fun regs operation => operation.apply regs) regs

theorem run_append_singleton (operations : List RegisterOperation) (operation : RegisterOperation)
    (regs : Registers) :
    run (operations ++ [operation]) regs = operation.apply (run operations regs) :=
  List.foldl_append ..

theorem run_interrupts (operations : List RegisterOperation) (regs : Registers) :
    (run operations regs).iff1 = regs.iff1 ∧ (run operations regs).iff2 = regs.iff2 ∧
      (run operations regs).im = regs.im := by
  induction operations using List.reverseRecOn with
  | nil => exact ⟨rfl, rfl, rfl⟩
  | append_singleton operations operation ih =>
    obtain ⟨iff1, iff2, im⟩ := apply_interrupts operation (run operations regs)
    rw [run_append_singleton, iff1, iff2, im]
    exact ih

end RegisterOperation

/-- What the operations left in a cell, the latest operation first: what the last one stores there,
or else what the operations before it had left where the last one takes it from. -/
def Cell.content (regs : Registers) : List RegisterOperation → Cell → Byte
  | [] => regs.cell
  | last :: earlier => last.leaves (content regs earlier)

/-- A cell holds what was stored in it, as long as no later operation is about the cell. -/
theorem Cell.content_of_stores (regs : Registers) {write : RegisterOperation} {cell : Cell}
    {byte : Byte} {later : List RegisterOperation} (earlier : List RegisterOperation)
    (stored : write.stores cell = some byte)
    (apart : ∀ operation ∈ later, ¬operation.Reaches cell) :
    Cell.content regs (later ++ write :: earlier) cell = byte := by
  induction later with
  | nil =>
    rw [List.nil_append, Cell.content, RegisterOperation.leaves, stored]
    rfl
  | cons last later ih =>
    rw [List.forall_mem_cons] at apart
    rw [List.cons_append, Cell.content, RegisterOperation.leaves_of_not_reaches apart.1]
    exact ih apart.2

/-! ### What the views show -/

namespace Registers

/-- A cell holds what the operations left in it. -/
theorem cell_run (regs : Registers) (operations : List RegisterOperation) (cell : Cell) :
    (RegisterOperation.run operations regs).cell cell =
      Cell.content regs operations.reverse cell := by
  induction operations using List.reverseRecOn generalizing cell with
  | nil => rfl
  | append_singleton operations operation ih =>
    rw [RegisterOperation.run_append_singleton, RegisterOperation.cell_apply,
      List.reverse_concat, Cell.content]
    -- The history is the same for all cells, and so for the one that the last operation reads.
    exact congrArg (operation.leaves · cell) (funext ih)

@[simp] theorem swapAccumulator_swapAccumulator (regs : Registers) :
    regs.swapAccumulator.swapAccumulator = regs := rfl

@[simp] theorem swapGeneral_swapGeneral (regs : Registers) :
    regs.swapGeneral.swapGeneral = regs := rfl

/-- After any operations, every view of a byte or a word shows what they left in its cells, and the
interrupt state is as it was. An operation changes no view that it does not reach, and either
exchange undoes itself. -/
theorem views_consistent (regs : Registers) (operations : List RegisterOperation) :
    (∀ register bank,
      (RegisterOperation.run operations regs).getByte register bank =
        Cell.content regs operations.reverse (register.cell bank)) ∧
    (∀ register bank,
      (RegisterOperation.run operations regs).getWord register bank =
        Word.ofBytes (Cell.content regs operations.reverse (register.cell bank .high))
          (Cell.content regs operations.reverse (register.cell bank .low))) ∧
    (∀ operation : RegisterOperation,
      (∀ register bank, ¬operation.Reaches (register.cell bank) →
        (operation.apply regs).getByte register bank = regs.getByte register bank) ∧
      (∀ register bank, (∀ half, ¬operation.Reaches (register.cell bank half)) →
        (operation.apply regs).getWord register bank = regs.getWord register bank)) ∧
    ((RegisterOperation.run operations regs).iff1 = regs.iff1 ∧
      (RegisterOperation.run operations regs).iff2 = regs.iff2 ∧
      (RegisterOperation.run operations regs).im = regs.im) ∧
    regs.swapAccumulator.swapAccumulator = regs ∧ regs.swapGeneral.swapGeneral = regs := by
  have kept (operation : RegisterOperation) (cell : Cell) (apart : ¬operation.Reaches cell) :
      (operation.apply regs).cell cell = regs.cell cell := by
    rw [RegisterOperation.cell_apply, RegisterOperation.leaves_of_not_reaches apart]
  refine ⟨?byte, ?word, ?untouched, RegisterOperation.run_interrupts operations regs,
    swapAccumulator_swapAccumulator regs, swapGeneral_swapGeneral regs⟩
  case byte =>
    intro register bank
    rw [getByte_eq_cell, cell_run]
  case word =>
    intro register bank
    rw [getWord_eq_cells, cell_run, cell_run]
  case untouched =>
    refine fun operation => ⟨fun register bank apart => ?_, fun register bank apart => ?_⟩
    · rw [getByte_eq_cell, getByte_eq_cell, kept operation _ apart]
    · rw [getWord_eq_cells, getWord_eq_cells, kept operation _ (apart .high),
        kept operation _ (apart .low)]

end Registers

end Z80
