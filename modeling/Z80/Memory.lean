import Z80.Word

/-!
# Memory

A value for every address of sixteen bits. The values stand at the leaves of a full binary tree
that the bits of the address walk down, so that a read and a write take sixteen steps and a fresh
memory shares all its branches.

## Main results

* `Memory.read_write`: a write changes the byte at its own address only
* `Memory.ext`: memories that hold the same bytes are the same
-/

namespace Z80

/-- Full binary tree of the given depth. -/
inductive Table (α : Type) : Nat → Type where
  | leaf (value : α) : Table α 0
  | node {depth : Nat} (lower upper : Table α depth) : Table α (depth + 1)

namespace Table

variable {α : Type} {width depth : Nat}

/-- The tree with one value at every leaf. -/
def replicate (value : α) : (depth : Nat) → Table α depth
  | 0 => .leaf value
  | depth + 1 =>
    let half := replicate value depth
    .node half half

/-- The value at the leaf that the low bits of an address lead to. -/
def get (address : BitVec width) : {depth : Nat} → Table α depth → α
  | _, .leaf value => value
  | _, @node _ depth lower upper =>
    if address.getLsbD depth then get address upper else get address lower

/-- The tree with the value at one leaf replaced. -/
def set (address : BitVec width) (value : α) : {depth : Nat} → Table α depth → Table α depth
  | _, .leaf _ => .leaf value
  | _, @node _ depth lower upper =>
    if address.getLsbD depth then .node lower (set address value upper)
    else .node (set address value lower) upper

@[simp] theorem get_replicate (address : BitVec width) (value : α) (depth : Nat) :
    get address (replicate value depth) = value := by
  induction depth with
  | zero => rfl
  | succ depth ih => simp only [replicate, get, ih, ite_self]

theorem get_set_same (address : BitVec width) (value : α) (table : Table α depth) :
    get address (set address value table) = value := by
  induction table with
  | leaf => rfl
  | node lower upper lowerSame upperSame =>
    simp only [set]
    split <;> simp_all [get]

theorem get_set_of_ne (address other : BitVec width) (value : α) (table : Table α depth)
    (differ : ∃ position < depth, address.getLsbD position ≠ other.getLsbD position) :
    get other (set address value table) = get other table := by
  induction table with
  | leaf => obtain ⟨_, bound, _⟩ := differ; omega
  | @node depth lower upper lowerKept upperKept =>
    obtain ⟨position, bound, ne⟩ := differ
    by_cases top : address.getLsbD depth = other.getLsbD depth
    · -- Both walks take the same branch, so they part further down.
      have below : position < depth := by
        rcases Nat.lt_succ_iff_lt_or_eq.mp bound with below | rfl
        · exact below
        · exact absurd top ne
      by_cases bit : other.getLsbD depth <;>
        simp [set, get, top, bit, upperKept ⟨position, below, ne⟩, lowerKept ⟨position, below, ne⟩]
    · by_cases bit : other.getLsbD depth <;> by_cases own : address.getLsbD depth <;>
        simp_all [set, get]

/-- Only the low bits of an address matter. -/
theorem get_congr (address other : BitVec width) (table : Table α depth)
    (same : ∀ position < depth, address.getLsbD position = other.getLsbD position) :
    get address table = get other table := by
  induction table with
  | leaf => rfl
  | @node depth lower upper lowerSame upperSame =>
    simp only [get, same depth (by omega)]
    rw [lowerSame fun position bound => same position (by omega),
      upperSame fun position bound => same position (by omega)]

/-- Trees whose leaves agree are the same. -/
theorem ext (table other : Table α depth) (fits : depth ≤ width)
    (same : ∀ address : BitVec width, get address table = get address other) :
    table = other := by
  induction table with
  | leaf value =>
    obtain ⟨otherValue⟩ := other
    exact congrArg leaf (same 0)
  | @node depth lower upper lowerExt upperExt =>
    obtain _ | ⟨otherLower, otherUpper⟩ := other
    -- An address with the top bit cleared reads the lower half, and one with it set the upper.
    have lowerSame : lower = otherLower := by
      refine lowerExt _ (by omega) fun address => ?_
      have cleared := same (address &&& ~~~BitVec.twoPow width depth)
      have bit : (address &&& ~~~BitVec.twoPow width depth).getLsbD depth = false := by
        simp
      have agree (position : Nat) (bound : position < depth) :
          (address &&& ~~~BitVec.twoPow width depth).getLsbD position =
            address.getLsbD position := by
        have fit : position < width := by omega
        simp [fit]; omega
      simpa [get, bit, get_congr _ address _ agree] using cleared
    have upperSame : upper = otherUpper := by
      refine upperExt _ (by omega) fun address => ?_
      have raised := same (address ||| BitVec.twoPow width depth)
      have bit : (address ||| BitVec.twoPow width depth).getLsbD depth = true := by
        simp; omega
      have agree (position : Nat) (bound : position < depth) :
          (address ||| BitVec.twoPow width depth).getLsbD position =
            address.getLsbD position := by
        have ne : depth ≠ position := by omega
        simp [ne]
      simpa [get, bit, get_congr _ address _ agree] using raised
    rw [lowerSame, upperSame]

end Table

/-- A byte for every address. -/
structure Memory where
  table : Table Byte 16

namespace Memory

/-- The memory that holds one byte everywhere. -/
def filled (byte : Byte) : Memory := ⟨Table.replicate byte 16⟩

/-- The byte at an address. -/
def read (memory : Memory) (address : Word) : Byte := Table.get address memory.table

/-- The memory with the byte at one address replaced. -/
def write (memory : Memory) (address : Word) (byte : Byte) : Memory :=
  ⟨Table.set address byte memory.table⟩

/-- The memory with bytes written one after the other, from an address upwards and around the top.
A later byte wins over an earlier one at the same address. -/
def load (memory : Memory) (address : Word) : List Byte → Memory
  | [] => memory
  | byte :: rest => load (memory.write address byte) (address + 1) rest

/-- The given number of bytes from an address upwards and around the top. -/
def block (memory : Memory) (address : Word) : Nat → List Byte
  | 0 => []
  | count + 1 => memory.read address :: block memory (address + 1) count

@[simp] theorem read_filled (byte : Byte) (address : Word) :
    (filled byte).read address = byte := Table.get_replicate _ _ _

/-- A write changes the byte at its own address only. -/
theorem read_write (memory : Memory) (address other : Word) (byte : Byte) :
    (memory.write address byte).read other =
      if other = address then byte else memory.read other := by
  split
  · next same => rw [same]; exact Table.get_set_same _ _ _
  · next ne =>
    refine Table.get_set_of_ne _ _ _ _ ?_
    -- Addresses that agree on all sixteen bits would be the same.
    apply Classical.byContradiction
    intro agree
    refine ne (BitVec.eq_of_getLsbD_eq fun position bound => ?_)
    apply Classical.byContradiction
    intro differ
    exact agree ⟨position, bound, fun same => differ same.symm⟩

@[simp] theorem read_write_same (memory : Memory) (address : Word) (byte : Byte) :
    (memory.write address byte).read address = byte := by
  rw [read_write, if_pos rfl]

theorem read_write_of_ne (memory : Memory) {address other : Word} (byte : Byte)
    (ne : other ≠ address) : (memory.write address byte).read other = memory.read other := by
  rw [read_write, if_neg ne]

/-- Memories that hold the same bytes are the same. -/
@[ext] theorem ext {memory other : Memory}
    (same : ∀ address, memory.read address = other.read address) : memory = other := by
  obtain ⟨table⟩ := memory
  obtain ⟨otherTable⟩ := other
  rw [Table.ext table otherTable (Nat.le_refl 16) same]

end Memory

end Z80
