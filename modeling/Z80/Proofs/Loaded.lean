import Mathlib.Data.List.Induction
import Mathlib.Data.Nat.ModEq
import Mathlib.Order.Bounds.Basic
import Z80.Bus.Board

/-!
# What a load leaves in memory

A load writes its bytes to one address after the other, and behind the top of memory it goes on at
the bottom. So it comes to an address once in every round, and each address keeps the last of the
bytes that landed there. Of a run that goes all the way around only the last round counts, and it
leaves nothing of what was in memory before.

## Main definitions

* `Memory.landings`: the positions of the bytes that land at an address

## Main results

* `Memory.isGreatest_landings_iff`: the last landing is the one in the last round
* `Memory.read_load_eq_iff`: what an address holds after a load
* `Memory.read_load_of_late`: what a load leaves can be read back
* `Memory.load_of_round`, `Memory.load_drop`: loads that go all the way around
* `Board.load_exact`: what a load does to a board
-/

namespace Z80

namespace Memory

/-! ### Landings -/

/-- The positions, among so many bytes that are loaded from a start, of those that land at an
address. Addresses count modulo the size of memory. -/
def landings (start : Word) (count : Nat) (address : Word) : Set Nat :=
  {position | position < count ∧ start.toNat + position ≡ address.toNat [MOD 2 ^ 16]}

section Landings

variable {start address : Word} {count position : Nat}

theorem mem_landings :
    position ∈ landings start count address ↔
      position < count ∧ address = start + BitVec.ofNat 16 position := by
  have wraps : start.toNat + position ≡ address.toNat [MOD 2 ^ 16] ↔
      address = start + BitVec.ofNat 16 position := by
    rw [Nat.ModEq, Nat.mod_eq_of_lt address.isLt, ← BitVec.toNat_inj, BitVec.toNat_add,
      BitVec.toNat_ofNat, Nat.add_mod_mod, eq_comm]
  exact and_congr_right fun _ => wraps

@[simp] theorem landings_zero : landings start 0 address = ∅ :=
  Set.eq_empty_of_forall_notMem fun _ lands => absurd lands.1 (Nat.not_lt_zero _)

/-- A byte that lands at an address behind all others is the last one there. -/
theorem isGreatest_landings_succ (lands : address = start + BitVec.ofNat 16 count) :
    IsGreatest (landings start (count + 1) address) count :=
  ⟨mem_landings.mpr ⟨Nat.lt_succ_self count, lands⟩, fun _ other => Nat.le_of_lt_succ other.1⟩

/-- A byte that lands elsewhere does not count. -/
theorem landings_succ_of_ne (elsewhere : address ≠ start + BitVec.ofNat 16 count) :
    landings start (count + 1) address = landings start count address := by
  ext position
  rw [mem_landings, mem_landings, Nat.lt_succ_iff_lt_or_eq]
  constructor
  · rintro ⟨earlier | rfl, lands⟩
    · exact ⟨earlier, lands⟩
    · exact absurd lands elsewhere
  · rintro ⟨earlier, lands⟩
    exact ⟨.inl earlier, lands⟩

/-- A full round comes to every address. -/
theorem landings_nonempty (round : 2 ^ 16 ≤ count) :
    (landings start count address).Nonempty :=
  have within : (address - start).toNat < count := Nat.lt_of_lt_of_le (address - start).isLt round
  ⟨(address - start).toNat, mem_landings.mpr ⟨within, (start.add_ofNat_distance address).symm⟩⟩

/-- The last byte that lands at an address is the one that lands there in the last round. -/
theorem isGreatest_landings_iff :
    IsGreatest (landings start count address) position ↔
      position ∈ landings start count address ∧ count ≤ position + 2 ^ 16 := by
  constructor
  · intro greatest
    refine ⟨greatest.1, Nat.le_of_not_lt fun more => ?_⟩
    -- Otherwise one more byte lands there, a round later.
    have again : position + 2 ^ 16 ∈ landings start count address := by
      refine ⟨more, ?_⟩
      rw [← Nat.add_assoc]
      exact Nat.add_modEq_right.trans greatest.1.2
    have least : position + 2 ^ 16 ≤ position := greatest.2 again
    omega
  · rintro ⟨lands, late⟩
    refine ⟨lands, fun other again => ?_⟩
    -- Landings at one address are whole rounds apart.
    have rounds : other ≡ position [MOD 2 ^ 16] :=
      Nat.ModEq.add_left_cancel' start.toNat (again.2.trans lands.2.symm)
    exact rounds.le_of_lt_add (Nat.lt_of_lt_of_le again.1 late)

end Landings

/-! ### Loads -/

variable (memory : Memory) (start : Word) (bytes : List Byte)

/-- A load goes on where its first part ended. -/
theorem load_append (more : List Byte) :
    memory.load start (bytes ++ more) =
      (memory.load start bytes).load (start + BitVec.ofNat 16 bytes.length) more := by
  induction bytes generalizing memory start with
  | nil => rw [List.nil_append, List.length_nil, BitVec.add_zero, load]
  | cons byte rest ih =>
    rw [List.cons_append, load, ih, List.length_cons, Word.add_ofNat_succ, load]

/-- After a load an address holds the last byte that landed there, or what it held before if none
did. -/
theorem read_load (address : Word) :
    (∃ position, IsGreatest (landings start bytes.length address) position ∧
      bytes[position]? = some ((memory.load start bytes).read address)) ∨
    landings start bytes.length address = ∅ ∧
      memory.read address = (memory.load start bytes).read address := by
  -- By induction from the end: the last byte is written over all others.
  induction bytes using List.reverseRecOn with
  | nil => exact .inr ⟨landings_zero, rfl⟩
  | append_singleton bytes byte ih =>
    rw [load_append, load, load, read_write, List.length_append, List.length_singleton]
    by_cases lands : address = start + BitVec.ofNat 16 bytes.length
    · refine .inl ⟨bytes.length, isGreatest_landings_succ lands, ?_⟩
      rw [if_pos lands, List.getElem?_concat_length]
    · rw [if_neg lands, landings_succ_of_ne lands]
      rcases ih with ⟨position, greatest, found⟩ | kept
      · have earlier : position < bytes.length := greatest.1.1
        exact .inl ⟨position, greatest, (List.getElem?_append_left earlier).trans found⟩
      · exact .inr kept

/-- What an address holds after a load: the byte at the greatest position that lands there, or what
it held before if there is no such position. -/
theorem read_load_eq_iff (address : Word) (byte : Byte) :
    (memory.load start bytes).read address = byte ↔
      (∃ position, IsGreatest (landings start bytes.length address) position ∧
        bytes[position]? = some byte) ∨
      landings start bytes.length address = ∅ ∧ memory.read address = byte := by
  constructor
  · rintro rfl
    exact memory.read_load start bytes address
  · intro asked
    -- What the address holds is told by the same landings.
    rcases memory.read_load start bytes address with ⟨position, greatest, found⟩ | ⟨missed, kept⟩
    · rcases asked with ⟨other, last, expected⟩ | ⟨empty, -⟩
      · rw [greatest.unique last, expected] at found
        exact (Option.some.inj found).symm
      · exact absurd greatest.1 (empty ▸ Set.notMem_empty position)
    · rcases asked with ⟨other, last, -⟩ | ⟨-, expected⟩
      · exact absurd last.1 (missed ▸ Set.notMem_empty other)
      · exact kept.symm.trans expected

/-- The bytes of the last round can be read back. -/
theorem read_load_of_late {position : Nat} (bound : position < bytes.length)
    (late : bytes.length ≤ position + 2 ^ 16) :
    (memory.load start bytes).read (start + BitVec.ofNat 16 position) = bytes[position] := by
  have lands : position ∈ landings start bytes.length (start + BitVec.ofNat 16 position) :=
    mem_landings.mpr ⟨bound, rfl⟩
  rw [read_load_eq_iff]
  exact .inl ⟨position, isGreatest_landings_iff.mpr ⟨lands, late⟩,
    List.getElem?_eq_getElem bound⟩

/-- A load that goes all the way around leaves nothing of the memory before it. -/
theorem load_of_round (other : Memory) (round : 2 ^ 16 ≤ bytes.length) :
    memory.load start bytes = other.load start bytes := by
  ext1 address
  rw [read_load_eq_iff]
  rcases other.read_load start bytes address with last | ⟨missed, -⟩
  · exact .inl last
  · exact absurd missed (landings_nonempty round).ne_empty

/-- Bytes with a full round behind them can be left out. -/
theorem load_drop (surplus : Nat) (round : surplus + 2 ^ 16 ≤ bytes.length) :
    memory.load start bytes =
      memory.load (start + BitVec.ofNat 16 surplus) (bytes.drop surplus) := by
  have length : (bytes.take surplus).length = surplus := List.length_take_of_le (by omega)
  calc memory.load start bytes
      = memory.load start (bytes.take surplus ++ bytes.drop surplus) := by
        rw [List.take_append_drop]
    _ = (memory.load start (bytes.take surplus)).load (start + BitVec.ofNat 16 surplus)
          (bytes.drop surplus) := by rw [load_append, length]
    _ = memory.load (start + BitVec.ofNat 16 surplus) (bytes.drop surplus) :=
        load_of_round _ _ _ _ (by rw [List.length_drop]; omega)

end Memory

/-- After a load each address of a board holds the byte at the greatest position that lands there,
or what it held before if there is no such position. Nothing else of the board changes. -/
theorem Board.load_exact (board : Board) (start : Word) (bytes : List Byte) :
    (∀ address byte, (board.load start bytes).peek address = byte ↔
      (∃ position, IsGreatest (Memory.landings start bytes.length address) position ∧
        bytes[position]? = some byte) ∨
      Memory.landings start bytes.length address = ∅ ∧ board.peek address = byte) ∧
    board.load start bytes = { board with memory := (board.load start bytes).memory } :=
  ⟨board.memory.read_load_eq_iff start bytes, rfl⟩

example :
    let board := Board.fresh.load 0xFFFF [0x11, 0x22]
    board.peek 0xFFFF = 0x11 ∧ board.peek 0x0000 = 0x22 ∧ board.peek 0x0001 = 0x00 := by
  decide

end Z80
