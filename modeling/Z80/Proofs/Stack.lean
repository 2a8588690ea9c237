import Mathlib.Data.List.Infix
import Mathlib.Data.List.Induction
import Z80.Proofs.Restart

/-!
# The stack

Words that are pushed lie one below the other, from the stack pointer down and around zero, so that
a word may lie with one byte at the bottom of memory and with the other at its top. They part as
long as they fit into memory. So the stack gives back what was pushed last, whatever the stack
pointer was, and only the bytes of the words that it held at once are written.

## Main definitions

* `StackMove`, `Exec.makeAll`: pushes and pops one after the other
* `StackMove.Matched`: the word that a pop is to give, as its matching push tells
* `StackMove.Fits`: no pop goes below the start, and so many words are held at most
* `Stacked`: a processor and a board that hold some words

## Main results

* `StackMove.matched_of_held`: each pop that finds a word has a matching push
* `Stacked.push`, `Stacked.pop`: what one move does
* `Exec.moves_lifo`: what all moves do
-/

namespace Z80

open Exec

/-! ### Moves -/

/-- What is done with a stack. -/
inductive StackMove where
  | push (value : Word)
  | pop

namespace StackMove

/-- How many words there are more after a move. -/
def rise : StackMove → Int
  | .push _ => 1
  | .pop => -1

/-- How many words there are more after some moves. -/
def depth (moves : List StackMove) : Int :=
  moves.foldl (fun depth move => depth + rise move) 0

/-- The moves never pop below their start, and hold at most so many words at once. -/
structure Fits (most : Nat) (moves : List StackMove) : Prop where
  above : ∀ early, early <+: moves → 0 ≤ depth early
  within : ∀ early, early <+: moves → depth early ≤ most

/-- Each push among the moves is followed by its pop, and each pop comes behind its push. -/
inductive Closed : List StackMove → Prop
  | nil : Closed []
  | wrap (value : Word) {inner rest : List StackMove} (inside : Closed inner)
      (behind : Closed rest) : Closed (.push value :: (inner ++ .pop :: rest))

/-- A pop behind the moves matches a push of the value: what came between them is closed. -/
def Matched (before : List StackMove) (value : Word) : Prop :=
  ∃ earlier inner, before = earlier ++ .push value :: inner ∧ Closed inner

/-- The words held after a move, the last one first. -/
def onto (held : List Word) : StackMove → List Word
  | .push value => value :: held
  | .pop => held.tail

/-- The words held after some moves, the last one first. -/
def held (moves : List StackMove) : List Word := moves.foldl onto []

variable {before inner rest moves : List StackMove} {move : StackMove} {value other : Word}
  {most : Nat}

theorem held_concat (moves : List StackMove) (move : StackMove) :
    held (moves ++ [move]) = onto (held moves) move := by
  simp [held]

theorem depth_concat (moves : List StackMove) (move : StackMove) :
    depth (moves ++ [move]) = depth moves + rise move := by
  simp [depth]

theorem Fits.init (fits : Fits most (moves ++ rest)) : Fits most moves where
  above early within := fits.above early (within.trans (List.prefix_append ..))
  within early within := fits.within early (within.trans (List.prefix_append ..))

/-- As many words are held as the depth says. -/
theorem Fits.length_held (fits : Fits most moves) : ((held moves).length : Int) = depth moves := by
  induction moves using List.reverseRecOn with
  | nil => rfl
  | append_singleton moves move ih =>
    have before := ih fits.init
    rw [held_concat, depth_concat]
    cases move with
    | push value => simpa [onto, rise] using before
    | pop =>
      -- The depth after the pop is not negative, so there was a word to pop.
      have least := fits.above _ (List.prefix_refl _)
      rw [depth_concat] at least
      simp only [onto, rise, List.length_tail] at least ⊢
      omega

theorem Closed.append (first : Closed inner) (second : Closed rest) : Closed (inner ++ rest) := by
  induction first with
  | nil => exact second
  | wrap value inside _ _ ih =>
    rw [List.cons_append, List.append_assoc, List.cons_append]
    exact .wrap value inside ih

/-- Closed moves leave what was held. -/
theorem Closed.foldl_onto (closed : Closed moves) (held : List Word) :
    moves.foldl onto held = held := by
  induction closed generalizing held with
  | nil => rfl
  | wrap value _ _ inside behind =>
    rw [List.foldl_cons, List.foldl_append, inside, List.foldl_cons, behind]
    rfl

/-- A word that is held was pushed, and all moves since then are closed. -/
theorem matched_of_held {below : List Word} (on : held before = value :: below) :
    ∃ earlier inner, before = earlier ++ .push value :: inner ∧ Closed inner ∧
      held earlier = below := by
  -- A pop at the end has its own push, and the word was on top before that push.
  induction size : before.length using Nat.strong_induction_on generalizing before value below with
  | _ size ih =>
    subst size
    obtain rfl | ⟨moves, move, rfl⟩ := List.eq_nil_or_concat' before
    · cases on
    rw [held_concat] at on
    cases move with
    | push last =>
      obtain ⟨rfl, rfl⟩ := List.cons.inj on
      exact ⟨moves, [], rfl, .nil, rfl⟩
    | pop =>
      obtain ⟨popped, found⟩ : ∃ popped, held moves = popped :: value :: below := by
        cases found : held moves with
        | nil => rw [found] at on; cases on
        | cons popped under => exact ⟨popped, congrArg _ (by rw [found] at on; exact on)⟩
      obtain ⟨first, inside, rfl, closed, under⟩ := ih moves.length (by simp) found rfl
      obtain ⟨earlier, between, rfl, closedBetween, lowest⟩ := ih first.length
        (by simp) under rfl
      refine ⟨earlier, between ++ (.push popped :: (inside ++ .pop :: [])), by simp, ?_, lowest⟩
      exact closedBetween.append (.wrap popped closed .nil)

/-- The word of the matching push is on top. -/
theorem Matched.head_held (matched : Matched before value) :
    ∃ below, held before = value :: below := by
  obtain ⟨earlier, inner, rfl, closed⟩ := matched
  refine ⟨held earlier, ?_⟩
  rw [held, List.foldl_append, List.foldl_cons, closed.foldl_onto]
  rfl

/-- There is one word that a pop is to give. -/
theorem Matched.unique (one : Matched before value) (two : Matched before other) :
    value = other := by
  obtain ⟨below, on⟩ := one.head_held
  obtain ⟨otherBelow, otherOn⟩ := two.head_held
  exact (List.cons.inj (on.symm.trans otherOn)).1

/-- Each pop of moves that fit has a matching push. -/
theorem Fits.matched (fits : Fits most (before ++ .pop :: rest)) :
    ∃ value below, held before = value :: below ∧ Matched before value := by
  have through : before ++ [.pop] <+: before ++ .pop :: rest :=
    ⟨rest, by rw [List.append_assoc, List.singleton_append]⟩
  have least := fits.above _ through
  have count := fits.init.length_held
  rw [depth_concat, rise] at least
  cases on : held before with
  | nil =>
    rw [on, List.length_nil] at count
    omega
  | cons value below =>
    obtain ⟨earlier, inner, split, closed, -⟩ := matched_of_held on
    exact ⟨value, below, rfl, earlier, inner, split, closed⟩

end StackMove

/-! ### Addresses -/

/-- The address so many bytes below another one, around zero. -/
def Word.below (start : Word) (offset : Nat) : Word := start - BitVec.ofNat 16 offset

namespace Word

theorem below_below (start : Word) (offset more : Nat) :
    below (below start offset) more = below start (offset + more) := by
  rw [below, below, below, BitVec.ofNat_add, BitVec.sub_sub]

theorem below_add (start : Word) (offset more : Nat) :
    below start (offset + more) + BitVec.ofNat 16 more = below start offset := by
  rw [← below_below, below, BitVec.sub_add_cancel]

/-- Within the size of memory, different offsets lead to different addresses. -/
theorem below_ne (start : Word) {offset other : Nat} (less : offset < other)
    (near : other < offset + 65536) : below start offset ≠ below start other := by
  intro same
  have offsets : BitVec.ofNat 16 offset = BitVec.ofNat 16 other := by
    simpa [below] using same
  have remainders := congrArg BitVec.toNat offsets
  simp only [BitVec.toNat_ofNat] at remainders
  omega

end Word

/-! ### Held words -/

/-- The word at an address, low byte first. -/
def Memory.word (memory : Memory) (address : Word) : Word :=
  Word.ofBytes (memory.read (address + 1)) (memory.read address)

/-- The words lie one below the other from the start down, the first one lowest. -/
def Memory.Holds (memory : Memory) (start : Word) : List Word → Prop
  | [] => True
  | value :: held =>
    memory.word (Word.below start (2 * (held.length + 1))) = value ∧ memory.Holds start held

namespace Memory

variable {memory other : Memory} {start value : Word} {held : List Word}

theorem Holds.congr (holds : memory.Holds start held)
    (same : ∀ offset, 1 ≤ offset → offset ≤ 2 * held.length →
      other.read (Word.below start offset) = memory.read (Word.below start offset)) :
    other.Holds start held := by
  induction held with
  | nil => exact holds
  | cons value held ih =>
    obtain ⟨lowest, others⟩ := holds
    rw [List.length_cons] at same
    refine ⟨?_, ih others fun offset least most => same offset least (by omega)⟩
    have upper : Word.below start (2 * (held.length + 1)) + 1 =
        Word.below start (2 * held.length + 1) := Word.below_add start (2 * held.length + 1) 1
    rw [← lowest, word, word, upper, same _ (by omega) (by omega), same _ (by omega) (by omega)]

/-- A word is read as it was written, high byte first. -/
theorem word_write_write (memory : Memory) (address value : Word) :
    ((memory.write (address + 1) (Word.high value)).write address (Word.low value)).word address =
      value := by
  have apart : address + 1 ≠ address := by bv_omega
  rw [word, read_write_same, read_write_of_ne _ _ apart, read_write_same, Word.ofBytes_high_low]

end Memory

/-! ### One move -/

namespace Board

@[simp] theorem memory_write (address : Word) (value : Byte) (board : Board) :
    (board.write address value).memory = board.memory.write address value :=
  memory_record ..

/-- A push writes the two bytes below the stack pointer. -/
theorem memory_stack (board : Board) (sp value : Word) :
    (board.stack sp value).memory =
      (board.memory.write (sp - 1) (Word.high value)).write (sp - 2) (Word.low value) := by
  rw [stack, memory_write, memory_write]

/-- The board after a word is read at an address. -/
def readWord (board : Board) (address : Word) : Board :=
  ((board.read address .data).2.read (address + 1) .data).2

@[simp] theorem memory_readWord (board : Board) (address : Word) :
    (board.readWord address).memory = board.memory := by
  simp [readWord, Board.read]

end Board

namespace Exec

variable (cpu : Cpu) (board : Board)

theorem runOn_pushWord (value : Word) :
    runOn (pushWord value) Board.bus cpu board =
      ⟨(), cpu.updateRegisters fun regs => { regs with sp := regs.sp - 2 },
        board.stack cpu.registers.sp value⟩ := rfl

theorem runOn_popWord :
    runOn popWord Board.bus cpu board =
      ⟨board.memory.word cpu.registers.sp,
        cpu.updateRegisters fun regs => { regs with sp := regs.sp + 2 },
        board.readWord cpu.registers.sp⟩ := by
  -- The second byte is read from a board that has recorded the first read.
  have second (address : Word) : (board.read cpu.registers.sp .data).2.memory.read address =
      board.memory.read address := congrArg (Memory.read · address) (Board.memory_record ..)
  rw [Memory.word, ← second (cpu.registers.sp + 1)]
  rfl

end Exec

/-- The processor with so many words more on its stack. -/
def Cpu.deepened (cpu : Cpu) (count : Nat) : Cpu :=
  cpu.updateRegisters fun regs => { regs with sp := Word.below regs.sp (2 * count) }

namespace Cpu

/-- The processor with its stack pointer moved. -/
theorem updateRegisters_deepened (cpu : Cpu) {count other : Nat} (change : Word → Word)
    (moved : change (Word.below cpu.registers.sp (2 * count)) =
      Word.below cpu.registers.sp (2 * other)) :
    ((cpu.deepened count).updateRegisters fun regs => { regs with sp := change regs.sp }) =
      cpu.deepened other :=
  congrArg (fun sp => cpu.updateRegisters fun regs => { regs with sp := sp }) moved

theorem deepened_push (cpu : Cpu) (count : Nat) :
    ((cpu.deepened count).updateRegisters fun regs => { regs with sp := regs.sp - 2 }) =
      cpu.deepened (count + 1) :=
  cpu.updateRegisters_deepened (· - 2) (Word.below_below ..)

theorem deepened_pop (cpu : Cpu) (count : Nat) :
    ((cpu.deepened (count + 1)).updateRegisters fun regs => { regs with sp := regs.sp + 2 }) =
      cpu.deepened count :=
  cpu.updateRegisters_deepened (· + 2) (Word.below_add _ (2 * count) 2)

end Cpu

/-- A processor and a board have come to hold some words on the stack, and at most so many were held
at once. Nothing else has changed on the processor, and nothing else in the memory. -/
structure Stacked (most : Nat) (start : Cpu) (origin : Board) (held : List Word) (cpu : Cpu)
    (board : Board) : Prop where
  cpu : cpu = start.deepened held.length
  holds : board.memory.Holds start.registers.sp held
  kept : ∀ address,
    (∀ offset, 1 ≤ offset → offset ≤ 2 * most →
      address ≠ Word.below start.registers.sp offset) →
    board.memory.read address = origin.memory.read address

namespace Stacked

variable {most : Nat} {start cpu : Cpu} {origin board : Board} {held : List Word} {value : Word}

theorem refl (most : Nat) (start : Cpu) (origin : Board) :
    Stacked most start origin [] start origin where
  cpu := by
    have here : start.registers.sp = Word.below start.registers.sp 0 := by simp [Word.below]
    change start = start.updateRegisters fun regs => { regs with sp := Word.below regs.sp 0 }
    rw [Cpu.updateRegisters, ← here]
  holds := trivial
  kept _ _ := rfl

/-- A push lays a word below those that are held. -/
theorem push (stacked : Stacked most start origin held cpu board) (free : held.length < most)
    (room : most ≤ 32768) :
    let run := runOn (pushWord value) Board.bus cpu board
    Stacked most start origin (value :: held) run.cpu run.device := by
  have sp : cpu.registers.sp = Word.below start.registers.sp (2 * held.length) :=
    congrArg (·.registers.sp) stacked.cpu
  have upper : cpu.registers.sp - 1 = Word.below start.registers.sp (2 * held.length + 1) := by
    rw [sp]
    exact Word.below_below ..
  have lower : cpu.registers.sp - 2 = Word.below start.registers.sp (2 * (held.length + 1)) := by
    rw [sp]
    exact Word.below_below ..
  have next : Word.below start.registers.sp (2 * (held.length + 1)) + 1 =
      Word.below start.registers.sp (2 * held.length + 1) :=
    Word.below_add _ (2 * held.length + 1) 1
  intro run
  simp only [run, runOn_pushWord]
  constructor
  · rw [stacked.cpu, Cpu.deepened_push, List.length_cons]
  · rw [Board.memory_stack, upper, lower, ← next]
    refine ⟨Memory.word_write_write .., stacked.holds.congr fun offset least most => ?_⟩
    -- The two bytes are further down than all that is held.
    rw [next, Memory.read_write_of_ne _ _ (Word.below_ne _ (by omega) (by omega)),
      Memory.read_write_of_ne _ _ (Word.below_ne _ (by omega) (by omega))]
  · intro address outside
    rw [Board.memory_stack, upper, lower,
      Memory.read_write_of_ne _ _ (outside _ (by omega) (by omega)),
      Memory.read_write_of_ne _ _ (outside _ (by omega) (by omega))]
    exact stacked.kept address outside

/-- A pop gives the last word that is held. -/
theorem pop (stacked : Stacked most start origin (value :: held) cpu board) :
    let run := runOn popWord Board.bus cpu board
    run.value = value ∧ Stacked most start origin held run.cpu run.device := by
  have sp : cpu.registers.sp = Word.below start.registers.sp (2 * (held.length + 1)) :=
    congrArg (·.registers.sp) stacked.cpu
  obtain ⟨lowest, others⟩ := stacked.holds
  intro run
  simp only [run, runOn_popWord]
  refine ⟨by rw [sp, lowest], ?_, ?_, ?_⟩
  · rw [stacked.cpu, List.length_cons, Cpu.deepened_pop]
  · rwa [Board.memory_readWord]
  · intro address outside
    rw [Board.memory_readWord, stacked.kept address outside]

end Stacked

/-! ### All moves -/

/-- Make a move, and give the word that it pops. -/
def StackMove.make : StackMove → Exec (Option Word)
  | .push value => do
    pushWord value
    return none
  | .pop => do
    let value ← popWord
    return some value

namespace Exec

open StackMove

/-- Make moves one after the other, and give what each of them pops. -/
def makeAll : List StackMove → Exec (List (Option Word))
  | [] => return []
  | move :: moves => do
    let popped ← move.make
    let more ← makeAll moves
    return popped :: more

section Runs

variable {σ : Type} (bus : Bus σ) (cpu : Cpu) (device : σ)

theorem runOn_makeAll_append (moves more : List StackMove) :
    runOn (makeAll (moves ++ more)) bus cpu device =
      let first := runOn (makeAll moves) bus cpu device
      let last := runOn (makeAll more) bus first.cpu first.device
      { last with value := first.value ++ last.value } := by
  induction moves generalizing cpu device with
  | nil => rfl
  | cons move moves ih =>
    simp only [List.cons_append, makeAll, runOn_bind, runOn_pure, ih]

theorem length_makeAll (moves : List StackMove) :
    (runOn (makeAll moves) bus cpu device).value.length = moves.length := by
  induction moves generalizing cpu device with
  | nil => rfl
  | cons move moves ih => simp only [makeAll, runOn_bind, runOn_pure, List.length_cons, ih]

end Runs

variable (cpu : Cpu) (board : Board) {most : Nat} {moves : List StackMove}

/-- Moves that fit leave the words on the stack that they hold. -/
theorem stacked_makeAll (fits : Fits most moves) (room : most ≤ 32768) :
    let run := runOn (makeAll moves) Board.bus cpu board
    Stacked most cpu board (held moves) run.cpu run.device := by
  induction moves using List.reverseRecOn with
  | nil => exact Stacked.refl most cpu board
  | append_singleton moves move ih =>
    have before := ih fits.init
    rw [runOn_makeAll_append, held_concat]
    cases move with
    | push value =>
      have most := fits.within _ (List.prefix_refl _)
      rw [depth_concat, ← fits.init.length_held, rise] at most
      exact before.push (by omega) room
    | pop =>
      obtain ⟨value, below, on, -⟩ := fits.matched
      rw [on] at before ⊢
      exact before.pop.2

/-- The stack is last in, first out, whatever the stack pointer is: as long as no pop goes below the
start and the words held at once fit into memory, each pop gives the word of its matching push, and
the stack pointer is as far below its start as the depth says. With the greatest depth for `most`,
nothing is written but the bytes that were held. -/
theorem moves_lifo (fits : Fits most moves) (room : most ≤ 32768) :
    let run := runOn (makeAll moves) Board.bus cpu board
    (∀ before rest, moves = before ++ .pop :: rest →
      ∃ value, Matched before value ∧ run.value[before.length]? = some (some value)) ∧
      run.cpu = (cpu.updateRegisters fun regs =>
        { regs with sp := regs.sp - BitVec.ofInt 16 (2 * depth moves) }) ∧
      ∀ address,
        (∀ offset, 1 ≤ offset → offset ≤ 2 * most →
          address ≠ cpu.registers.sp - BitVec.ofNat 16 offset) →
        run.device.memory.read address = board.memory.read address := by
  intro run
  have stacked := stacked_makeAll cpu board fits room
  refine ⟨?_, ?_, stacked.kept⟩
  · rintro before rest rfl
    obtain ⟨value, below, on, matched⟩ := fits.matched
    have found := stacked_makeAll cpu board fits.init room
    rw [on] at found
    refine ⟨value, matched, ?_⟩
    -- What the pop gives stands behind what the moves before it gave.
    simp only [run, runOn_makeAll_append, makeAll, make, runOn_bind, runOn_pure, found.pop.1]
    rw [List.getElem?_append_right (length_makeAll ..).le, length_makeAll, Nat.sub_self]
    rfl
  · have offset :
        BitVec.ofInt 16 (2 * depth moves) = BitVec.ofNat 16 (2 * (held moves).length) := by
      rw [← fits.length_held, ← BitVec.ofInt_natCast]
      rfl
    rw [offset]
    exact stacked.cpu

/-- Two words on a stack that starts at one: the first lies across zero, and the place of the second
is used twice. -/
theorem moves_lifo_across_zero :
    let moves := [.push 0x1234, .push 0xABCD, .pop, .push 0x5678, .pop, .pop]
    let cpu := Cpu.fresh.updateRegisters fun regs => { regs with sp := 0x0001 }
    let run := runOn (makeAll moves) Board.bus cpu Board.fresh
    Fits 2 moves ∧ run.value[2]? = some (some 0xABCD) ∧ run.value[4]? = some (some 0x5678) ∧
      run.value[5]? = some (some 0x1234) ∧ run.cpu.registers.sp = 0x0001 ∧
      run.device.memory.read 0x0001 = Board.fresh.memory.read 0x0001 := by
  intro moves cpu
  have depths : ∀ early ∈ moves.inits, 0 ≤ depth early ∧ depth early ≤ (2 : Nat) := by decide
  have fits : Fits 2 moves :=
    ⟨fun early within => (depths early ((List.mem_inits ..).mpr within)).1,
      fun early within => (depths early ((List.mem_inits ..).mpr within)).2⟩
  have lifo := moves_lifo cpu Board.fresh fits (by decide)
  generalize runOn (makeAll moves) Board.bus cpu Board.fresh = run at lifo ⊢
  obtain ⟨pops, back, kept⟩ := lifo
  have given (before rest : List StackMove) (value : Word) (split : moves = before ++ .pop :: rest)
      (matched : Matched before value) : run.value[before.length]? = some (some value) := by
    obtain ⟨other, otherMatched, popped⟩ := pops before rest split
    rwa [matched.unique otherMatched]
  refine ⟨fits, ?_, ?_, ?_, (congrArg (·.registers.sp) back).trans (by decide), ?_⟩
  · exact given [.push 0x1234, .push 0xABCD] _ _ rfl ⟨[.push 0x1234], [], rfl, .nil⟩
  · exact given [.push 0x1234, .push 0xABCD, .pop, .push 0x5678] _ _ rfl
      ⟨[.push 0x1234, .push 0xABCD, .pop], [], rfl, .nil⟩
  · exact given [.push 0x1234, .push 0xABCD, .pop, .push 0x5678, .pop] _ _ rfl
      ⟨[], _, rfl, .wrap 0xABCD .nil (.wrap 0x5678 .nil .nil)⟩
  · have sp : cpu.registers.sp = Word.below 0x0001 0 := by decide
    rw [sp] at kept
    exact kept 0x0001 fun offset least most =>
      Word.below_ne 0x0001 least (Nat.lt_of_le_of_lt most (by decide))

end Exec

end Z80
