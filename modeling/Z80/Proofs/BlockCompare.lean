import Z80.Proofs.BlockRun

/-!
# Runs of CPIR and CPDR

A search compares one byte after the other with the accumulator. It ends at the first one that
matches, or with the last one that BC counts, and leaves memory as it is. HL and BC go on past the
byte where it ends.

## Main definitions

* `BlockOperation.comparing`: CPIR and CPDR
* `BlockOperation.searchEnd`: where a search ends

## Main results

* `BlockOperation.searchEnd_spec`: a search ends at the first match, or at the last byte
* `BlockOperation.nextUnlooped_comparing`: a whole run of CPIR or CPDR
-/

namespace Z80

open Exec

namespace Arithmetic

/-- What a comparison in a block tells: whether the byte matches and whether any are left. -/
theorem blockCompare_tells (flags : Flags) (accumulator value : Byte) (count : Word)
    (rewound : Option Byte) :
    (blockCompare flags accumulator value count rewound).z = (accumulator == value) ∧
      (blockCompare flags accumulator value count rewound).p = (count != 0) ∧
      (blockCompare flags accumulator value count rewound).n = true ∧
      (blockCompare flags accumulator value count rewound).c = flags.c := by
  have equal : (accumulator - value == 0) = (accumulator == value) := by
    rw [Bool.eq_iff_iff, beq_iff_eq, beq_iff_eq]
    bv_omega
  rw [← equal]
  cases rewound <;> exact ⟨rfl, rfl, rfl, rfl⟩

end Arithmetic

namespace BlockOperation

/-- CPIR and CPDR. -/
def comparing (upward : Bool) : BlockOperation where
  action := .compare
  upward := upward
  repeats := true

example : (comparing true).opcode = 0xB1 ∧ (comparing false).opcode = 0xB9 := ⟨rfl, rfl⟩

/-- Where a search among some bytes ends: at the first one that matches, or at the last one if none
does. -/
def searchEnd (operation : BlockOperation) (memory : Memory) (accumulator : Byte) (start : Word)
    (bytes : Nat) : Nat :=
  ((List.range bytes).find? fun i =>
    memory.read (operation.far i start) == accumulator).getD (bytes - 1)

/-- A search ends among its bytes. It passes over no match, and it ends at a match if it does not
come to the last byte. -/
theorem searchEnd_spec (operation : BlockOperation) (memory : Memory) (accumulator : Byte)
    (start : Word) {bytes : Nat} (any : 0 < bytes) :
    let last := operation.searchEnd memory accumulator start bytes
    last < bytes ∧ (∀ i < last, memory.read (operation.far i start) ≠ accumulator) ∧
      (memory.read (operation.far last start) ≠ accumulator → last + 1 = bytes) := by
  unfold searchEnd
  cases found : (List.range bytes).find? fun i =>
      memory.read (operation.far i start) == accumulator with
  | none =>
    rw [List.find?_range_eq_none] at found
    refine ⟨Nat.sub_lt any Nat.zero_lt_one, ?_, fun _ => Nat.sub_add_cancel any⟩
    intro i below
    have inside : i < bytes := Nat.lt_of_lt_of_le below (Nat.sub_le ..)
    simpa using found i inside
  | some i =>
    rw [List.find?_range_eq_some] at found
    obtain ⟨matching, within, before⟩ := found
    refine ⟨List.mem_range.mp within, ?_, ?_⟩
    · intro j below
      simpa using before j below
    · intro other
      exact absurd (by simpa using matching) other

/-- The action of CPIR and CPDR looks at a byte, moves on and counts down. -/
theorem runOn_act_comparing (upward : Bool) (cpu : Cpu) (board : Board) (address : Word) :
    let operation := comparing upward
    let regs := cpu.registers
    let value := board.memory.read address
    let repeating := regs.bc - 1 != 0 && regs.a != value
    let rewound := if repeating then some (Word.high (regs.pc - 2)) else none
    let run := runOn (operation.act address) Board.bus cpu board
    run.value = repeating ∧ run.device.memory = board.memory ∧
      run.cpu.registers.general =
        (regs.general.setHL (operation.advance address)).setBC (regs.bc - 1) ∧
      run.cpu.registers.f =
        Arithmetic.blockCompare regs.f regs.a value (regs.bc - 1) rewound := by
  intro operation regs value repeating rewound run
  let moved := cpu.updateRegisters fun regs =>
    { (regs.setHL (operation.advance address)).setBC (regs.bc - 1) with
      wz := operation.advance regs.wz }
  let shown := (board.read address .data).2
  let change := fun flags accumulator =>
    Arithmetic.blockCompare flags accumulator value (regs.bc - 1)
  have concluded : run = runOn (conclude repeating change) Board.bus moved shown := rfl
  obtain ⟨repeats, device, general, flags⟩ :=
    runOn_conclude Board.bus moved shown repeating change
  rw [concluded]
  refine ⟨repeats, ?_, general, flags⟩
  rw [device]
  exact Board.memory_record ..

/-- A round of CPIR or CPDR. -/
theorem roundOn_comparing (upward : Bool) (cpu : Cpu) (board : Board) :
    let operation := comparing upward
    let regs := cpu.registers
    let value := board.memory.read regs.hl
    let repeating := regs.bc - 1 != 0 && regs.a != value
    let rewound := if repeating then some (Word.high regs.pc) else none
    let round := operation.roundOn cpu board
    round.value = repeating ∧ round.device.memory = board.memory ∧
      round.cpu.registers.general =
        (regs.general.setHL (operation.advance regs.hl)).setBC (regs.bc - 1) ∧
      round.cpu.registers.f =
        Arithmetic.blockCompare regs.f regs.a value (regs.bc - 1) rewound := by
  have acted := runOn_act_comparing upward (cpu.decoded (comparing upward).opcode)
    (fetchedFrom cpu.registers.pc board) cpu.registers.hl
  obtain ⟨value_eq, registers_eq, device_eq⟩ := (comparing upward).roundOn_eq_act cpu board
  obtain ⟨general_eq, accumulator_eq⟩ := cpu.data_decoded (comparing upward).opcode
  simp only [memory_fetchedFrom, Cpu.pc_decoded_sub_two, Registers.bc, Registers.a, Registers.f,
    general_eq, accumulator_eq] at acted
  simp only [value_eq, registers_eq, device_eq]
  exact acted

/-- How far a run of CPIR or CPDR has come after some rounds. -/
structure Comparing (upward : Bool) (start : Cpu) (memory : Memory) (count : Nat) (cpu : Cpu)
    (board : Board) : Prop where
  memory : board.memory = memory
  hl : cpu.registers.hl = (comparing upward).far count start.registers.hl
  de : cpu.registers.de = start.registers.de
  bc : cpu.registers.bc = start.registers.bc - BitVec.ofNat 16 count
  c : cpu.registers.f.c = start.registers.f.c

variable {upward : Bool} {start cpu : Cpu} {memory : Memory} {board : Board} {count : Nat}

/-- A round gets one byte further. -/
theorem Comparing.round (holds : Comparing upward start memory count cpu board) :
    Comparing upward start memory (count + 1) ((comparing upward).roundOn cpu board).cpu
      ((comparing upward).roundOn cpu board).device := by
  obtain ⟨-, same, general, flags⟩ := roundOn_comparing upward cpu board
  constructor
  · rw [same, holds.memory]
  · rw [← advance_far, ← holds.hl, Registers.hl, general]
    exact General.hl_setHL cpu.registers.general _
  · rw [← holds.de, Registers.de, general]
    rfl
  · rw [← sub_one_sub, ← holds.bc, Registers.bc, general]
    exact General.bc_setBC _ _
  · rw [flags, ← holds.c]
    exact (Arithmetic.blockCompare_tells ..).2.2.2

/-- A round repeats exactly if it finds no match and is not the last one. -/
theorem Comparing.repeats_iff (holds : Comparing upward start memory count cpu board)
    (a : cpu.registers.a = start.registers.a) (within : count < rounds start.registers.bc) :
    ((comparing upward).roundOn cpu board).value = true ↔
      count + 1 ≠ rounds start.registers.bc ∧
        memory.read ((comparing upward).far count start.registers.hl) ≠ start.registers.a := by
  rw [(roundOn_comparing upward cpu board).1, Bool.and_eq_true, bne_iff_ne, bne_iff_ne, holds.bc,
    sub_one_sub, Ne, sub_eq_zero_iff within, holds.memory, holds.hl, a, ne_comm]

/-- Every round tells whether its byte matched and whether BC has run out. -/
theorem Comparing.flags (holds : Comparing upward start memory count cpu board)
    (a : cpu.registers.a = start.registers.a) :
    let after := ((comparing upward).roundOn cpu board).cpu.registers
    after.f.n = true ∧
      (after.f.z = true ↔
        memory.read ((comparing upward).far count start.registers.hl) = start.registers.a) ∧
      (after.f.p = true ↔ after.bc ≠ 0) := by
  obtain ⟨-, -, general, flags⟩ := roundOn_comparing upward cpu board
  have left : ((comparing upward).roundOn cpu board).cpu.registers.bc = cpu.registers.bc - 1 := by
    rw [Registers.bc, general]
    exact General.bc_setBC _ _
  obtain ⟨z, p, n, -⟩ := Arithmetic.blockCompare_tells cpu.registers.f cpu.registers.a
    (board.memory.read cpu.registers.hl) (cpu.registers.bc - 1)
    (if cpu.registers.bc - 1 != 0 && cpu.registers.a != board.memory.read cpu.registers.hl then
      some (Word.high cpu.registers.pc) else none)
  intro after
  refine ⟨?_, ?_, ?_⟩
  · rw [flags, n]
  · rw [flags, z, beq_iff_eq, a, holds.memory, holds.hl, eq_comm]
  · rw [flags, p, bne_iff_ne, left]

theorem comparing_invariant (stands : (comparing upward).Stands cpu board) :
    let last := (comparing upward).searchEnd board.memory cpu.registers.a cpu.registers.hl
      (rounds cpu.registers.bc)
    (comparing upward).Invariant cpu last (Comparing upward cpu board.memory)
      fun later shown => Comparing upward cpu board.memory (last + 1) later shown ∧
        later.registers.f.n = true ∧
        (later.registers.f.z = true ↔
          board.memory.read ((comparing upward).far last cpu.registers.hl) = cpu.registers.a) ∧
        (later.registers.f.p = true ↔ later.registers.bc ≠ 0) := by
  intro last
  obtain ⟨inside, passes, ends⟩ := (comparing upward).searchEnd_spec board.memory cpu.registers.a
    cpu.registers.hl (rounds_pos cpu.registers.bc)
  constructor
  · intro i _ later shown holds
    rw [holds.memory, stands.selector]
  · intro i _ later shown holds
    rw [holds.memory, stands.opcode]
  · intro i below later shown a holds
    have within : i < rounds cpu.registers.bc := Nat.lt_trans below inside
    refine ⟨(holds.repeats_iff a within).mpr ⟨?_, passes i below⟩, holds.round⟩
    exact Nat.ne_of_lt (Nat.lt_of_le_of_lt below inside)
  · intro later shown a holds
    refine ⟨?_, holds.round, holds.flags a⟩
    rw [← Bool.not_eq_true, holds.repeats_iff a inside]
    rintro ⟨more, other⟩
    exact more (ends other)

/-- CPIR and CPDR search for the accumulator among as many bytes as BC counts, and take twenty-one
tacts for each byte that they pass over and sixteen for the one where they end. -/
theorem nextUnlooped_comparing (stands : (comparing upward).Stands cpu board) :
    let operation := comparing upward
    let regs := cpu.registers
    let last := operation.searchEnd board.memory regs.a regs.hl (rounds regs.bc)
    let run := runOn (nextUnlooped {}) Board.bus cpu board
    let after := run.cpu.registers
    run.value = some (21 * last + 16) ∧ run.device.memory = board.memory ∧ after.a = regs.a ∧
      after.de = regs.de ∧ after.f.c = regs.f.c ∧ after.hl = operation.far (last + 1) regs.hl ∧
      after.bc = regs.bc - BitVec.ofNat 16 (last + 1) ∧ after.pc = regs.pc + 2 ∧
      after.f.n = true ∧
      (after.f.z = true ↔ board.memory.read (operation.far last regs.hl) = regs.a) ∧
      (after.f.p = true ↔ after.bc ≠ 0) := by
  intro operation regs last run after
  obtain ⟨inside, -, -⟩ := operation.searchEnd_spec board.memory regs.a regs.hl
    (rounds_pos regs.bc)
  have short : last < 2 ^ 27 := by
    have bound := rounds_le cpu.registers.bc
    exact Nat.lt_of_lt_of_le inside (Nat.le_trans bound (by decide))
  have begins : Comparing upward cpu board.memory 0 cpu board :=
    ⟨rfl, (far_zero ..).symm, rfl, by simp, rfl⟩
  obtain ⟨time, pc, paced, holds, n, z, p⟩ :=
    nextUnlooped_of_rounds rfl (comparing_invariant stands) short stands begins
  exact ⟨time, holds.memory, paced.a, holds.de, holds.c, holds.hl, holds.bc, pc, n, z, p⟩

/-- CPIR finds a byte in the last place where it looks. -/
theorem cpir_finds_last :
    let cpu := Cpu.fresh.updateRegisters fun regs =>
      ((regs.setA 0x33).setHL 0x4000).setBC 3
    let board := (Board.fresh.load 0x0000 [0xED, 0xB1]).load 0x4000 [0x11, 0x22, 0x33, 0x44]
    let run := runOn (nextUnlooped {}) Board.bus cpu board
    run.value = some 58 ∧ run.cpu.registers.hl = 0x4003 ∧ run.cpu.registers.bc = 0 ∧
      run.cpu.registers.f.z = true ∧ run.cpu.registers.f.p = false := by
  intro cpu board run
  have stands : (comparing true).Stands cpu board := ⟨rfl, rfl, rfl, by decide, by decide⟩
  have place : (comparing true).searchEnd board.memory cpu.registers.a cpu.registers.hl
      (rounds cpu.registers.bc) = 2 := by decide
  obtain ⟨time, -, -, -, -, hl, bc, -, -, z, p⟩ := nextUnlooped_comparing stands
  rw [place] at time hl bc z
  have empty : run.cpu.registers.bc = 0 := bc.trans (by decide)
  refine ⟨time, hl.trans (by decide), empty, z.mpr (by decide), ?_⟩
  rw [← Bool.not_eq_true, p, not_not]
  exact empty

end BlockOperation

end Z80
