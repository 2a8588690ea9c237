import Z80.Proofs.BlockRun

/-!
# Runs of LDIR and LDDR

A block transfer copies one byte after the other, each from where the bytes copied before it have
left its source, so that overlapping ranges repeat a pattern. The bytes of the instruction itself
may be copied over as long as that does not change them.

## Main definitions

* `BlockOperation.transferring`: LDIR and LDDR
* `BlockOperation.copied`: memory after some bytes were copied
* `BlockOperation.SparesItself`: the run leaves its own instruction as it is

## Main results

* `BlockOperation.roundOn_transferring`: one round copies a byte, moves on and counts down
* `BlockOperation.nextUnlooped_transferring`: a whole run of LDIR or LDDR
-/

namespace Z80

open Exec

namespace Arithmetic

/-- A transfer keeps sign, zero and carry. -/
theorem blockTransfer_kept (flags : Flags) (accumulator value : Byte) (count : Word)
    (rewound : Option Byte) :
    (blockTransfer flags accumulator value count rewound).s = flags.s ∧
      (blockTransfer flags accumulator value count rewound).z = flags.z ∧
      (blockTransfer flags accumulator value count rewound).c = flags.c := by
  cases rewound <;> exact ⟨rfl, rfl, rfl⟩

end Arithmetic

namespace BlockOperation

/-- LDIR and LDDR. -/
def transferring (upward : Bool) : BlockOperation where
  action := .transfer
  upward := upward
  repeats := true

example : (transferring true).opcode = 0xB0 ∧ (transferring false).opcode = 0xB8 := ⟨rfl, rfl⟩

/-- The memory after bytes were copied one after the other, each from where the ones before it have
left its source. -/
def copied (operation : BlockOperation) (memory : Memory) (source target : Word) : Nat → Memory
  | 0 => memory
  | count + 1 =>
    let before := copied operation memory source target count
    before.write (operation.far count target) (before.read (operation.far count source))

/-- The action of LDIR and LDDR copies a byte, moves on and counts down. -/
theorem runOn_act_transferring (upward : Bool) (cpu : Cpu) (board : Board) (address : Word) :
    let operation := transferring upward
    let regs := cpu.registers
    let value := board.memory.read address
    let rewound := if regs.bc - 1 != 0 then some (Word.high (regs.pc - 2)) else none
    let run := runOn (operation.act address) Board.bus cpu board
    run.value = (regs.bc - 1 != 0) ∧ run.device.memory = board.memory.write regs.de value ∧
      run.cpu.registers.general =
        ((regs.general.setHL (operation.advance address)).setDE (operation.advance regs.de)).setBC
          (regs.bc - 1) ∧
      run.cpu.registers.f =
        Arithmetic.blockTransfer regs.f regs.a value (regs.bc - 1) rewound := by
  intro operation regs value rewound run
  let moved := cpu.updateRegisters fun regs =>
    ((regs.setHL (operation.advance address)).setDE (operation.advance regs.de)).setBC
      (regs.bc - 1)
  let written := (board.read address .data).2.write regs.de value
  let change := fun flags accumulator =>
    Arithmetic.blockTransfer flags accumulator value (regs.bc - 1)
  have concluded : run = runOn (conclude (regs.bc - 1 != 0) change) Board.bus moved written := rfl
  obtain ⟨repeats, device, general, flags⟩ :=
    runOn_conclude Board.bus moved written (regs.bc - 1 != 0) change
  rw [concluded]
  refine ⟨repeats, ?_, general, flags⟩
  rw [device]
  exact (Board.memory_record ..).trans (congrArg (Memory.write · _ _) (Board.memory_record ..))

/-- A round of LDIR or LDDR. -/
theorem roundOn_transferring (upward : Bool) (cpu : Cpu) (board : Board) :
    let operation := transferring upward
    let regs := cpu.registers
    let value := board.memory.read regs.hl
    let rewound := if regs.bc - 1 != 0 then some (Word.high regs.pc) else none
    let round := operation.roundOn cpu board
    round.value = (regs.bc - 1 != 0) ∧ round.device.memory = board.memory.write regs.de value ∧
      round.cpu.registers.general =
        ((regs.general.setHL (operation.advance regs.hl)).setDE (operation.advance regs.de)).setBC
          (regs.bc - 1) ∧
      round.cpu.registers.f =
        Arithmetic.blockTransfer regs.f regs.a value (regs.bc - 1) rewound := by
  have acted := runOn_act_transferring upward (cpu.decoded (transferring upward).opcode)
    (fetchedFrom cpu.registers.pc board) cpu.registers.hl
  obtain ⟨value_eq, registers_eq, device_eq⟩ := (transferring upward).roundOn_eq_act cpu board
  obtain ⟨general_eq, accumulator_eq⟩ := cpu.data_decoded (transferring upward).opcode
  simp only [memory_fetchedFrom, Cpu.pc_decoded_sub_two, Registers.bc, Registers.de, Registers.a,
    Registers.f, general_eq, accumulator_eq] at acted
  simp only [value_eq, registers_eq, device_eq]
  exact acted

/-- A byte stays as it is if all bytes that are copied over it are the same. -/
theorem read_copied (operation : BlockOperation) (memory : Memory) (source target : Word)
    {address : Word} {count : Nat}
    (spared : ∀ i < count, operation.far i target = address →
      (operation.copied memory source target i).read (operation.far i source) =
        memory.read address) :
    (operation.copied memory source target count).read address = memory.read address :=
  Memory.read_of_writes (operation.copied memory source target) (fun _ => rfl) spared

/-- How far a run of LDIR or LDDR has come after some rounds. -/
structure Transferring (upward : Bool) (start : Cpu) (memory : Memory) (count : Nat) (cpu : Cpu)
    (board : Board) : Prop where
  memory : board.memory =
    (transferring upward).copied memory start.registers.hl start.registers.de count
  hl : cpu.registers.hl = (transferring upward).far count start.registers.hl
  de : cpu.registers.de = (transferring upward).far count start.registers.de
  bc : cpu.registers.bc = start.registers.bc - BitVec.ofNat 16 count
  s : cpu.registers.f.s = start.registers.f.s
  z : cpu.registers.f.z = start.registers.f.z
  c : cpu.registers.f.c = start.registers.f.c

variable {upward : Bool} {start cpu : Cpu} {memory : Memory} {board : Board} {count : Nat}

/-- A round gets one byte further. -/
theorem Transferring.round (holds : Transferring upward start memory count cpu board) :
    Transferring upward start memory (count + 1) ((transferring upward).roundOn cpu board).cpu
      ((transferring upward).roundOn cpu board).device := by
  obtain ⟨-, written, general, flags⟩ := roundOn_transferring upward cpu board
  obtain ⟨s, z, c⟩ := Arithmetic.blockTransfer_kept cpu.registers.f cpu.registers.a
    (board.memory.read cpu.registers.hl) (cpu.registers.bc - 1)
    (if cpu.registers.bc - 1 != 0 then some (Word.high cpu.registers.pc) else none)
  constructor
  · rw [written, holds.memory, holds.hl, holds.de, copied]
  · rw [← advance_far, ← holds.hl, Registers.hl, general]
    exact General.hl_setHL cpu.registers.general _
  · rw [← advance_far, ← holds.de, Registers.de, general]
    exact General.de_setDE cpu.registers.general _
  · rw [← sub_one_sub, ← holds.bc, Registers.bc, general]
    exact General.bc_setBC _ _
  · rw [flags, s, holds.s]
  · rw [flags, z, holds.z]
  · rw [flags, c, holds.c]

/-- A round ends the run exactly if it is the last one. -/
theorem Transferring.done_iff (holds : Transferring upward start memory count cpu board)
    (within : count < rounds start.registers.bc) :
    ((transferring upward).roundOn cpu board).value = false ↔
      count + 1 = rounds start.registers.bc := by
  rw [(roundOn_transferring upward cpu board).1, holds.bc, sub_one_sub, ← sub_eq_zero_iff within]
  simp

/-- The flags after the last byte is copied: it shows in the undocumented copies, added to the
accumulator. -/
def transferredFlags (regs : Registers) (last : Byte) : Flags :=
  { regs.f with
    h := false
    n := false
    p := false
    x := (regs.a + last).getLsbD 3
    y := (regs.a + last).getLsbD 1 }

/-- The last round finds nothing left to count. -/
theorem Transferring.flags_of_done (holds : Transferring upward start memory count cpu board)
    (a : cpu.registers.a = start.registers.a)
    (done : ((transferring upward).roundOn cpu board).value = false) :
    ((transferring upward).roundOn cpu board).cpu.registers.f =
      transferredFlags start.registers
        (((transferring upward).copied memory start.registers.hl start.registers.de count).read
          ((transferring upward).far count start.registers.hl)) := by
  obtain ⟨repeating, -, -, flags⟩ := roundOn_transferring upward cpu board
  have empty : (cpu.registers.bc - 1 != 0) = false := repeating.symm.trans done
  rw [flags, empty, holds.memory, holds.hl, a, Arithmetic.blockTransfer, empty, transferredFlags,
    ← holds.s, ← holds.z, ← holds.c]
  rfl

/-- A byte that the run copies over the instruction is the one that stands there. -/
def SparesItself (upward : Bool) (cpu : Cpu) (memory : Memory) : Prop :=
  ∀ i < rounds cpu.registers.bc,
    (transferring upward).far i cpu.registers.de = cpu.registers.pc ∨
      (transferring upward).far i cpu.registers.de = cpu.registers.pc + 1 →
    ((transferring upward).copied memory cpu.registers.hl cpu.registers.de i).read
        ((transferring upward).far i cpu.registers.hl) =
      memory.read ((transferring upward).far i cpu.registers.de)

theorem SparesItself.read_copied (spares : SparesItself upward cpu memory) {address : Word}
    (own : address = cpu.registers.pc ∨ address = cpu.registers.pc + 1)
    (within : count ≤ rounds cpu.registers.bc) :
    ((transferring upward).copied memory cpu.registers.hl cpu.registers.de count).read address =
      memory.read address := by
  apply BlockOperation.read_copied
  intro i below hit
  exact hit ▸ spares i (Nat.lt_of_lt_of_le below within) (hit ▸ own)

theorem transferring_invariant (stands : (transferring upward).Stands cpu board)
    (spares : SparesItself upward cpu board.memory) {last : Nat}
    (counted : rounds cpu.registers.bc = last + 1) :
    (transferring upward).Invariant cpu last (Transferring upward cpu board.memory)
      fun later shown => Transferring upward cpu board.memory (last + 1) later shown ∧
        later.registers.f = transferredFlags cpu.registers
          (((transferring upward).copied board.memory cpu.registers.hl cpu.registers.de last).read
            ((transferring upward).far last cpu.registers.hl)) := by
  constructor
  · intro i within later shown holds
    rw [holds.memory, ← stands.selector]
    exact spares.read_copied (.inl rfl) (by omega)
  · intro i within later shown holds
    rw [holds.memory, ← stands.opcode]
    exact spares.read_copied (.inr rfl) (by omega)
  · intro i below later shown a holds
    refine ⟨?_, holds.round⟩
    rw [← Bool.not_eq_false, holds.done_iff (by omega)]
    omega
  · intro later shown a holds
    have done := (holds.done_iff (by omega)).mpr counted.symm
    exact ⟨done, holds.round, holds.flags_of_done a done⟩

/-- LDIR and LDDR copy as many bytes as BC counts, one after the other, and take twenty-one tacts
for each but the last. No byte that is copied over the instruction may change it. -/
theorem nextUnlooped_transferring (stands : (transferring upward).Stands cpu board)
    (spares : SparesItself upward cpu board.memory) :
    let operation := transferring upward
    let regs := cpu.registers
    let bytes := rounds regs.bc
    let copies := operation.copied board.memory regs.hl regs.de
    let run := runOn (nextUnlooped {}) Board.bus cpu board
    let after := run.cpu.registers
    run.value = some (21 * (bytes - 1) + 16) ∧ run.device.memory = copies bytes ∧
      after.hl = operation.far bytes regs.hl ∧ after.de = operation.far bytes regs.de ∧
      after.bc = 0 ∧ after.pc = regs.pc + 2 ∧
      after.r.setWidth 7 = regs.r.setWidth 7 + BitVec.ofNat 7 (2 * bytes) ∧
      after.f = transferredFlags regs
        ((copies (bytes - 1)).read (operation.far (bytes - 1) regs.hl)) := by
  intro operation regs bytes copies run after
  obtain ⟨last, counted⟩ : ∃ last, rounds cpu.registers.bc = last + 1 :=
    ⟨bytes - 1, (Nat.succ_pred_eq_of_pos (rounds_pos regs.bc)).symm⟩
  have short : last < 2 ^ 27 := by
    have bound := rounds_le cpu.registers.bc
    omega
  have begins : Transferring upward cpu board.memory 0 cpu board :=
    ⟨rfl, (far_zero ..).symm, (far_zero ..).symm, by simp, rfl, rfl, rfl⟩
  obtain ⟨time, pc, paced, holds, flags⟩ :=
    nextUnlooped_of_rounds rfl (transferring_invariant stands spares counted) short stands begins
  have empty : regs.bc - BitVec.ofNat 16 (last + 1) = 0 := by
    rw [← counted, ofNat_rounds, BitVec.sub_self]
    rfl
  have same : bytes = last + 1 := counted
  rw [same, Nat.add_sub_cancel]
  exact ⟨time, holds.memory, holds.hl, holds.de, holds.bc.trans empty, pc, paced.r, flags⟩

/-- Where the target is one byte above the source, LDIR fills memory with the first byte. -/
theorem ldir_fills :
    let cpu := Cpu.fresh.updateRegisters fun regs =>
      ((regs.setHL 0x4000).setDE 0x4001).setBC 3
    let board := (Board.fresh.load 0x0000 [0xED, 0xB0]).poke 0x4000 0xAA
    let run := runOn (nextUnlooped {}) Board.bus cpu board
    run.value = some 58 ∧ run.device.memory.block 0x4000 4 = [0xAA, 0xAA, 0xAA, 0xAA] ∧
      run.cpu.registers.hl = 0x4003 ∧ run.cpu.registers.bc = 0 := by
  intro cpu board run
  have stands : (transferring true).Stands cpu board := ⟨rfl, rfl, rfl, by decide, by decide⟩
  have three : rounds cpu.registers.bc = 3 := by decide
  have spares : SparesItself true cpu board.memory := by
    intro i within
    -- The three targets are above the instruction.
    obtain rfl | rfl | rfl : i = 0 ∨ i = 1 ∨ i = 2 := by omega
    all_goals
      rintro (hit | hit) <;> exact absurd hit (by decide)
  obtain ⟨time, memory, hl, -, bc, -⟩ := nextUnlooped_transferring stands spares
  rw [three] at time memory hl
  have filled : run.device.memory.block 0x4000 4 = [0xAA, 0xAA, 0xAA, 0xAA] := by
    rw [memory]
    decide
  exact ⟨time, filled, hl.trans (by decide), bc⟩

end BlockOperation

end Z80
