import Z80.Proofs.BlockRun

/-!
# Runs of INIR, INDR, OTIR and OTDR

A block input or output moves one byte after the other between memory and the ports that BC
addresses. B counts the bytes and is the high byte of the port as well: an input addresses its port
before B counts down, and an output after that. The bytes of the instruction itself may be stored
over as long as that does not change them.

## Main definitions

* `BlockOperation.porting`: INIR, INDR, OTIR and OTDR
* `BlockOperation.received`: memory after some bytes were taken from the ports
* `BlockOperation.sent`: the bytes that were sent to the ports, in order

## Main results

* `BlockOperation.roundOn_porting`: one round
* `BlockOperation.nextUnlooped_porting`: a whole run of INIR, INDR, OTIR or OTDR
-/

namespace Z80

open Exec

namespace Arithmetic

/-- A block input or output that is done shows in Z whether B is used up, and one that repeats
clears it. -/
theorem blockPort_z (value count : Byte) (total : Word) (rewound : Option Byte) :
    (blockPort value count total rewound).z = (rewound.isNone && count == 0) := by
  cases rewound <;> rfl

end Arithmetic

namespace BlockOperation

/-- INIR and INDR if it is inward, OTIR and OTDR if not. -/
def porting (inward upward : Bool) : BlockOperation where
  action := if inward then .input else .output
  upward := upward
  repeats := true

example : (porting true true).opcode = 0xB2 ∧ (porting true false).opcode = 0xBA ∧
    (porting false true).opcode = 0xB3 ∧ (porting false false).opcode = 0xBB :=
  ⟨rfl, rfl, rfl, rfl⟩

/-- The memory after bytes were taken from the ports one after the other. The port of each has in
its high byte what is then left of the count. -/
def received (operation : BlockOperation) (ports : Memory) (regs : General) (memory : Memory) :
    Nat → Memory
  | 0 => memory
  | count + 1 =>
    (received operation ports regs memory count).write (operation.far count regs.hl)
      (ports.read (Word.ofBytes (regs.b - BitVec.ofNat 8 count) regs.c))

/-- The ports and bytes of an output, in order. The port of each byte has in its high byte what is
left of the count after it. -/
def sent (operation : BlockOperation) (regs : General) (memory : Memory) (count : Nat) :
    List (Word × Byte) :=
  (List.range count).map fun i =>
    (Word.ofBytes (regs.b - 1 - BitVec.ofNat 8 i) regs.c, memory.read (operation.far i regs.hl))

/-! ### One round -/

/-- The end of an input or output: it shows in Z whether B is used up. -/
theorem runOn_conclude_port (cpu : Cpu) (board : Board) (value count : Byte) (total : Word) :
    let run := runOn (conclude (count != 0) fun _ _ => Arithmetic.blockPort value count total)
      Board.bus cpu board
    run.value = (count != 0) ∧ run.device = board ∧
      run.cpu.registers.general = cpu.registers.general ∧
      run.cpu.registers.f.z = (count == 0) := by
  intro run
  obtain ⟨repeats, device, general, flags⟩ := runOn_conclude Board.bus cpu board (count != 0)
    fun _ _ => Arithmetic.blockPort value count total
  refine ⟨repeats, device, general, ?_⟩
  rw [flags, Arithmetic.blockPort_z, bne]
  cases count == 0 <;> rfl

/-- The action of INIR, INDR, OTIR and OTDR moves a byte, moves on and counts down. -/
theorem runOn_act_porting (inward upward : Bool) (cpu : Cpu) (board : Board) (address : Word) :
    let operation := porting inward upward
    let regs := cpu.registers.general
    let left := regs.b - 1
    let run := runOn (operation.act address) Board.bus cpu board
    run.value = (left != 0) ∧ run.device.ports = board.ports ∧
      run.device.memory =
        (if inward then board.memory.write address (board.ports.read regs.bc)
          else board.memory) ∧
      run.device.outputs =
        (if inward then board.outputs
          else (Word.ofBytes left regs.c, board.memory.read address) :: board.outputs) ∧
      run.cpu.registers.general =
        ({ regs with b := left } : General).setHL (operation.advance address) ∧
      run.cpu.registers.f.z = (left == 0) := by
  intro operation regs left run
  cases inward with
  | true =>
    let value := board.ports.read regs.bc
    let moved := cpu.updateRegisters fun before =>
      { before with
        general := ({ regs with b := left } : General).setHL (operation.advance address)
        wz := operation.advance regs.bc }
    let written := (board.input regs.bc).2.write address value
    let total := value.setWidth 16 + (operation.advance regs.c).setWidth 16
    have concluded : run = runOn (conclude (left != 0) fun _ _ =>
        Arithmetic.blockPort value left total) Board.bus moved written := rfl
    obtain ⟨repeats, device, general, z⟩ := runOn_conclude_port moved written value left total
    rw [concluded, device]
    exact ⟨repeats, by simp [written, Board.write, Board.poke, Board.input],
      by simp [written, Board.write, Board.poke, Board.input, value],
      by simp [written, Board.write, Board.poke, Board.input], general, z⟩
  | false =>
    let value := board.memory.read address
    let moved := cpu.updateRegisters fun before =>
      { before with
        general := ({ regs with b := left } : General).setHL (operation.advance address)
        wz := operation.advance (Word.ofBytes left regs.c) }
    let written := (board.read address .data).2.output (Word.ofBytes left regs.c) value
    let total := value.setWidth 16 + (Word.low (operation.advance address)).setWidth 16
    have concluded : run = runOn (conclude (left != 0) fun _ _ =>
        Arithmetic.blockPort value left total) Board.bus moved written := rfl
    obtain ⟨repeats, device, general, z⟩ := runOn_conclude_port moved written value left total
    rw [concluded, device]
    exact ⟨repeats, by simp [written, Board.output, Board.read],
      by simp [written, Board.output, Board.read],
      by simp [written, Board.output, Board.read, value], general, z⟩

/-- A round of INIR, INDR, OTIR or OTDR. -/
theorem roundOn_porting (inward upward : Bool) (cpu : Cpu) (board : Board) :
    let operation := porting inward upward
    let regs := cpu.registers.general
    let left := regs.b - 1
    let round := operation.roundOn cpu board
    round.value = (left != 0) ∧ round.device.ports = board.ports ∧
      round.device.memory =
        (if inward then board.memory.write regs.hl (board.ports.read regs.bc)
          else board.memory) ∧
      round.device.outputs =
        (if inward then board.outputs
          else (Word.ofBytes left regs.c, board.memory.read regs.hl) :: board.outputs) ∧
      round.cpu.registers.general =
        ({ regs with b := left } : General).setHL (operation.advance regs.hl) ∧
      round.cpu.registers.f.z = (left == 0) := by
  have acted := runOn_act_porting inward upward (cpu.decoded (porting inward upward).opcode)
    (fetchedFrom cpu.registers.pc board) cpu.registers.hl
  obtain ⟨value_eq, registers_eq, device_eq⟩ := (porting inward upward).roundOn_eq_act cpu board
  obtain ⟨general_eq, -⟩ := cpu.data_decoded (porting inward upward).opcode
  simp only [memory_fetchedFrom, ports_fetchedFrom, outputs_fetchedFrom, general_eq] at acted
  simp only [value_eq, registers_eq, device_eq]
  exact acted

/-! ### Whole runs -/

/-- How far a run of INIR, INDR, OTIR or OTDR has come after some rounds. -/
structure Porting (inward upward : Bool) (start : General) (first : Board) (count : Nat)
    (cpu : Cpu) (board : Board) : Prop where
  ports : board.ports = first.ports
  memory : board.memory =
    if inward then (porting inward upward).received first.ports start first.memory count
    else first.memory
  outputs : board.outputs =
    if inward then first.outputs
    else ((porting inward upward).sent start first.memory count).reverse ++ first.outputs
  hl : cpu.registers.hl = (porting inward upward).far count start.hl
  b : cpu.registers.general.b = start.b - BitVec.ofNat 8 count
  c : cpu.registers.general.c = start.c

variable {inward upward : Bool} {start : General} {first : Board} {cpu : Cpu} {board : Board}
  {count : Nat}

/-- A round gets one byte further. -/
theorem Porting.round (holds : Porting inward upward start first count cpu board) :
    Porting inward upward start first (count + 1) ((porting inward upward).roundOn cpu board).cpu
      ((porting inward upward).roundOn cpu board).device := by
  obtain ⟨-, ports, memory, outputs, general, -⟩ := roundOn_porting inward upward cpu board
  have hl : cpu.registers.general.hl = _ := holds.hl
  constructor
  · rw [ports, holds.ports]
  · rw [memory, holds.memory, holds.ports, hl, General.bc, holds.b, holds.c]
    cases inward <;> rfl
  · rw [outputs, holds.outputs, holds.memory, hl, holds.b, holds.c]
    cases inward with
    | true => rfl
    | false => simp [sent, List.range_succ, BitVec.sub_sub, BitVec.add_comm]
  · rw [← advance_far, ← hl, Registers.hl, general, General.hl_setHL]
  · rw [general, ← sub_one_sub, ← holds.b]
    rfl
  · rw [general, ← holds.c]
    rfl

/-- A round ends the run exactly if it is the last one, and shows in Z whether it did. -/
theorem Porting.done_iff (holds : Porting inward upward start first count cpu board)
    (within : count < rounds start.b) :
    (((porting inward upward).roundOn cpu board).value = false ↔ count + 1 = rounds start.b) ∧
      (((porting inward upward).roundOn cpu board).cpu.registers.f.z = true ↔
        count + 1 = rounds start.b) := by
  obtain ⟨repeats, -, -, -, -, z⟩ := roundOn_porting inward upward cpu board
  rw [repeats, z, holds.b, sub_one_sub, ← sub_eq_zero_iff within]
  simp

/-- A byte that an input stores over the instruction is the one that stands there. -/
def InputSpares (upward : Bool) (cpu : Cpu) (board : Board) : Prop :=
  ∀ i < rounds cpu.registers.general.b,
    (porting true upward).far i cpu.registers.hl = cpu.registers.pc ∨
      (porting true upward).far i cpu.registers.hl = cpu.registers.pc + 1 →
    board.ports.read
        (Word.ofBytes (cpu.registers.general.b - BitVec.ofNat 8 i) cpu.registers.general.c) =
      board.memory.read ((porting true upward).far i cpu.registers.hl)

/-- A run that spares its instruction finds it where it stood. -/
theorem Porting.read_own {begins : Cpu}
    (holds : Porting inward upward begins.registers.general first count cpu board)
    (spares : inward = true → InputSpares upward begins first) {address : Word}
    (own : address = begins.registers.pc ∨ address = begins.registers.pc + 1)
    (within : count ≤ rounds begins.registers.general.b) :
    board.memory.read address = first.memory.read address := by
  rw [holds.memory]
  cases inward with
  | false => rfl
  | true =>
    apply Memory.read_of_writes
      ((porting true upward).received first.ports begins.registers.general first.memory)
      fun _ => rfl
    intro i below hit
    exact hit ▸ spares rfl i (Nat.lt_of_lt_of_le below within) (hit ▸ own)

theorem porting_invariant (stands : (porting inward upward).Stands cpu board)
    (spares : inward = true → InputSpares upward cpu board) {last : Nat}
    (counted : rounds cpu.registers.general.b = last + 1) :
    (porting inward upward).Invariant cpu last
      (Porting inward upward cpu.registers.general board)
      fun later shown =>
        Porting inward upward cpu.registers.general board (last + 1) later shown ∧
          later.registers.f.z = true := by
  constructor
  · intro i within later shown holds
    rw [holds.read_own spares (.inl rfl) (by omega), stands.selector]
  · intro i within later shown holds
    rw [holds.read_own spares (.inr rfl) (by omega), stands.opcode]
  · intro i below later shown _ holds
    refine ⟨?_, holds.round⟩
    rw [← Bool.not_eq_false, (holds.done_iff (by omega)).1]
    omega
  · intro later shown _ holds
    obtain ⟨done, z⟩ := holds.done_iff (by omega)
    exact ⟨done.mpr counted.symm, holds.round, z.mpr counted.symm⟩

/-- INIR, INDR, OTIR and OTDR move as many bytes as B counts, and take twenty-one tacts for each but
the last. An output leaves memory alone and sends the bytes from HL on, in order, to the ports that
the count after each byte gives. An input stores from HL on what it reads from the ports that the
count before each byte gives, and nothing else. No byte that it stores over the instruction may
change it. -/
theorem nextUnlooped_porting (stands : (porting inward upward).Stands cpu board)
    (spares : inward = true → InputSpares upward cpu board) :
    let operation := porting inward upward
    let regs := cpu.registers
    let bytes := rounds regs.general.b
    let run := runOn (nextUnlooped {}) Board.bus cpu board
    let after := run.cpu.registers
    run.value = some (21 * (bytes - 1) + 16) ∧ after.general.b = 0 ∧
      after.general.c = regs.general.c ∧ after.hl = operation.far bytes regs.hl ∧
      after.pc = regs.pc + 2 ∧ after.f.z = true ∧
      (inward = false →
        run.device.memory = board.memory ∧
          run.device.outputs =
            (operation.sent regs.general board.memory bytes).reverse ++ board.outputs) ∧
      (inward = true →
        run.device.outputs = board.outputs ∧
          (∀ i < bytes, run.device.memory.read (operation.far i regs.hl) =
            board.ports.read
              (Word.ofBytes (regs.general.b - BitVec.ofNat 8 i) regs.general.c)) ∧
          ∀ address, (∀ i < bytes, operation.far i regs.hl ≠ address) →
            run.device.memory.read address = board.memory.read address) := by
  intro operation regs bytes run after
  obtain ⟨last, counted⟩ : ∃ last, rounds cpu.registers.general.b = last + 1 :=
    ⟨bytes - 1, (Nat.succ_pred_eq_of_pos (rounds_pos regs.general.b)).symm⟩
  have same : bytes = last + 1 := counted
  have bound : bytes ≤ 2 ^ 8 := rounds_le regs.general.b
  have short : last < 2 ^ 27 := by omega
  have begins : Porting inward upward regs.general board 0 cpu board :=
    ⟨rfl, by cases inward <;> rfl, by cases inward <;> rfl, (far_zero ..).symm,
      (BitVec.sub_zero _).symm, rfl⟩
  obtain ⟨time, pc, -, holds, z⟩ :=
    nextUnlooped_of_rounds rfl (porting_invariant stands spares counted) short stands begins
  have empty : regs.general.b - BitVec.ofNat 8 bytes = 0 := by
    rw [ofNat_rounds, BitVec.sub_self]
    rfl
  rw [← same] at holds
  have memory := holds.memory
  have outputs := holds.outputs
  refine ⟨by rw [time, same, Nat.add_sub_cancel], holds.b.trans empty, holds.c, holds.hl, pc, z,
    ?_, ?_⟩
  · rintro rfl
    exact ⟨memory, outputs⟩
  · rintro rfl
    refine ⟨outputs, ?_, ?_⟩
    · -- The bytes of a run are fewer than the addresses, so none is stored over.
      intro i within
      rw [memory]
      refine Memory.read_written (operation.received board.ports regs.general board.memory)
        (fun _ => rfl) within ?_
      intro j below hit
      exact operation.far_inj regs.hl (by omega) (by omega) hit
    · intro address apart
      rw [memory]
      refine Memory.read_of_writes
        (operation.received board.ports regs.general board.memory) (fun _ => rfl) ?_
      intro i below hit
      exact absurd hit (apart i below)

/-- INIR stores across the top of memory and over its own two bytes, which it finds at the ports. -/
theorem inir_stores_itself :
    let cpu := Cpu.fresh.updateRegisters fun regs => (regs.setHL 0xFFFF).setBC 0x0310
    let board := (((Board.fresh.load 0x0000 [0xED, 0xB2]).setPort 0x0310 0xAA).setPort 0x0210
      0xED).setPort 0x0110 0xB2
    let run := runOn (nextUnlooped {}) Board.bus cpu board
    run.value = some 58 ∧ run.device.memory.read 0xFFFF = 0xAA ∧
      run.device.memory.read 0x0001 = 0xB2 ∧ run.cpu.registers.hl = 0x0002 ∧
      run.cpu.registers.general.b = 0 ∧ run.cpu.registers.f.z = true := by
  intro cpu board run
  have stands : (porting true true).Stands cpu board := ⟨rfl, rfl, rfl, by decide, by decide⟩
  have three : rounds cpu.registers.general.b = 3 := by decide
  have spares : InputSpares true cpu board := by
    intro i within
    obtain rfl | rfl | rfl : i = 0 ∨ i = 1 ∨ i = 2 := by omega
    all_goals decide
  obtain ⟨time, b, -, hl, -, z, -, received⟩ := nextUnlooped_porting stands fun _ => spares
  obtain ⟨-, stored, -⟩ := received rfl
  rw [three] at time hl stored
  have top : 0xFFFF = (porting true true).far 0 cpu.registers.hl := by decide
  have wrapped : 0x0001 = (porting true true).far 2 cpu.registers.hl := by decide
  refine ⟨time, ?_, ?_, hl.trans (by decide), b, z⟩
  · rw [top, stored 0 (by decide)]
    decide
  · rw [wrapped, stored 2 (by decide)]
    decide

end BlockOperation

end Z80
