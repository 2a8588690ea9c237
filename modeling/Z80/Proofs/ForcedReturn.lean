import Z80.Proofs.BlockRun
import Z80.Proofs.Decoding
import Z80.Proofs.Stack

/-!
# A return that does not run

A return can be forced on a processor from outside: the address is taken off the stack as RET would
take it, in no time and without a fetch. It leaves the memory alone as RET does, and the registers
as RET does but for two. The refresh counter does not count a fetch that was not made. The address
latch keeps what it held, where RET fills it with the address that it goes to, so it shows in the
undocumented flags of a later bit test which of the two returns it was.

## Main definitions

* `Cpu.executing`: a processor about to execute an instruction of one byte
* `Cpu.returnedTo`: a processor that has taken an address off its stack

## Main results

* `Exec.runOn_nextInstruction_main`: an instruction of the main page, up to the next boundary
* `Exec.forceReturn_returns_iff`: what a forced return leaves, and when it is what RET leaves
-/

namespace Z80

open Exec

/-- The processor that has fetched an opcode of the main page and is about to execute it. -/
def Cpu.executing (cpu : Cpu) (opcode : Byte) : Cpu :=
  { cpu.begun.fetched opcode with pending := none, lastOpcode := opcode }

/-- The processor with an address in place of the program counter and a word less on its stack. -/
def Cpu.returnedTo (cpu : Cpu) (target : Word) : Cpu :=
  cpu.updateRegisters fun regs => { regs with sp := regs.sp + 2, pc := target }

namespace Exec

section Main

variable {cpu : Cpu} {board : Board} {opcode : Byte} {instruction : Instruction}

/-- One step runs an instruction of the main page. -/
theorem runOn_step_main (begins : cpu.Begins {}) (stored : board.peek cpu.registers.pc = opcode)
    (role : Page.main.role opcode = .instruction instruction) :
    runOn (step {}) Board.bus cpu board =
      let executed := runOn (instruction.execute 0) Board.bus (cpu.executing opcode)
        (board.read cpu.registers.pc .opcode).2
      let segment := Segment.instruction .main opcode executed.value
      ⟨segment, executed.cpu.endStep segment.tacts, executed.device⟩ := by
  have turn : (cpu.ready {}).turn {} = .begin := begins.turn
  have opened : runOn (perform cpu.looping .begin) Board.bus (cpu.ready {}) board =
      runOn (fetchOpcode >>= decode .main 0) Board.bus cpu.begun board := rfl
  rw [runOn_step, turn, opened, runOn_bind, runOn_fetchOpcode cpu.begun board stored]
  simp only [runOn_decode_instruction _ _ role]
  rfl

/-- Nothing but this step is made up to the next boundary. -/
theorem runOn_nextInstruction_main (begins : cpu.Begins {})
    (stored : board.peek cpu.registers.pc = opcode)
    (role : Page.main.role opcode = .instruction instruction) :
    runOn (nextInstruction {}) Board.bus cpu board =
      let executed := runOn (instruction.execute 0) Board.bus (cpu.executing opcode)
        (board.read cpu.registers.pc .opcode).2
      let tacts := (Segment.instruction .main opcode executed.value).tacts
      ⟨some tacts, executed.cpu.endStep tacts, executed.device⟩ := by
  obtain ⟨fuel, enough⟩ : ∃ fuel, stepLimit = fuel + 1 := ⟨stepLimit - 1, rfl⟩
  extract_lets executed tacts
  have fits : tacts < 2 ^ 32 := Nat.lt_of_le_of_lt (Segment.tacts_le _) (by decide)
  refine runOn_nextInstruction_of_counted ?_ fits
  rw [observeInstruction, enough, runOn_drive, unheld, runOn_step_main begins stored role]
  simp [addTacts, Segment.busy, executed, tacts]

end Main

section Returns

variable (cpu : Cpu) (board : Board)

theorem runOn_forceReturn :
    runOn forceReturn Board.bus cpu board =
      ⟨(), { cpu.returnedTo (board.memory.word cpu.registers.sp) with pending := none },
        board.readWord cpu.registers.sp⟩ := by
  simp only [forceReturn, goTo, runOn_bind, runOn_popWord, runOn_updateRegisters, runOn_modify]
  rfl

/-- RET latches the address that it goes to. -/
theorem runOn_execute_ret :
    let target := board.memory.word cpu.registers.sp
    runOn (Instruction.execute 0 (.main .hl .ret)) Board.bus cpu board =
      ⟨false, (cpu.returnedTo target).updateRegisters fun regs => { regs with wz := target },
        board.readWord cpu.registers.sp⟩ := by
  simp only [Instruction.execute, Operation.execute, untaken, returnToCaller, jumpTo, goTo, latch,
    runOn_bind, runOn_popWord, runOn_updateRegisters, runOn_pure]
  rfl

end Returns

variable {cpu : Cpu} {board : Board}

/-- The registers behind a RET that has run. -/
theorem nextInstruction_returns (begins : cpu.Begins {})
    (stored : board.peek cpu.registers.pc = 0xC9) :
    let run := runOn (nextInstruction {}) Board.bus cpu board
    let target := board.memory.word cpu.registers.sp
    run.value = some 10 ∧ run.device.memory = board.memory ∧
      run.cpu.registers =
        { (cpu.returnedTo target).registers with wz := target, r := cpu.registers.refresh.r } := by
  intro run target
  have role : Page.main.role 0xC9 = .instruction (.main .hl .ret) := rfl
  have fetched : (board.read cpu.registers.pc .opcode).2.memory = board.memory :=
    Board.memory_record ..
  have sp : (cpu.executing 0xC9).registers.sp = cpu.registers.sp := rfl
  simp only [run, runOn_nextInstruction_main begins stored role, runOn_execute_ret, sp, fetched]
  exact ⟨rfl, (Board.memory_readWord ..).trans fetched, rfl⟩

/-- A forced return leaves the memory as a RET that runs does, and all registers but the refresh
counter and the address latch. The latch keeps what it held, so the registers are the same but for
the refresh counter exactly if the latch held the address of the return before. -/
theorem forceReturn_returns_iff (begins : cpu.Begins {})
    (stored : board.peek cpu.registers.pc = 0xC9) :
    let forced := runOn forceReturn Board.bus cpu board
    let returned := runOn (nextInstruction {}) Board.bus cpu board
    returned.value = some 10 ∧ forced.device.memory = returned.device.memory ∧
      forced.cpu.registers =
        { returned.cpu.registers with wz := cpu.registers.wz, r := cpu.registers.r } ∧
      (({ forced.cpu.registers with r := 0 } : Registers) =
          { returned.cpu.registers with r := 0 } ↔
        cpu.registers.wz = returned.cpu.registers.pc) := by
  intro forced returned
  obtain ⟨time, memory, registers⟩ := nextInstruction_returns begins stored
  have unwritten : forced.device.memory = board.memory := by
    simp only [forced, runOn_forceReturn]
    exact Board.memory_readWord ..
  have taken : forced.cpu.registers =
      (cpu.returnedTo (board.memory.word cpu.registers.sp)).registers := by
    simp only [forced, runOn_forceReturn]
  refine ⟨time, unwritten.trans memory.symm, ?_, ?_⟩
  · rw [taken, registers]
    rfl
  · rw [taken, registers]
    constructor
    · intro same
      exact congrArg Registers.wz same
    · intro latched
      exact congrArg (fun wz : Word =>
        ({ (cpu.returnedTo _).registers with wz := wz, r := 0 } : Registers)) latched

/-- Behind EI with NMI waiting, a return whose address lies across the top of memory and is latched
already can be forced without a trace but in the refresh counter. -/
theorem forceReturn_returns_across_top :
    let regs := { Cpu.fresh.registers with pc := 0x4000, sp := 0xFFFF, wz := 0x1234 }
    let cpu := { Cpu.fresh with registers := regs, suppressed := true, nmiPending := true }
    let board := (Board.fresh.load 0x4000 [0xC9]).load 0xFFFF [0x34, 0x12]
    let forced := runOn forceReturn Board.bus cpu board
    let returned := runOn (nextInstruction {}) Board.bus cpu board
    returned.value = some 10 ∧ forced.device.memory = returned.device.memory ∧
      ({ forced.cpu.registers with r := 0 } : Registers) =
        { returned.cpu.registers with r := 0 } := by
  intro regs cpu board
  have begins : cpu.Begins {} := ⟨rfl, rfl, .inl rfl, rfl⟩
  have stored : board.peek cpu.registers.pc = 0xC9 := by decide
  have target : board.memory.word cpu.registers.sp = 0x1234 := by decide
  obtain ⟨time, memory, -, same⟩ := forceReturn_returns_iff begins stored
  refine ⟨time, memory, same.mpr ?_⟩
  rw [(nextInstruction_returns begins stored).2.2, target]
  rfl

/-- Forced on a processor that has latched another address, a return leaves that in the latch. -/
theorem forceReturn_returns_fails :
    ¬ ∀ (cpu : Cpu) (board : Board), cpu.Begins {} → board.peek cpu.registers.pc = 0xC9 →
      let forced := runOn forceReturn Board.bus cpu board
      let returned := runOn (nextInstruction {}) Board.bus cpu board
      forced.device.memory = returned.device.memory ∧
        ({ forced.cpu.registers with r := 0 } : Registers) =
          { returned.cpu.registers with r := 0 } := by
  intro same
  let cpu := Cpu.fresh.updateRegisters fun regs => { regs with sp := 0x1000 }
  let board := (Board.fresh.load 0 [0xC9]).load 0x1000 [0x34, 0x12]
  have begins : cpu.Begins {} := ⟨rfl, rfl, .inr ⟨rfl, rfl, .inl rfl⟩, rfl⟩
  have stored : board.peek cpu.registers.pc = 0xC9 := by decide
  have target : board.memory.word cpu.registers.sp = 0x1234 := by decide
  have registers := (same cpu board begins stored).2
  rw [(nextInstruction_returns begins stored).2.2, runOn_forceReturn, target] at registers
  have latches : (0 : Word) = 0x1234 := congrArg Registers.wz registers
  exact absurd latches (by decide)

end Exec

end Z80
