import Z80.Proofs.BlockRun
import Z80.Proofs.Refresh

/-!
# NMI and a handler that returns at once

NMI pushes the program counter, and RETN pops it again. If nothing else stands in the handler and
the push does not write over it, the interrupted program finds everything where it was: the program
counter, the stack pointer, the data, and the note of a repeating block instruction. What shows is
that HALT is over, that the two bytes below the stack pointer hold the address, that the enable is
what was saved of it, and the time.

## Main definitions

* `Memory.HoldsRetn`: the handler is a RETN
* `Cpu.diverted`, `Board.pushed`: what NMI leaves
* `Cpu.resumed`: what the handler leaves

## Main results

* `Exec.runOn_step_nmi`: the step that acknowledges NMI
* `Exec.runOn_handler`: the two steps of the handler
* `Exec.nmi_transparent`: what is left of an interrupt after its handler
-/

namespace Z80

open Exec

/-! ### The stack and the handler -/

/-- The two bytes below the stack pointer. -/
def stacked (sp : Word) : List Word := [sp - 1, sp - 2]

theorem notMem_stacked_iff {sp address : Word} :
    address ∉ stacked sp ↔ address ≠ sp - 1 ∧ address ≠ sp - 2 := by
  simp only [stacked, List.mem_cons, List.not_mem_nil, or_false, not_or]

/-- RETN stands where NMI goes. -/
structure Memory.HoldsRetn (memory : Memory) : Prop where
  selector : memory.read 0x0066 = 0xED
  opcode : memory.read 0x0067 = 0x45

/-- The processor after it has acknowledged NMI. -/
def Cpu.diverted (cpu : Cpu) : Cpu :=
  let accepted := { cpu.ready { nmi := true } with nmiPending := false }.acknowledged cpu.looping
  (accepted.updateRegisters fun regs =>
    { regs with iff1 := false, sp := regs.sp - 2, pc := 0x0066, wz := 0x0066 }).endStep 11

/-- The processor after its handler has returned at once. -/
def Cpu.resumed (cpu : Cpu) : Cpu :=
  let decoded := cpu.diverted.decoded 0x45
  { decoded.updateRegisters fun regs =>
      { regs with
        sp := regs.sp + 2
        pc := cpu.registers.pc
        wz := cpu.registers.pc
        iff1 := regs.iff2 } with
    looping := cpu.looping }.endStep 10

/-- The board after a word is pushed in answer to NMI. -/
def Board.pushed (board : Board) (sp value : Word) : Board :=
  ((board.acknowledge .nonMaskable).write (sp - 1) (Word.high value)).write (sp - 2)
    (Word.low value)

@[simp] theorem Board.memory_pushed (board : Board) (sp value : Word) :
    (board.pushed sp value).memory =
      (board.memory.write (sp - 1) (Word.high value)).write (sp - 2) (Word.low value) := by
  simp [pushed, acknowledge, Board.write, poke]

/-- A push writes nothing but the two bytes below the stack pointer. -/
theorem Board.read_pushed (board : Board) {sp address : Word} (value : Word)
    (unstacked : address ∉ stacked sp) :
    (board.pushed sp value).memory.read address = board.memory.read address := by
  obtain ⟨upper, lower⟩ := notMem_stacked_iff.mp unstacked
  rw [memory_pushed, Memory.read_write_of_ne _ _ lower, Memory.read_write_of_ne _ _ upper]

/-- What is pushed can be popped. -/
theorem Board.word_pushed (board : Board) (sp value : Word) :
    Word.ofBytes ((board.pushed sp value).memory.read (sp - 2 + 1))
      ((board.pushed sp value).memory.read (sp - 2)) = value := by
  have above : sp - 2 + 1 = sp - 1 := by bv_omega
  have apart : sp - 1 ≠ sp - 2 := by bv_omega
  rw [memory_pushed, above, Memory.read_write_of_ne _ _ apart, Memory.read_write_same,
    Memory.read_write_same, Word.ofBytes_high_low]

namespace Exec

variable {cpu : Cpu} {board : Board}

/-- Two steps run an extended instruction. -/
theorem runOn_nextInstruction_extended {opcode : Byte} {instruction : Instruction}
    (boundary : cpu.pending = none) (awake : cpu.halted = false)
    (undisturbed : cpu.nmiPending = false)
    (selector : board.memory.read cpu.registers.pc = 0xED)
    (stored : board.memory.read (cpu.registers.pc + 1) = opcode)
    (role : Page.extended.role opcode = .instruction instruction) :
    runOn (nextInstruction {}) Board.bus cpu board =
      let executed := runOn (instruction.execute 0) Board.bus (cpu.decoded opcode)
        (BlockOperation.fetchedFrom cpu.registers.pc board)
      let tacts := (Segment.instruction .extended opcode executed.value).tacts
      ⟨some (4 + tacts), executed.cpu.endStep tacts, executed.device⟩ := by
  obtain ⟨fuel, enough⟩ : ∃ fuel, stepLimit = fuel + 2 := ⟨stepLimit - 2, rfl⟩
  extract_lets executed tacts
  have fits : 4 + tacts < 2 ^ 32 := by
    have most : tacts ≤ 25 := Segment.tacts_le _
    omega
  refine runOn_nextInstruction_of_counted ?_ fits
  rw [observeInstruction, enough, runOn_drive, unheld,
    runOn_step_selector boundary awake undisturbed selector]
  -- The prefix byte leaves the instruction open and takes four tacts.
  change runOn (drive _ _ _ (fuel + 1) {} 4) Board.bus cpu.selected _ = _
  rw [runOn_drive, runOn_step_extended role stored]
  rfl

/-- The step that acknowledges NMI pushes the program counter. -/
theorem runOn_step_nmi (boundary : cpu.pending = none) (unsuppressed : cpu.suppressed = false) :
    runOn (step { nmi := true }) Board.bus cpu board =
      ⟨.nonMaskable, cpu.diverted, board.pushed cpu.registers.sp cpu.registers.pc⟩ := by
  have turn : (cpu.ready { nmi := true }).turn { nmi := true } = .nonMaskable := by
    rw [Cpu.turn_eq_nonMaskable_iff]
    simp [Cpu.ready, Cpu.beginStep, Cpu.sampleNmi, boundary, unsuppressed]
  rw [runOn_step, turn]
  rfl

/-- RETN pops the program counter, restores the enable, and notes again whether a repeating block
instruction was interrupted. -/
theorem runOn_execute_retn (cpu : Cpu) (board : Board) :
    let sp := cpu.registers.sp
    let target := Word.ofBytes (board.memory.read (sp + 1)) (board.memory.read sp)
    let run := runOn (Instruction.execute 0 (.extended (.returnFromInterrupt false))) Board.bus cpu
      board
    run.value = false ∧ run.device.memory = board.memory ∧ run.cpu =
      { cpu with
        registers := { cpu.registers with
          sp := sp + 2, pc := target, wz := target, iff1 := cpu.registers.iff2 }
        looping := cpu.loopInterrupted } := by
  intro sp target run
  have asked (board : Board) :
      Board.bus.pointer .sp (cpu.registers.sourceValue .sp) board = (sp, board) := rfl
  have shown (address : Word) (board : Board) :
      (Board.bus.read address .data board).1 = board.memory.read address := rfl
  have kept (address : Word) (board : Board) :
      (Board.bus.read address .data board).2.memory = board.memory := Board.memory_record ..
  simp [run, target, Instruction.execute, ExtendedOperation.execute, untaken, returnToCaller,
    popWord, pointer, readWord, Exec.read, jumpTo, goTo, latch, asked, shown, kept,
    Cpu.updateRegisters]

/-- The handler goes back to where NMI was taken and leaves memory as it is. -/
theorem runOn_handler (boundary : cpu.pending = none)
    (holds : (board.pushed cpu.registers.sp cpu.registers.pc).memory.HoldsRetn) :
    let pushed := board.pushed cpu.registers.sp cpu.registers.pc
    let run := runOn (nextInstruction {}) Board.bus cpu.diverted pushed
    run.value = some 14 ∧ run.cpu = cpu.resumed ∧ run.device.memory = pushed.memory := by
  intro pushed
  have started : cpu.diverted.pending = none := boundary
  have retn : Page.extended.role 0x45 =
      .instruction (.extended (.returnFromInterrupt false)) := rfl
  have handled := runOn_nextInstruction_extended started rfl rfl holds.selector holds.opcode retn
  obtain ⟨untaken, memory, after⟩ := runOn_execute_retn (cpu.diverted.decoded 0x45)
    (BlockOperation.fetchedFrom cpu.diverted.registers.pc pushed)
  have sp : (cpu.diverted.decoded 0x45).registers.sp = cpu.registers.sp - 2 := rfl
  rw [BlockOperation.memory_fetchedFrom] at memory after
  rw [sp, board.word_pushed] at after
  rw [handled]
  refine ⟨?_, ?_, memory⟩
  · exact congrArg (fun taken => some (4 + (Segment.instruction .extended 0x45 taken).tacts))
      untaken
  · change Cpu.endStep _ _ = _
    rw [after, untaken]
    rfl

end Exec

/-- Of the registers, the handler leaves all as they were but the refresh counter, the address
latch, the enable, and the parity flag if that was a copy of the enable. -/
theorem Cpu.registers_resumed (cpu : Cpu) :
    let regs := cpu.registers
    cpu.resumed.registers =
      { regs.refresh.refresh.refresh with
        accumulator := ⟨regs.a, { regs.f with p := regs.f.p && !cpu.enableCopied }⟩
        iff1 := regs.iff2
        wz := regs.pc } := by
  intro regs
  have moved : cpu.resumed.registers =
      { regs.refresh.refresh.refresh with
        accumulator := ⟨regs.a, { regs.f with p := regs.f.p && !cpu.enableCopied }⟩
        sp := regs.sp - 2 + 2
        iff1 := regs.iff2
        wz := regs.pc } := rfl
  have popped : regs.sp - 2 + 2 = regs.sp := by bv_omega
  rw [moved, popped]
  rfl

/-- It takes twenty-five tacts: eleven for NMI, and four and ten for the two bytes of RETN. -/
theorem Cpu.total_resumed (cpu : Cpu) : cpu.resumed.total = cpu.total.after 25 := by
  change ((cpu.total.after 11).after 4).after 10 = _
  rw [Tacts.after_after, Tacts.after_after]

/-- A push that spares the handler leaves it in place. -/
theorem Memory.HoldsRetn.pushed {board : Board} (holds : board.memory.HoldsRetn) {sp : Word}
    (spared : 0x0066 ∉ stacked sp ∧ 0x0067 ∉ stacked sp) (value : Word) :
    (board.pushed sp value).memory.HoldsRetn where
  selector := (board.read_pushed value spared.1).trans holds.selector
  opcode := (board.read_pushed value spared.2).trans holds.opcode

namespace Exec

/-- NMI is transparent to the interrupted program. On every boundary where interrupts are not
suppressed, halted or not, in a repeating block instruction or not, if the handler is a RETN that
the push spares, then NMI and its handler leave all registers as they were, but that R has moved on
by three, WZ holds the program counter, the enable is what was saved of it, and the parity flag is
clear if the instruction before has loaded it with the enable. The note of a repeating block
instruction is as it was, HALT is over, memory holds the program counter below the stack pointer
and is otherwise as it was, and twenty-five tacts have gone by. -/
theorem nmi_transparent {cpu : Cpu} {board : Board} (boundary : cpu.pending = none)
    (unsuppressed : cpu.suppressed = false) (holds : board.memory.HoldsRetn)
    (spared : 0x0066 ∉ stacked cpu.registers.sp ∧ 0x0067 ∉ stacked cpu.registers.sp) :
    let accepted := runOn (step { nmi := true }) Board.bus cpu board
    let returned := runOn (nextInstruction {}) Board.bus accepted.cpu accepted.device
    let regs := cpu.registers
    let found := returned.cpu.registers
    let memory := returned.device.memory
    accepted.value = .nonMaskable ∧ returned.value = some 14 ∧
      found =
        { regs with
          accumulator := ⟨regs.a, { regs.f with p := regs.f.p && !cpu.enableCopied }⟩
          iff1 := regs.iff2
          wz := regs.pc
          r := found.r } ∧
      RefreshedBy 3 regs.r found.r ∧ returned.cpu.looping = cpu.looping ∧
      returned.cpu.halted = false ∧ returned.cpu.outputs.halt = false ∧
      (∀ address, address ≠ regs.sp - 1 → address ≠ regs.sp - 2 →
        memory.read address = board.memory.read address) ∧
      memory.read (regs.sp - 1) = Word.high regs.pc ∧
      memory.read (regs.sp - 2) = Word.low regs.pc ∧
      returned.cpu.total = cpu.total.after 25 := by
  obtain ⟨time, resumed, same⟩ := runOn_handler boundary (holds.pushed spared cpu.registers.pc)
  have apart : cpu.registers.sp - 1 ≠ cpu.registers.sp - 2 := by bv_omega
  have refreshed :
      RefreshedBy 3 cpu.registers.r cpu.registers.refresh.refresh.refresh.r :=
    ((RefreshedBy.refresh _).trans (.refresh _)).trans (.refresh _)
  simp only [runOn_step_nmi boundary unsuppressed, time, resumed, same, cpu.registers_resumed,
    cpu.total_resumed]
  refine ⟨trivial, trivial, rfl, refreshed, rfl, rfl, rfl, ?_, ?_, ?_, trivial⟩
  · intro address upper lower
    exact board.read_pushed _ (notMem_stacked_iff.mpr ⟨upper, lower⟩)
  · rw [Board.memory_pushed, Memory.read_write_of_ne _ _ apart, Memory.read_write_same]
  · rw [Board.memory_pushed, Memory.read_write_same]

/-- The push goes around the bottom of memory, and HALT and the copy of the enable are over. -/
theorem nmi_transparent_around_zero :
    let cpu : Cpu :=
      { Cpu.fresh.updateRegisters fun regs => { regs with sp := 1, pc := 0x1234, iff2 := true } with
        halted := true, looping := true, enableCopied := true }
    let board := Board.fresh.load 0x0066 [0xED, 0x45]
    let accepted := runOn (step { nmi := true }) Board.bus cpu board
    let returned := runOn (nextInstruction {}) Board.bus accepted.cpu accepted.device
    let found := returned.cpu.registers
    returned.value = some 14 ∧ found.pc = 0x1234 ∧ found.sp = 1 ∧ cpu.registers.f.p = true ∧
      found.f.p = false ∧ found.iff1 = true ∧ returned.cpu.looping = true ∧
      returned.cpu.halted = false ∧ returned.device.memory.read 0x0000 = 0x12 ∧
      returned.device.memory.read 0xFFFF = 0x34 ∧ returned.cpu.total = cpu.total.after 25 := by
  intro cpu board
  have boundary : cpu.pending = none := rfl
  have holds : board.memory.HoldsRetn := ⟨by decide, by decide⟩
  obtain ⟨-, time, registers, -, looping, awake, -, -, upper, lower, total⟩ :=
    nmi_transparent boundary rfl holds (by decide)
  have bottom : cpu.registers.sp - 1 = 0x0000 := by decide
  have top : cpu.registers.sp - 2 = 0xFFFF := by decide
  rw [bottom] at upper
  rw [top] at lower
  exact ⟨time, congrArg Registers.pc registers, congrArg Registers.sp registers, by decide,
    congrArg (·.f.p) registers, congrArg Registers.iff1 registers, looping, awake,
    upper.trans (by decide), lower.trans (by decide), total⟩

end Exec

end Z80
