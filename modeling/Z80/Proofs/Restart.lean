import Z80.Proofs.Injection
import Z80.Proofs.Journal

/-!
# Two ways to a restart

In the restart mode a processor that accepts an interrupt pushes the program counter and goes on at
a fixed address by itself. In the injected mode it runs what the device puts on the data lines, and
lines that nobody drives float high, which spells the restart at that address. The two are worked
out apart, one in the acknowledgement and the other through the table of instructions, and they come
to the same.

## Main definitions

* `Cpu.inMode`: a processor in another interrupt mode
* `stacking`: the calls of a push

## Main results

* `Operation.execute_restart`: a restart does what an acknowledgement does that goes to its address
* `Exec.restart_as_injected`: an interrupt is answered alike in both modes
-/

namespace Z80

open Exec

/-- The processor in an interrupt mode. -/
def Cpu.inMode (cpu : Cpu) (mode : InterruptMode) : Cpu :=
  cpu.updateRegisters fun regs => { regs with im := mode }

/-- What RST does is what an acknowledgement does that goes to its address. -/
theorem Operation.execute_restart (index : Index) (number : BitVec 3) :
    (Operation.restart number).execute index = untaken (interruptTo (number.setWidth 16 * 8)) := rfl

/-- Data lines that float high spell the restart at the fixed address. -/
theorem Page.role_floating : Page.main.role 0xFF = .instruction (.main .hl (.restart 7)) := rfl

/-- The calls of a push from a stack pointer down. -/
def stacking (sp value : Word) : List Exchange :=
  [⟨.pointer .sp sp, sp⟩, ⟨.write (sp - 1) (Word.high value), ()⟩,
    ⟨.write (sp - 2) (Word.low value), ()⟩]

/-- The board after the writes of a push. -/
def Board.stack (board : Board) (sp value : Word) : Board :=
  (board.write (sp - 1) (Word.high value)).write (sp - 2) (Word.low value)

namespace Board

theorem write_unlogged (address : Word) (value : Byte) (board : Board) :
    (board.write address value).unlogged = board.unlogged.poke address value :=
  record_unlogged ..

/-- A push changes nothing but the memory. -/
theorem stack_unlogged (board : Board) (sp value : Word) :
    (board.stack sp value).unlogged =
      (board.unlogged.poke (sp - 1) (Word.high value)).poke (sp - 2) (Word.low value) := by
  rw [stack, write_unlogged, write_unlogged]

end Board

/-- The processor with its program counter pushed and an address in its place. -/
def Cpu.divertedTo (cpu : Cpu) (target : Word) : Cpu :=
  cpu.updateRegisters fun regs => { regs with sp := regs.sp - 2, pc := target, wz := target }

namespace Exec

/-- What a maskable interrupt is answered with in a mode. -/
def answer : InterruptMode → Exec Segment
  | .injected => inject
  | .restart => do
    interruptTo 0x0038
    return .restarted
  | .vectored => jumpThroughTable

section Acceptance

variable {σ : Type} (bus : Bus σ) (device : σ) (cpu : Cpu) {lines : Lines}

/-- A step that accepts a maskable interrupt acknowledges it and gives the answer of the mode. -/
theorem step_accepts {mode : InterruptMode} (accepts : (cpu.ready lines).turn lines = .maskable)
    (selected : cpu.registers.im = mode) :
    let told := bus.acknowledge (.maskable mode.number) device
    let answered := runOn (answer mode) bus (cpu.accepted lines) told
    runOn (step lines) bus cpu device =
        ⟨answered.value, answered.cpu.endStep answered.value.tacts, answered.device⟩ ∧
      callsOn (step lines) bus cpu device =
        ⟨.acknowledge (.maskable mode.number), ()⟩ ::
          callsOn (answer mode) bus (cpu.accepted lines) told := by
  -- A processor that is held accepts nothing.
  have same : unheld lines = lines := by
    obtain ⟨int, nmi, reset, wait⟩ := lines
    obtain rfl : wait = false := (Cpu.turn_eq_maskable_iff.mp accepts).1
    rfl
  have here : (cpu.ready lines).registers.im = mode := selected
  rw [runOn_step, callsOn_step, accepts, Cpu.accepted, same]
  simp only [perform, acknowledgeMaskable, runOn_bind, callsOn_bind, runOn_registers, here]
  cases mode <;> exact ⟨rfl, rfl⟩

end Acceptance

variable (cpu : Cpu) {board : Board}

/-- An acknowledgement that goes to an address pushes the program counter. -/
theorem runOn_interruptTo (target : Word) (board : Board) :
    runOn (interruptTo target) Board.bus cpu board =
      ⟨(), cpu.divertedTo target, board.stack cpu.registers.sp cpu.registers.pc⟩ := rfl

theorem callsOn_interruptTo (target : Word) (board : Board) :
    callsOn (interruptTo target) Board.bus cpu board =
      stacking cpu.registers.sp cpu.registers.pc := rfl

theorem answer_restart (board : Board) :
    let regs := cpu.registers
    runOn (answer .restart) Board.bus cpu board =
        ⟨.restarted, cpu.divertedTo 0x0038, board.stack regs.sp regs.pc⟩ ∧
      callsOn (answer .restart) Board.bus cpu board = stacking regs.sp regs.pc := by
  simp only [answer, runOn_bind, callsOn_bind, runOn_interruptTo, callsOn_interruptTo]
  exact ⟨rfl, rfl⟩

/-- The device is asked first, and the byte that it gives is noted. -/
theorem answer_injected (floating : board.dataLines = 0xFF) :
    let regs := cpu.registers
    let noted := { cpu with lastFetched := 0xFF, lastOpcode := 0xFF }
    runOn (answer .injected) Board.bus cpu board =
        ⟨.injected 0xFF false, noted.divertedTo 0x0038,
          (board.record (.dataLines 0xFF)).stack regs.sp regs.pc⟩ ∧
      callsOn (answer .injected) Board.bus cpu board =
        ⟨.dataLines, 0xFF⟩ :: stacking regs.sp regs.pc := by
  have answered : Board.bus.dataLines board = (0xFF, board.record (.dataLines 0xFF)) := by
    rw [← floating]
    rfl
  have restart : Instruction.execute 0 (.main .hl (.restart 7)) = untaken (interruptTo 0x0038) :=
    Operation.execute_restart .hl 7
  simp only [answer, inject, runOn_bind, callsOn_bind, runOn_dataLines, callsOn_dataLines,
    answered, Page.role_floating, restart, untaken, runOn_modify, callsOn_modify,
    runOn_interruptTo, callsOn_interruptTo]
  exact ⟨rfl, rfl⟩

section Boards

variable {lines : Lines}

theorem step_restarts (board : Board) (accepts : (cpu.ready lines).turn lines = .maskable)
    (selected : cpu.registers.im = .restart) :
    let regs := cpu.registers
    runOn (step lines) Board.bus cpu board =
        ⟨.restarted, ((cpu.accepted lines).divertedTo 0x0038).endStep 13,
          (board.acknowledge (.maskable 1)).stack regs.sp regs.pc⟩ ∧
      callsOn (step lines) Board.bus cpu board =
        ⟨.acknowledge (.maskable 1), ()⟩ :: stacking regs.sp regs.pc := by
  obtain ⟨run, calls⟩ := step_accepts Board.bus board cpu accepts selected
  have told : Board.bus.acknowledge (.maskable InterruptMode.restart.number) board =
      board.acknowledge (.maskable 1) := rfl
  obtain ⟨answered, pushed⟩ :=
    answer_restart (cpu.accepted lines) (board.acknowledge (.maskable 1))
  simp only [told, answered, pushed] at run calls
  exact ⟨run, calls⟩

theorem step_injects_floating (accepts : (cpu.ready lines).turn lines = .maskable)
    (selected : cpu.registers.im = .injected) (floating : board.dataLines = 0xFF) :
    let regs := cpu.registers
    let noted := { cpu.accepted lines with lastFetched := 0xFF, lastOpcode := 0xFF }
    runOn (step lines) Board.bus cpu board =
        ⟨.injected 0xFF false, (noted.divertedTo 0x0038).endStep 13,
          ((board.acknowledge (.maskable 0)).record (.dataLines 0xFF)).stack regs.sp regs.pc⟩ ∧
      callsOn (step lines) Board.bus cpu board =
        ⟨.acknowledge (.maskable 0), ()⟩ :: ⟨.dataLines, 0xFF⟩ :: stacking regs.sp regs.pc := by
  obtain ⟨run, calls⟩ := step_accepts Board.bus board cpu accepts selected
  have told : Board.bus.acknowledge (.maskable InterruptMode.injected.number) board =
      board.acknowledge (.maskable 0) := rfl
  -- The acknowledgement itself leaves the data lines alone.
  have still : (board.acknowledge (.maskable 0)).dataLines = 0xFF :=
    (Board.dataLines_record ..).trans floating
  obtain ⟨answered, asked⟩ := answer_injected (cpu.accepted lines) still
  simp only [told, answered, asked] at run calls
  exact ⟨run, calls⟩

end Boards

/-- An interrupt in the restart mode, and one in the injected mode with the data lines floating,
make the same writes, take the same time and leave the same processor and the same board, but for
what is noted of the mode and of the byte that was taken from the data lines. -/
theorem restart_as_injected (board : Board) {lines : Lines}
    (accepts : (cpu.ready lines).turn lines = .maskable) (floating : board.dataLines = 0xFF) :
    let direct := runOn (step lines) Board.bus (cpu.inMode .restart) board
    let injected := runOn (step lines) Board.bus (cpu.inMode .injected) board
    let pushes := stacking cpu.registers.sp cpu.registers.pc
    callsOn (step lines) Board.bus (cpu.inMode .restart) board =
        ⟨.acknowledge (.maskable 1), ()⟩ :: pushes ∧
      callsOn (step lines) Board.bus (cpu.inMode .injected) board =
        ⟨.acknowledge (.maskable 0), ()⟩ :: ⟨.dataLines, 0xFF⟩ :: pushes ∧
      direct.value.tacts = 13 ∧ injected.value.tacts = 13 ∧
      direct.value.busy = false ∧ injected.value.busy = false ∧
      injected.cpu =
        { direct.cpu.inMode .injected with lastFetched := 0xFF, lastOpcode := 0xFF } ∧
      direct.device.acknowledged = .maskable 1 :: board.acknowledged ∧
      injected.device.unlogged =
        { direct.device.unlogged with acknowledged := .maskable 0 :: board.acknowledged } := by
  intro direct injected pushes
  obtain ⟨restarts, pushed⟩ := step_restarts (cpu.inMode .restart) board accepts rfl
  obtain ⟨injects, asked⟩ := step_injects_floating (cpu.inMode .injected) accepts rfl floating
  refine ⟨pushed, asked, ?_⟩
  simp only [direct, injected, restarts, injects]
  refine ⟨rfl, rfl, rfl, rfl, rfl, ?_, ?_⟩
  · simp [Board.stack, Board.write, Board.poke, Board.acknowledge]
  · rw [Board.stack_unlogged, Board.stack_unlogged, Board.record_unlogged, Board.acknowledge,
      Board.acknowledge, Board.record_unlogged, Board.record_unlogged]
    rfl

/-- A halted processor whose stack goes around zero. -/
theorem restart_as_injected_over_halt :
    let cpu := { Cpu.fresh.updateRegisters fun regs =>
      { regs with sp := 0x0001, pc := 0x1234, iff1 := true } with halted := true }
    let direct := runOn (step { int := true }) Board.bus (cpu.inMode .restart) Board.fresh
    let injected := runOn (step { int := true }) Board.bus (cpu.inMode .injected) Board.fresh
    callsOn (step { int := true }) Board.bus (cpu.inMode .injected) Board.fresh =
        [⟨.acknowledge (.maskable 0), ()⟩, ⟨.dataLines, 0xFF⟩, ⟨.pointer .sp 0x0001, 0x0001⟩,
          ⟨.write 0x0000 0x12, ()⟩, ⟨.write 0xFFFF 0x34, ()⟩] ∧
      injected.cpu =
        { direct.cpu.inMode .injected with lastFetched := 0xFF, lastOpcode := 0xFF } := by
  intro cpu direct injected
  obtain ⟨-, calls, -, -, -, -, same, -, -⟩ :=
    restart_as_injected cpu Board.fresh (rfl : (cpu.ready { int := true }).turn _ = .maskable) rfl
  have pushes : stacking 0x0001 0x1234 = [⟨.pointer .sp 0x0001, 0x0001⟩,
      ⟨.write 0x0000 0x12, ()⟩, ⟨.write 0xFFFF 0x34, ()⟩] := rfl
  exact ⟨pushes ▸ calls, same⟩

end Exec

end Z80
