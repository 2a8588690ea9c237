import Mathlib.Tactic.MkIffOfInductiveProp
import Z80.Bus.Board
import Z80.Proofs.Runs
import Z80.Proofs.Step
import Z80.Proofs.Stream

/-!
# The refresh counter and M1

A byte of the instruction stream is read as an opcode or as an operand. Reading an opcode refreshes
and asserts M1, and so does an acknowledgement; nothing else touches the refresh counter but a reset
and the instruction that stores it. Over a run the counter therefore goes on by the opcodes read and
the interrupts acknowledged.

## Main definitions

* `streamAccesses`: what the calls read the bytes of the instruction stream as
* `refreshes`: how many calls read an opcode or acknowledge an interrupt
* `RefreshedBy`: the refresh counter has gone on by a count
* `Segment.Accounts`: what a step shows of the instruction stream, of R and of M1

## Main results

* `Instruction.execute_unrefreshed`: no instruction reads an opcode
* `Exec.step_accounts`: every step accounts for the bytes that it reads
* `Cpu.refreshed_accrues`: so the refresh counter goes on by what the calls of a run refresh
* `Exec.refresh_accounted`: both, on a bus
-/

namespace Z80

open Exec

/-! ### What the calls read -/

/-- What the call reads a byte of the instruction stream as, if it reads one. -/
@[simp] def Exchange.streamAccess? : Exchange → Option Access
  | ⟨.read _ .opcode, _⟩ => some .opcode
  | ⟨.read _ .operand, _⟩ => some .operand
  | _ => none

/-- The call reads an opcode or acknowledges an interrupt. -/
@[simp] def Exchange.refreshes : Exchange → Bool
  | ⟨.read _ .opcode, _⟩ | ⟨.acknowledge _, _⟩ => true
  | _ => false

/-- What the calls read the bytes of the instruction stream as, in order. -/
def streamAccesses (calls : List Exchange) : List Access :=
  calls.filterMap Exchange.streamAccess?

/-- How many of the calls refresh: those that read an opcode, and those that acknowledge an
interrupt. -/
def refreshes (calls : List Exchange) : Nat :=
  (streamAccesses calls).count .opcode + (acknowledgements calls).length

section Calls

variable (call : Exchange) (calls more : List Exchange)

@[simp] theorem streamAccesses_nil : streamAccesses [] = [] := rfl

@[simp] theorem streamAccesses_cons :
    streamAccesses (call :: calls) = call.streamAccess?.toList ++ streamAccesses calls := by
  rw [streamAccesses, List.filterMap_cons]
  cases call.streamAccess? <;> rfl

@[simp] theorem streamAccesses_append :
    streamAccesses (calls ++ more) = streamAccesses calls ++ streamAccesses more :=
  List.filterMap_append

@[simp] theorem refreshes_append :
    refreshes (calls ++ more) = refreshes calls + refreshes more := by
  simp only [refreshes, streamAccesses_append, acknowledgements_append, List.count_append,
    List.length_append]
  omega

@[simp] theorem refreshes_nil : refreshes [] = 0 := rfl

@[simp] theorem refreshes_cons :
    refreshes (call :: calls) = (if call.refreshes then 1 else 0) + refreshes calls := by
  obtain ⟨request, _⟩ := call
  cases request with
  | read _ access =>
    cases access <;> simp [refreshes]
    omega
  | acknowledge _ => simp [refreshes]; omega
  | _ => simp [refreshes]

end Calls

/-! ### The counter -/

/-- The refresh counter has gone on by a count: its low seven bits have grown by it, around the top,
and its top bit is what it was. -/
structure RefreshedBy (count : Nat) (before after : Byte) : Prop where
  top : after.msb = before.msb
  low : after.setWidth 7 = before.setWidth 7 + BitVec.ofNat 7 count

namespace RefreshedBy

variable {count more : Nat} {before between after : Byte}

theorem refl (byte : Byte) : RefreshedBy 0 byte byte := ⟨rfl, by simp⟩

theorem refresh (regs : Registers) : RefreshedBy 1 regs.r regs.refresh.r :=
  ⟨regs.msb_r_refresh, regs.setWidth_r_refresh⟩

theorem trans (first : RefreshedBy count before between)
    (second : RefreshedBy more between after) : RefreshedBy (count + more) before after where
  top := second.top.trans first.top
  low := by rw [second.low, first.low, BitVec.ofNat_add, BitVec.add_assoc]

end RefreshedBy

/-! ### Instructions -/

/-- An instruction reads its operands as such, and leaves the refresh counter alone unless it stores
it. -/
@[mk_iff]
structure Instruction.Unrefreshed (instruction : Instruction) (before : Cpu)
    (calls : List Exchange) (after : Cpu) : Prop where
  accesses : streamAccesses calls = List.replicate instruction.trailing .operand
  r : instruction ≠ .extended .storeRefresh → after.registers.r = before.registers.r

-- With these both the operands of an instruction and its calls come out as lists.
attribute [local simp] Instruction.unrefreshed_iff Instruction.trailing Instruction.operands
  Operation.operands Operation.mainOperands Operation.usesMemory ExtendedOperation.operands
  Operands.size Registers.setHL Registers.setDE Registers.setBC

section Instructions

variable (cpu : Cpu)

theorem Operation.execute_unrefreshed (operation : Operation) (index : Index) :
    (operation.execute index).Always cpu fun calls _ after =>
      (Instruction.main index operation).Unrefreshed cpu calls after := by
  cases operation with
  | increment place | decrement place | accumulate _ place | loadImmediate place =>
    cases place <;> cases index <;> simp [execute, readPlace, modifyPlace]
  | loadMemory _ | storeMemory _ =>
    cases index <;> simp [execute]
  | _ => simp [execute, Registers.swapAccumulator, Registers.swapGeneral]

theorem BitOperation.execute_unrefreshed (operation : BitOperation) (place : Place) :
    (operation.execute place).Always cpu fun calls _ after =>
      (Instruction.bits operation place).Unrefreshed cpu calls after := by
  cases operation <;> cases place <;> simp [execute]

theorem BitOperation.executeIndexed_unrefreshed (operation : BitOperation) (index : Index)
    (offset : Byte) (copy : Option Reg) :
    (operation.executeIndexed index offset copy).Always cpu fun calls _ after =>
      (Instruction.indexedBits index operation copy).Unrefreshed cpu calls after := by
  cases operation <;> cases copy <;> simp [executeIndexed]

theorem BlockOperation.execute_unrefreshed (operation : BlockOperation) :
    operation.execute.Always cpu fun calls _ after =>
      (Instruction.extended (.block operation)).Unrefreshed cpu calls after := by
  obtain ⟨action, _, _⟩ := operation
  cases action <;> simp [execute, act, transfer, compare, input, output]

theorem ExtendedOperation.execute_unrefreshed (operation : ExtendedOperation) :
    operation.execute.Always cpu fun calls _ after =>
      (Instruction.extended operation).Unrefreshed cpu calls after := by
  cases operation with
  | block operation => exact operation.execute_unrefreshed cpu
  | input target =>
    cases target <;> simp [execute]
  | _ => simp [execute]

/-- No instruction reads an opcode, and only one touches the refresh counter. -/
theorem Instruction.execute_unrefreshed (instruction : Instruction) (offset : Byte) :
    (instruction.execute offset).Always cpu fun calls _ after =>
      instruction.Unrefreshed cpu calls after := by
  cases instruction with
  | main index operation => exact operation.execute_unrefreshed cpu index
  | bits operation place =>
    exact (always_untaken _ _ _).mpr (operation.execute_unrefreshed cpu place)
  | indexedBits index operation copy =>
    exact (always_untaken _ _ _).mpr (operation.executeIndexed_unrefreshed cpu index offset copy)
  | extended operation => exact operation.execute_unrefreshed cpu

end Instructions

/-! ### Steps -/

/-- How many bytes follow an opcode of the page. -/
def Page.trailing (page : Page) (opcode : Byte) : Nat :=
  (page.role opcode).instruction?.elim 0 Instruction.trailing

namespace Segment

/-- What the segment reads bytes of the instruction stream as, in order. On the indexed bit pages
the offset and the opcode behind it are both read as operands. -/
def accesses : Segment → List Access
  | .idle | .selector _ _ => [.opcode]
  | .instruction page opcode _ =>
    (if page.displacementFirst then [.operand, .operand] else [.opcode]) ++
      List.replicate (page.trailing opcode) .operand
  | .injected opcode _ => List.replicate (Page.main.trailing opcode) .operand
  | _ => []

/-- The segment sets the refresh counter: it is a reset, or it runs the instruction that stores
the counter. -/
def SetsRefresh (segment : Segment) : Prop :=
  segment = .reset ∨ segment.instruction? = some (.extended .storeRefresh)
deriving Decidable

/-- What a step shows of the instruction stream, of R and of M1. -/
@[mk_iff]
structure Accounts (segment : Segment) (before : Cpu) (calls : List Exchange) (after : Cpu) :
    Prop where
  accesses : streamAccesses calls = segment.accesses
  placed : streamReads calls = placed before.registers.pc (streamBytes calls)
  m1 : after.outputs.m1 = true ↔ 0 < refreshes calls
  r : ¬ segment.SetsRefresh → RefreshedBy (refreshes calls) before.registers.r after.registers.r

end Segment

/-- The calls of an instruction refresh nothing. -/
theorem Instruction.Unrefreshed.refreshes_eq_zero {instruction : Instruction} {before after : Cpu}
    {calls : List Exchange} (unrefreshed : instruction.Unrefreshed before calls after)
    (frame : instruction.Frame before calls after) : refreshes calls = 0 := by
  simp [refreshes, unrefreshed.accesses, frame.quiet, List.count_replicate]

/-- What always holds of the calls of an instruction and of what it leaves of M1 and R. -/
theorem Instruction.execute_accounts (instruction : Instruction) (offset : Byte) (cpu : Cpu) :
    (instruction.execute offset).Always cpu fun calls _ after =>
      streamAccesses calls = List.replicate instruction.trailing .operand ∧
        streamReads calls = placed cpu.registers.pc (streamBytes calls) ∧
        refreshes calls = 0 ∧ after.outputs = cpu.outputs ∧
        (instruction ≠ .extended .storeRefresh → after.registers.r = cpu.registers.r) := by
  refine ((instruction.execute_frame cpu offset).and ((instruction.execute_stream cpu offset).and
    (instruction.execute_unrefreshed cpu offset))).mono ?_
  rintro calls _ after ⟨frame, streams, unrefreshed⟩
  exact ⟨unrefreshed.accesses, streams.placed, unrefreshed.refreshes_eq_zero frame,
    frame.driver.outputs, unrefreshed.r⟩

namespace Exec

variable (cpu : Cpu)

-- The accesses of a known segment compute.
attribute [local simp] Segment.accesses Page.trailing Role.instruction? Segment.instruction?
  Segment.SetsRefresh

theorem fetch_accounts (page : Page) (lowered : cpu.outputs.m1 = false) :
    (fetch page).Always cpu fun calls segment after => segment.Accounts cpu calls after := by
  cases order : page.displacementFirst with
  | false =>
    have kept : (cpu.opened page).registers = cpu.registers := (cpu.opened_kept page).1
    have refreshed (opcode : Byte) :
        RefreshedBy 1 cpu.registers.r ((cpu.opened page).fetched opcode).registers.r := by
      rw [← kept]
      exact RefreshedBy.refresh _
    rw [always_fetch_opcode cpu order]
    intro opcode
    constructor
    · intro role
      exact ⟨rfl, by simp [streamBytes], by simp [Cpu.fetched], fun _ => refreshed opcode⟩
    · intro instruction role
      refine (instruction.execute_accounts 0 _).mono ?_
      rintro calls taken after ⟨accesses, placed, unrefreshed, outputs, r⟩
      refine ⟨?_, ?_, ?_, ?_⟩
      · simp [accesses, order, role]
      · simp [placed, streamBytes_cons, Cpu.fetched]
      · simp [outputs, unrefreshed, Cpu.fetched]
      · intro other
        simpa [unrefreshed, r (by simpa [role] using other)] using refreshed opcode
  | true =>
    rw [always_fetch_displaced cpu order]
    intro offset opcode instruction role
    refine (instruction.execute_accounts offset _).mono ?_
    rintro calls taken after ⟨accesses, placed, unrefreshed, outputs, r⟩
    refine ⟨?_, ?_, ?_, ?_⟩
    · simp [accesses, order, role]
    · simp [placed, streamBytes_cons]
    · simp [outputs, unrefreshed, lowered]
    · intro other
      simpa [unrefreshed, r (by simpa [role] using other)] using RefreshedBy.refl _

theorem acknowledgeMaskable_accounts (looping : Bool) :
    (acknowledgeMaskable looping).Always cpu fun calls segment after =>
      segment.Accounts cpu calls after := by
  have refreshed : RefreshedBy 1 cpu.registers.r cpu.registers.refresh.r := .refresh _
  cases mode : cpu.registers.im with
  | restart | vectored =>
    simp [acknowledgeMaskable, mode, interruptTo, jumpThroughTable, Segment.accounts_iff,
      Cpu.acknowledged, Cpu.ageFlags, streamBytes, refreshed]
  | injected =>
    simp only [acknowledgeMaskable, inject, always_bind, always_registers, always_acknowledge,
      always_modify, always_updateRegisters, mode, always_dataLines]
    intro opcode
    cases role : Page.main.role opcode with
    | selector =>
      simp [Segment.accounts_iff, Cpu.acknowledged, Cpu.ageFlags, streamBytes, refreshed]
    | instruction instruction =>
      simp only [always_bind, always_modify]
      refine (instruction.execute_accounts 0 _).mono ?_
      rintro calls taken after ⟨accesses, placed, unrefreshed, outputs, r⟩
      refine ⟨?_, ?_, ?_, ?_⟩
      · simp [accesses, role]
      · simp [placed, streamBytes_cons, Cpu.acknowledged, Registers.refresh]
      · simp [outputs, unrefreshed, Cpu.acknowledged]
      · intro other
        have kept : after.registers.r = cpu.registers.refresh.r := r (by simpa [role] using other)
        simpa [unrefreshed, kept] using refreshed

/-- Whatever a step performs accounts for the bytes that it reads. -/
theorem perform_accounts (looping : Bool) (turn : Turn) (lowered : cpu.outputs.m1 = false) :
    (perform looping turn).Always cpu fun calls segment after =>
      segment.Accounts cpu calls after := by
  have refreshed : RefreshedBy 1 cpu.registers.r cpu.registers.refresh.r := .refresh _
  cases turn with
  | stall => simp [perform, Segment.accounts_iff, lowered, RefreshedBy.refl, streamBytes]
  | proceed page => exact fetch_accounts cpu page lowered
  | reset => simp [perform, Segment.accounts_iff, streamBytes, Cpu.clear]
  | nonMaskable =>
    simp [perform, acknowledgeNonMaskable, interruptTo, Segment.accounts_iff, Cpu.acknowledged,
      Cpu.ageFlags, streamBytes, refreshed]
  | maskable => exact acknowledgeMaskable_accounts cpu looping
  | idle =>
    simp [perform, idle, Segment.accounts_iff, Cpu.beginInstruction, Cpu.ageFlags, streamBytes,
      refreshed]
  | begin =>
    simp only [perform, always_bind, always_modify, List.nil_append]
    refine (fetch_accounts { cpu with suppressed := false } .main lowered).mono ?_
    intro calls segment after accounts
    exact ⟨accounts.accesses, accounts.placed, accounts.m1, accounts.r⟩

/-- Every step accounts for the bytes that it reads. -/
theorem step_accounts (lines : Lines) :
    (step lines).Always cpu fun calls segment after => segment.Accounts cpu calls after := by
  rw [always_step]
  refine (perform_accounts (cpu.ready lines) cpu.looping _ rfl).mono ?_
  intro calls segment after accounts
  exact ⟨accounts.accesses, accounts.placed, accounts.m1, accounts.r⟩

end Exec

/-! ### Runs -/

/-- A run that does not set the refresh counter moves it on by what its calls refresh. -/
def Cpu.Refreshed (cpu : Cpu) (calls : List Exchange) (run : List Segment) (after : Cpu) : Prop :=
  (∀ segment ∈ run, ¬ segment.SetsRefresh) →
    RefreshedBy (refreshes calls) cpu.registers.r after.registers.r

theorem Cpu.refreshed_accrues : Accrues Cpu.Refreshed where
  nil cpu _ := .refl cpu.registers.r
  step cpu lines := by
    refine (step_accounts cpu lines).mono ?_
    intro calls segment after accounts kept
    exact accounts.r (kept segment (List.mem_singleton_self segment))
  append first second kept := by
    rw [refreshes_append]
    exact (first fun segment among => kept segment (List.mem_append_left _ among)).trans
      (second fun segment among => kept segment (List.mem_append_right _ among))
  of_registers refreshed same kept := by
    rw [same]
    exact refreshed kept

namespace Exec

/-- A step reads the bytes from the program counter upwards: opcodes as such, and offsets, operands
and the opcode behind an offset as operands. M1 is out after it exactly if it has read an opcode or
acknowledged an interrupt. A run by any commands that neither resets nor stores R leaves the top bit
of R alone, and moves its other bits on by the opcodes read and the interrupts acknowledged. -/
theorem refresh_accounted {σ : Type} (bus : Bus σ) (cpu : Cpu) (device : σ) :
    (∀ lines : Lines,
      let calls := callsOn (step lines) bus cpu device
      let stepped := runOn (step lines) bus cpu device
      streamAccesses calls = stepped.value.accesses ∧
        streamReads calls = placed cpu.registers.pc (streamBytes calls) ∧
        (stepped.cpu.outputs.m1 = true ↔
          .opcode ∈ streamAccesses calls ∨ acknowledgements calls ≠ [])) ∧
    ∀ commands : List Command,
      (∀ segment ∈ (runOn (traceAll commands) bus cpu device).value, ¬ segment.SetsRefresh) →
        let calls := callsOn (runAll commands) bus cpu device
        let r := (runOn (runAll commands) bus cpu device).cpu.registers.r
        r.msb = cpu.registers.r.msb ∧
          r.toNat % 128 =
            (cpu.registers.r.toNat + (streamAccesses calls).count .opcode +
              (acknowledgements calls).length) % 128 := by
  constructor
  · intro lines calls stepped
    have accounts : stepped.value.Accounts cpu calls stepped.cpu :=
      (step_accounts cpu lines).onBus bus device
    refine ⟨accounts.accesses, accounts.placed, accounts.m1.trans ?_⟩
    rw [refreshes, Nat.add_pos_iff_pos_or_pos, List.count_pos_iff, List.length_pos_iff]
  · intro commands kept calls r
    have refreshed :=
      (Cpu.refreshed_accrues.traceAll commands cpu).onBus bus device kept
    have same : calls = callsOn (traceAll commands) bus cpu device := by
      simp [calls, runAll_eq]
    have left : r = (runOn (traceAll commands) bus cpu device).cpu.registers.r := by
      simp [r, runAll_eq]
    rw [← same, ← left] at refreshed
    refine ⟨refreshed.top, ?_⟩
    have low := congrArg BitVec.toNat refreshed.low
    simp only [BitVec.toNat_setWidth, BitVec.toNat_add, BitVec.toNat_ofNat] at low
    simpa [refreshes, Nat.add_assoc] using low

/-- EI, a rotation of an indexed byte and HALT run, and the halted machine is interrupted by a
device that restarts it: five opcodes and an acknowledgement take R around the top. -/
theorem refresh_accounted_over_halt :
    let cpu := Cpu.fresh.updateRegisters fun regs => { regs with r := 0xFE }
    let board := Board.fresh.load 0x0000 [0xFB, 0xDD, 0xCB, 0x40, 0x06, 0x76]
    let commands : List Command :=
      [.step {}, .next {}, .step {}, .step {}, .step { int := true }]
    let r := (runOn (runAll commands) Board.bus cpu board).cpu.registers.r
    (runOn (traceAll commands) Board.bus cpu board).value =
        [.instruction .main 0xFB false, .selector .main 0xDD, .selector .ix 0xCB,
          .instruction .ixBits 0x06 false, .instruction .main 0x76 false, .idle,
          .injected 0xFF false] ∧
      r.msb = true ∧ r.toNat % 128 = 4 := by
  intro cpu board commands r
  have trace : (runOn (traceAll commands) Board.bus cpu board).value =
      [.instruction .main 0xFB false, .selector .main 0xDD, .selector .ix 0xCB,
        .instruction .ixBits 0x06 false, .instruction .main 0x76 false, .idle,
        .injected 0xFF false] := by
    decide +kernel
  have kept : ∀ segment ∈ (runOn (traceAll commands) Board.bus cpu board).value,
      ¬ segment.SetsRefresh := by
    rw [trace]
    decide +kernel
  obtain ⟨top, low⟩ := (refresh_accounted Board.bus cpu board).2 commands kept
  exact ⟨trace, top.trans (by decide), low.trans (by decide +kernel)⟩

end Exec

end Z80
