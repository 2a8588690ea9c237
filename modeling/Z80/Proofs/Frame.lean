import Mathlib.Tactic.MkIffOfInductiveProp
import Z80.Cpu.Step
import Z80.Proofs.Access
import Z80.Proofs.Calls

/-!
# What no instruction does

An instruction leaves the latches of the driver, the outputs and the counts alone, and it never
acknowledges an interrupt. It changes the enable of maskable interrupts only if it is EI, DI or a
return from an interrupt.

## Main definitions

* `Cpu.SameDriver`: two processors agree on what belongs to the driver
* `Instruction.enables`, `Instruction.disables`: the instructions that write the enable

## Main results

* `Instruction.execute_frame`: all of this for every instruction
-/

namespace Z80

open Exec

/-- Two processors agree on what belongs to the driver: the latches between steps, the outputs and
the counts. -/
@[mk_iff]
structure Cpu.SameDriver (before after : Cpu) : Prop where
  pending : after.pending = before.pending
  writtenBefore : after.writtenBefore = before.writtenBefore
  nmiPending : after.nmiPending = before.nmiPending
  loopInterrupted : after.loopInterrupted = before.loopInterrupted
  lastFetched : after.lastFetched = before.lastFetched
  lastOpcode : after.lastOpcode = before.lastOpcode
  total : after.total = before.total
  outputs : after.outputs = before.outputs
  stepTacts : after.stepTacts = before.stepTacts
  backlog : after.backlog = before.backlog

/-- The instruction may set the enable of maskable interrupts: EI, RETN and RETI. -/
def Instruction.enables : Instruction → Bool
  | .main _ .enableInterrupts => true
  | .extended (.returnFromInterrupt _) => true
  | _ => false

/-- The instruction clears the enable of maskable interrupts. -/
def Instruction.disables : Instruction → Bool
  | .main _ .disableInterrupts => true
  | _ => false

/-- What the calls and the processor after an instruction show of the part that the driver has in
its hands. -/
@[mk_iff]
structure Instruction.Frame (instruction : Instruction) (before : Cpu) (calls : List Exchange)
    (after : Cpu) : Prop where
  driver : before.SameDriver after
  quiet : acknowledgements calls = []
  iff1 : instruction.enables = false →
    after.registers.iff1 = (before.registers.iff1 && !instruction.disables)

-- With these the frame of an instruction comes out field by field.
attribute [local simp] Instruction.frame_iff Cpu.sameDriver_iff Instruction.enables
  Instruction.disables Registers.setHL Registers.setDE Registers.setBC

variable (cpu : Cpu)

theorem Operation.execute_frame (operation : Operation) (index : Index) :
    (operation.execute index).Always cpu fun calls _ after =>
      (Instruction.main index operation).Frame cpu calls after := by
  cases operation with
  | increment place | decrement place | accumulate _ place | loadImmediate place =>
    -- A register operand is changed in place, and one in memory through its address.
    cases place <;> simp [execute, readPlace, modifyPlace]
  | _ => simp [execute, Registers.swapAccumulator, Registers.swapGeneral]

theorem BitOperation.execute_frame (operation : BitOperation) (place : Place) :
    (operation.execute place).Always cpu fun calls _ after =>
      (Instruction.bits operation place).Frame cpu calls after := by
  cases operation <;> cases place <;> simp [execute]

theorem BitOperation.executeIndexed_frame (operation : BitOperation) (index : Index)
    (offset : Byte) (copy : Option Reg) :
    (operation.executeIndexed index offset copy).Always cpu fun calls _ after =>
      (Instruction.indexedBits index operation copy).Frame cpu calls after := by
  cases operation <;> cases copy <;> simp [executeIndexed]

theorem BlockOperation.execute_frame (operation : BlockOperation) :
    operation.execute.Always cpu fun calls _ after =>
      (Instruction.extended (.block operation)).Frame cpu calls after := by
  obtain ⟨action, _, _⟩ := operation
  cases action <;> simp [execute, act, transfer, compare, input, output]

theorem ExtendedOperation.execute_frame (operation : ExtendedOperation) :
    operation.execute.Always cpu fun calls _ after =>
      (Instruction.extended operation).Frame cpu calls after := by
  cases operation with
  | block operation => exact operation.execute_frame cpu
  | input target =>
    cases target <;> simp [execute]
  | _ => simp [execute]

/-- No instruction touches the part of the driver, acknowledges an interrupt, or changes the enable
if it is not made for that. -/
theorem Instruction.execute_frame (instruction : Instruction) (offset : Byte) :
    (instruction.execute offset).Always cpu fun calls _ after =>
      instruction.Frame cpu calls after := by
  cases instruction with
  | main index operation => exact operation.execute_frame cpu index
  | bits operation place =>
    exact (always_untaken _ _ _).mpr (operation.execute_frame cpu place)
  | indexedBits index operation copy =>
    exact (always_untaken _ _ _).mpr (operation.executeIndexed_frame cpu index offset copy)
  | extended operation => exact operation.execute_frame cpu

end Z80
