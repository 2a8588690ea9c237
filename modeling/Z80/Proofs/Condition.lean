import Z80.Cpu.Step
import Z80.Proofs.Access
import Z80.Proofs.Calls

/-!
# When an instruction takes its longer path

An instruction reports that it took its longer path exactly if its condition is met: the counter of
DJNZ is not used up, the flags meet the condition of a jump, a return or a call, or a repeating
block instruction has not come to its end. All other instructions never report it.

## Main definitions

* `Instruction.ConditionMet`: the condition of an instruction
* `Instruction.CountsDown`: the counter goes down by one from the value that the bus gives for it

## Main results

* `Instruction.execute_taken`: what is reported is whether the condition is met
-/

namespace Z80

open Exec

/-- A block instruction goes on if it repeats, its counter is not used up, and a comparison found
no match. -/
def BlockOperation.GoesOn (operation : BlockOperation) (before : Cpu) (calls : List Exchange)
    (after : Cpu) : Prop :=
  operation.repeats = true ∧
    match operation.action with
    | .transfer => after.registers.bc ≠ 0
    | .compare => after.registers.bc ≠ 0 ∧ before.registers.a ∉ dataReads calls
    | .input | .output => after.registers.general.b ≠ 0

/-- The condition that makes an instruction take its longer path: the counter that is left, the
flags before the instruction, or the need to repeat. -/
def Instruction.ConditionMet (before : Cpu) (calls : List Exchange) (after : Cpu) :
    Instruction → Prop
  | .main _ .countAndJump => after.registers.general.b ≠ 0
  | .main _ (.jumpRelativeIf condition) | .main _ (.returnIf condition)
  | .main _ (.callIf condition) => condition.holds before.registers.f = true
  | .extended (.block operation) => operation.GoesOn before calls after
  | _ => False

/-- The counter goes down by one, from the value that the bus gives for B or for BC. The block
instructions of the ports count B as it is. -/
def Instruction.CountsDown (before : Cpu) (calls : List Exchange) (after : Cpu) :
    Instruction → Prop
  | .main _ .countAndJump => ∃ count : Byte,
      ⟨.byteValue .b before.registers.general.b, count⟩ ∈ calls ∧
        after.registers.general.b = count - 1
  | .extended (.block operation) =>
    match operation.action with
    | .transfer | .compare => ∃ count : Word,
      ⟨.pairValue .bc before.registers.bc, count⟩ ∈ calls ∧ after.registers.bc = count - 1
    | .input | .output => after.registers.general.b = before.registers.general.b - 1
  | _ => True

-- With these a condition comes out as one on the registers and on the answers of the bus.
attribute [local simp] Instruction.ConditionMet Instruction.CountsDown BlockOperation.GoesOn
  Registers.sourceValue Registers.setHL Registers.setDE Registers.setBC Registers.bc Registers.a

variable (cpu : Cpu)

theorem Operation.execute_taken (operation : Operation) (index : Index) :
    (operation.execute index).Always cpu fun calls taken after =>
      (taken = true ↔ (Instruction.main index operation).ConditionMet cpu calls after) ∧
        (Instruction.main index operation).CountsDown cpu calls after := by
  cases operation with
  | countAndJump => simp [execute, Registers.setReg]
  | loadImmediate place =>
    cases place <;> simp [execute]
  | _ => simp [execute]

theorem BlockOperation.execute_taken (operation : BlockOperation) :
    operation.execute.Always cpu fun calls taken after =>
      (taken = true ↔ operation.GoesOn cpu calls after) ∧
        (Instruction.extended (.block operation)).CountsDown cpu calls after := by
  obtain ⟨action, _, repeats⟩ := operation
  cases action <;> cases repeats <;> simp [execute, act, transfer, compare, input, output]

theorem ExtendedOperation.execute_taken (operation : ExtendedOperation) :
    operation.execute.Always cpu fun calls taken after =>
      (taken = true ↔ (Instruction.extended operation).ConditionMet cpu calls after) ∧
        (Instruction.extended operation).CountsDown cpu calls after := by
  cases operation with
  | block operation => exact operation.execute_taken cpu
  | _ => simp [execute]

/-- An instruction reports its longer path exactly if its condition is met. -/
theorem Instruction.execute_taken (instruction : Instruction) (offset : Byte) :
    (instruction.execute offset).Always cpu fun calls taken after =>
      (taken = true ↔ instruction.ConditionMet cpu calls after) ∧
        instruction.CountsDown cpu calls after := by
  cases instruction with
  | main index operation => exact operation.execute_taken cpu index
  | bits operation place => simp [execute]
  | indexedBits index operation copy => simp [execute]
  | extended operation => exact operation.execute_taken cpu

end Z80
