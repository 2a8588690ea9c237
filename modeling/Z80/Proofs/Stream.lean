import Mathlib.Tactic.MkIffOfInductiveProp
import Z80.Cpu.Step
import Z80.Proofs.Condition

/-!
# What an instruction takes from the instruction stream

After its opcode an instruction takes as many bytes as its operands have, from the program counter
upwards, and all of them before it makes its first access to data or to a port. The program counter
then stands behind them, if the instruction does not go elsewhere.

## Main definitions

* `Instruction.trailing`: how many bytes follow the opcode
* `Instruction.Departs`: the instruction goes elsewhere

## Main results

* `Instruction.execute_stream`: all of this for every instruction
-/

namespace Z80

open Exec

/-- The bytes that follow the opcode. An indexed bit operation has its offset before it. -/
def Instruction.trailing : Instruction → Nat
  | .indexedBits _ _ _ => 0
  | instruction => instruction.operands.size

/-- The operation is a jump, a call, a return or a restart. -/
def Operation.redirects : Operation → Bool
  | .countAndJump | .jumpRelative | .jumpRelativeIf _ | .jumpIf _ | .jump | .jumpIndex => true
  | .callIf _ | .call | .restart _ => true
  | .returnIf _ | .ret => true
  | _ => false

/-- The instruction goes elsewhere: it is a jump, a call, a return or a restart, or it is a block
instruction that goes on. -/
def Instruction.Departs (before : Cpu) (calls : List Exchange) (after : Cpu) : Instruction → Prop
  | .main _ operation => operation.redirects = true
  | .extended (.returnFromInterrupt _) => True
  | .extended (.block operation) => operation.GoesOn before calls after
  | _ => False

/-- What the calls and the processor after an instruction show of the instruction stream. -/
@[mk_iff]
structure Instruction.Streams (instruction : Instruction) (before : Cpu) (calls : List Exchange)
    (after : Cpu) : Prop where
  placed : streamReads calls = placed before.registers.pc (streamBytes calls)
  size : (streamBytes calls).length = instruction.trailing
  first : StreamFirst calls
  pc : ¬ instruction.Departs before calls after →
    after.registers.pc = before.registers.pc + BitVec.ofNat 16 instruction.trailing

-- With these both the layout of an instruction and its calls come out as lists.
attribute [local simp] Instruction.streams_iff streamBytes Instruction.trailing
  Instruction.operands Operation.operands Operation.mainOperands Operation.usesMemory
  ExtendedOperation.operands Operands.size Instruction.Departs Operation.redirects
  Registers.setHL Registers.setDE Registers.setBC

variable (cpu : Cpu)

theorem Operation.execute_stream (operation : Operation) (index : Index) :
    (operation.execute index).Always cpu fun calls _ after =>
      (Instruction.main index operation).Streams cpu calls after := by
  cases operation with
  | increment place | decrement place | accumulate _ place | loadImmediate place =>
    -- Only a memory operand behind an index register has an offset to fetch.
    cases place <;> cases index <;> simp [execute, readPlace, modifyPlace, BitVec.add_assoc]
  | loadMemory _ | storeMemory _ =>
    cases index <;> simp [execute]
  | _ => simp [execute, BitVec.add_assoc, Registers.swapAccumulator, Registers.swapGeneral]

theorem BitOperation.execute_stream (operation : BitOperation) (place : Place) :
    (operation.execute place).Always cpu fun calls _ after =>
      (Instruction.bits operation place).Streams cpu calls after := by
  cases operation <;> cases place <;> simp [execute]

theorem BitOperation.executeIndexed_stream (operation : BitOperation) (index : Index)
    (offset : Byte) (copy : Option Reg) :
    (operation.executeIndexed index offset copy).Always cpu fun calls _ after =>
      (Instruction.indexedBits index operation copy).Streams cpu calls after := by
  cases operation <;> cases copy <;> simp [executeIndexed]

theorem BlockOperation.execute_stream (operation : BlockOperation) :
    operation.execute.Always cpu fun calls _ after =>
      (Instruction.extended (.block operation)).Streams cpu calls after := by
  obtain ⟨action, _, repeats⟩ := operation
  cases action <;> cases repeats <;>
    simp +contextual [execute, act, transfer, compare, input, output, GoesOn, Registers.bc,
      Registers.a]

theorem ExtendedOperation.execute_stream (operation : ExtendedOperation) :
    operation.execute.Always cpu fun calls _ after =>
      (Instruction.extended operation).Streams cpu calls after := by
  cases operation with
  | block operation => exact operation.execute_stream cpu
  | input target =>
    cases target <;> simp [execute]
  | _ => simp [execute, BitVec.add_assoc]

/-- An instruction takes its operands from the instruction stream, in order and before any access,
and ends behind them or elsewhere. -/
theorem Instruction.execute_stream (instruction : Instruction) (offset : Byte) :
    (instruction.execute offset).Always cpu fun calls _ after =>
      instruction.Streams cpu calls after := by
  cases instruction with
  | main index operation => exact operation.execute_stream cpu index
  | bits operation place =>
    exact (always_untaken _ _ _).mpr (operation.execute_stream cpu place)
  | indexedBits index operation copy =>
    exact (always_untaken _ _ _).mpr (operation.executeIndexed_stream cpu index offset copy)
  | extended operation => exact operation.execute_stream cpu

end Z80
