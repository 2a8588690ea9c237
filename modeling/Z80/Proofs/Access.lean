import Z80.Cpu.ExecuteBits
import Z80.Cpu.ExecuteExtended
import Z80.Proofs.Always

/-!
# The parts of instructions whatever the bus answers

Each part that instructions are made of makes a fixed list of calls and leaves a processor that can
be written down from the answers. These rules and `Exec.always_bind` carry a condition through a
whole instruction.
-/

namespace Z80

namespace General

variable (regs : General) (word : Word)

@[simp] theorem bc_setBC : (regs.setBC word).bc = word := by simp [bc, setBC]

@[simp] theorem bc_setDE : (regs.setDE word).bc = regs.bc := rfl

@[simp] theorem bc_setHL : (regs.setHL word).bc = regs.bc := rfl

@[simp] theorem de_setDE : (regs.setDE word).de = word := by simp [de, setDE]

@[simp] theorem hl_setHL : (regs.setHL word).hl = word := by simp [hl, setHL]

@[simp] theorem b_setHL : (regs.setHL word).b = regs.b := rfl

end General

namespace Registers

variable (regs : Registers) (index : Index) (register : Reg) (pair : Pair) (stacked : StackPair)
  (byte : Byte) (word : Word) (flags : Flags)

/-- Writing the accumulator keeps all other registers. -/
@[simp] theorem setA_kept :
    (regs.setA byte).f = regs.f ∧
      (regs.setA byte).accumulatorAlternate = regs.accumulatorAlternate ∧
      (regs.setA byte).general = regs.general ∧
      (regs.setA byte).generalAlternate = regs.generalAlternate ∧
      (regs.setA byte).ix = regs.ix ∧ (regs.setA byte).iy = regs.iy ∧
      (regs.setA byte).sp = regs.sp ∧ (regs.setA byte).pc = regs.pc ∧
      (regs.setA byte).i = regs.i ∧ (regs.setA byte).r = regs.r ∧
      (regs.setA byte).wz = regs.wz ∧ (regs.setA byte).iff1 = regs.iff1 ∧
      (regs.setA byte).iff2 = regs.iff2 ∧ (regs.setA byte).im = regs.im :=
  ⟨rfl, rfl, rfl, rfl, rfl, rfl, rfl, rfl, rfl, rfl, rfl, rfl, rfl, rfl⟩

/-- Writing the flags keeps all other registers. -/
@[simp] theorem setF_kept :
    (regs.setF flags).a = regs.a ∧
      (regs.setF flags).accumulatorAlternate = regs.accumulatorAlternate ∧
      (regs.setF flags).general = regs.general ∧
      (regs.setF flags).generalAlternate = regs.generalAlternate ∧
      (regs.setF flags).ix = regs.ix ∧ (regs.setF flags).iy = regs.iy ∧
      (regs.setF flags).sp = regs.sp ∧ (regs.setF flags).pc = regs.pc ∧
      (regs.setF flags).i = regs.i ∧ (regs.setF flags).r = regs.r ∧
      (regs.setF flags).wz = regs.wz ∧ (regs.setF flags).iff1 = regs.iff1 ∧
      (regs.setF flags).iff2 = regs.iff2 ∧ (regs.setF flags).im = regs.im :=
  ⟨rfl, rfl, rfl, rfl, rfl, rfl, rfl, rfl, rfl, rfl, rfl, rfl, rfl, rfl⟩

/-- Writing the register in the place of HL keeps all that does not hold an index. -/
@[simp] theorem setIndex_kept :
    (regs.setIndex index word).accumulator = regs.accumulator ∧
      (regs.setIndex index word).accumulatorAlternate = regs.accumulatorAlternate ∧
      (regs.setIndex index word).generalAlternate = regs.generalAlternate ∧
      (regs.setIndex index word).sp = regs.sp ∧ (regs.setIndex index word).pc = regs.pc ∧
      (regs.setIndex index word).i = regs.i ∧ (regs.setIndex index word).r = regs.r ∧
      (regs.setIndex index word).wz = regs.wz ∧ (regs.setIndex index word).iff1 = regs.iff1 ∧
      (regs.setIndex index word).iff2 = regs.iff2 ∧ (regs.setIndex index word).im = regs.im := by
  cases index <;> exact ⟨rfl, rfl, rfl, rfl, rfl, rfl, rfl, rfl, rfl, rfl, rfl⟩

/-- Writing a register that an opcode names keeps all that no opcode field names. -/
@[simp] theorem setReg_kept :
    (regs.setReg index register byte).accumulatorAlternate = regs.accumulatorAlternate ∧
      (regs.setReg index register byte).generalAlternate = regs.generalAlternate ∧
      (regs.setReg index register byte).sp = regs.sp ∧
      (regs.setReg index register byte).pc = regs.pc ∧
      (regs.setReg index register byte).i = regs.i ∧
      (regs.setReg index register byte).r = regs.r ∧
      (regs.setReg index register byte).wz = regs.wz ∧
      (regs.setReg index register byte).iff1 = regs.iff1 ∧
      (regs.setReg index register byte).iff2 = regs.iff2 ∧
      (regs.setReg index register byte).im = regs.im := by
  cases register <;> simp [setReg, setA]

/-- Writing a pair that an opcode names keeps all that no pair field names. -/
@[simp] theorem setPair_kept :
    (regs.setPair index pair word).accumulator = regs.accumulator ∧
      (regs.setPair index pair word).accumulatorAlternate = regs.accumulatorAlternate ∧
      (regs.setPair index pair word).generalAlternate = regs.generalAlternate ∧
      (regs.setPair index pair word).pc = regs.pc ∧ (regs.setPair index pair word).i = regs.i ∧
      (regs.setPair index pair word).r = regs.r ∧ (regs.setPair index pair word).wz = regs.wz ∧
      (regs.setPair index pair word).iff1 = regs.iff1 ∧
      (regs.setPair index pair word).iff2 = regs.iff2 ∧
      (regs.setPair index pair word).im = regs.im := by
  cases pair <;> simp [setPair, setBC, setDE]

/-- Writing a popped pair keeps all that no stacked pair names. -/
@[simp] theorem setStackPair_kept :
    (regs.setStackPair index stacked word).accumulatorAlternate = regs.accumulatorAlternate ∧
      (regs.setStackPair index stacked word).generalAlternate = regs.generalAlternate ∧
      (regs.setStackPair index stacked word).sp = regs.sp ∧
      (regs.setStackPair index stacked word).pc = regs.pc ∧
      (regs.setStackPair index stacked word).i = regs.i ∧
      (regs.setStackPair index stacked word).r = regs.r ∧
      (regs.setStackPair index stacked word).wz = regs.wz ∧
      (regs.setStackPair index stacked word).iff1 = regs.iff1 ∧
      (regs.setStackPair index stacked word).iff2 = regs.iff2 ∧
      (regs.setStackPair index stacked word).im = regs.im := by
  cases stacked <;> simp [setStackPair, setBC, setDE, setAF]

/-- A fetch counts the low seven bits of the refresh register up. -/
theorem setWidth_r_refresh : regs.refresh.r.setWidth 7 = regs.r.setWidth 7 + 1 := by
  have each : ∀ r : Byte,
      ((r &&& 0x80) ||| ((r + 1) &&& 0x7F)).setWidth 7 = r.setWidth 7 + 1 := by decide +kernel
  exact each regs.r

/-- A fetch keeps the top bit of the refresh register. -/
theorem msb_r_refresh : regs.refresh.r.msb = regs.r.msb := by
  have each : ∀ r : Byte, ((r &&& 0x80) ||| ((r + 1) &&& 0x7F)).msb = r.msb := by decide +kernel
  exact each regs.r

end Registers

namespace Cpu

variable (cpu : Cpu) (change : Registers → Registers)

@[simp] theorem registers_updateRegisters :
    (cpu.updateRegisters change).registers = change cpu.registers := rfl

/-- Changing the registers keeps the latches, the outputs and the counts. -/
@[simp] theorem updateRegisters_kept :
    (cpu.updateRegisters change).halted = cpu.halted ∧
      (cpu.updateRegisters change).pending = cpu.pending ∧
      (cpu.updateRegisters change).suppressed = cpu.suppressed ∧
      (cpu.updateRegisters change).enableCopied = cpu.enableCopied ∧
      (cpu.updateRegisters change).written = cpu.written ∧
      (cpu.updateRegisters change).writtenBefore = cpu.writtenBefore ∧
      (cpu.updateRegisters change).nmiPending = cpu.nmiPending ∧
      (cpu.updateRegisters change).looping = cpu.looping ∧
      (cpu.updateRegisters change).loopInterrupted = cpu.loopInterrupted ∧
      (cpu.updateRegisters change).lastFetched = cpu.lastFetched ∧
      (cpu.updateRegisters change).lastOpcode = cpu.lastOpcode ∧
      (cpu.updateRegisters change).total = cpu.total ∧
      (cpu.updateRegisters change).outputs = cpu.outputs ∧
      (cpu.updateRegisters change).stepTacts = cpu.stepTacts ∧
      (cpu.updateRegisters change).backlog = cpu.backlog :=
  ⟨rfl, rfl, rfl, rfl, rfl, rfl, rfl, rfl, rfl, rfl, rfl, rfl, rfl, rfl, rfl⟩

end Cpu

namespace Exec

variable (cpu : Cpu) (index : Index) (address value : Word) (source : Source)

/-! ### Writes to the processor -/

@[simp] theorem always_writeFlags (flags : Flags) (post : List Exchange → Unit → Cpu → Prop) :
    Always (writeFlags flags) cpu post ↔
      post [] () { cpu.updateRegisters (·.setF flags) with written := flags } := Iff.rfl

@[simp] theorem always_writeAccumulator (outcome : Arithmetic.Outcome 8)
    (post : List Exchange → Unit → Cpu → Prop) :
    Always (writeAccumulator outcome) cpu post ↔
      post [] () { cpu.updateRegisters fun regs => (regs.setA outcome.value).setF outcome.flags with
        written := outcome.flags } := Iff.rfl

@[simp] theorem always_latch (post : List Exchange → Unit → Cpu → Prop) :
    Always (latch address) cpu post ↔
      post [] () (cpu.updateRegisters fun regs => { regs with wz := address }) := Iff.rfl

@[simp] theorem always_goTo (post : List Exchange → Unit → Cpu → Prop) :
    Always (goTo address) cpu post ↔
      post [] () (cpu.updateRegisters fun regs => { regs with pc := address }) := Iff.rfl

@[simp] theorem always_flags (post : List Exchange → Flags → Cpu → Prop) :
    Always flags cpu post ↔ post [] cpu.registers.f cpu := Iff.rfl

/-! ### The instruction stream -/

@[simp] theorem always_fetchOpcode (post : List Exchange → Byte → Cpu → Prop) :
    Always fetchOpcode cpu post ↔ ∀ opcode : Byte,
      post [⟨.read cpu.registers.pc .opcode, opcode⟩] opcode
        { cpu.updateRegisters fun regs => { regs.refresh with pc := regs.pc + 1 } with
          lastFetched := opcode
          outputs := { cpu.outputs with m1 := true } } := Iff.rfl

@[simp] theorem always_fetchOperand (post : List Exchange → Byte → Cpu → Prop) :
    Always fetchOperand cpu post ↔ ∀ byte : Byte,
      post [⟨.read cpu.registers.pc .operand, byte⟩] byte
        (cpu.updateRegisters fun regs => { regs with pc := regs.pc + 1 }) := Iff.rfl

@[simp] theorem always_fetchWord (post : List Exchange → Word → Cpu → Prop) :
    Always fetchWord cpu post ↔ ∀ low high : Byte,
      post [⟨.read cpu.registers.pc .operand, low⟩,
          ⟨.read (cpu.registers.pc + 1) .operand, high⟩]
        (Word.ofBytes high low)
        (cpu.updateRegisters fun regs => { regs with pc := regs.pc + 1 + 1 }) := Iff.rfl

/-! ### Data -/

@[simp] theorem always_read (post : List Exchange → Byte → Cpu → Prop) :
    Always (read address) cpu post ↔
      ∀ byte : Byte, post [⟨.read address .data, byte⟩] byte cpu := Iff.rfl

@[simp] theorem always_readWord (post : List Exchange → Word → Cpu → Prop) :
    Always (readWord address) cpu post ↔ ∀ low high : Byte,
      post [⟨.read address .data, low⟩, ⟨.read (address + 1) .data, high⟩]
        (Word.ofBytes high low) cpu := Iff.rfl

@[simp] theorem always_writeWord (post : List Exchange → Unit → Cpu → Prop) :
    Always (writeWord address value) cpu post ↔
      post [⟨.write address (Word.low value), ()⟩, ⟨.write (address + 1) (Word.high value), ()⟩]
        () cpu := by
  simp [writeWord]

@[simp] theorem always_pointer (post : List Exchange → Word → Cpu → Prop) :
    Always (pointer source) cpu post ↔ ∀ word : Word,
      post [⟨.pointer source (cpu.registers.sourceValue source), word⟩] word cpu := Iff.rfl

@[simp] theorem always_portAddress (post : List Exchange → Word → Cpu → Prop) :
    Always (portAddress source) cpu post ↔ ∀ word : Word,
      post [⟨.portAddress source (cpu.registers.sourceValue source), word⟩] word cpu := Iff.rfl

@[simp] theorem always_byteValue (post : List Exchange → Byte → Cpu → Prop) :
    Always (byteValue source) cpu post ↔ ∀ byte : Byte,
      post [⟨.byteValue source (Word.low (cpu.registers.sourceValue source)), byte⟩] byte cpu :=
  Iff.rfl

@[simp] theorem always_pairValue (post : List Exchange → Word → Cpu → Prop) :
    Always (pairValue source) cpu post ↔ ∀ word : Word,
      post [⟨.pairValue source (cpu.registers.sourceValue source), word⟩] word cpu := Iff.rfl

@[simp] theorem always_pushWord (post : List Exchange → Unit → Cpu → Prop) :
    Always (pushWord value) cpu post ↔ ∀ sp : Word,
      post [⟨.pointer .sp cpu.registers.sp, sp⟩, ⟨.write (sp - 1) (Word.high value), ()⟩,
          ⟨.write (sp - 2) (Word.low value), ()⟩]
        () (cpu.updateRegisters fun regs => { regs with sp := sp - 2 }) := by
  simp [pushWord, Registers.sourceValue]

@[simp] theorem always_popWord (post : List Exchange → Word → Cpu → Prop) :
    Always popWord cpu post ↔ ∀ (sp : Word) (low high : Byte),
      post [⟨.pointer .sp cpu.registers.sp, sp⟩, ⟨.read sp .data, low⟩,
          ⟨.read (sp + 1) .data, high⟩]
        (Word.ofBytes high low) (cpu.updateRegisters fun regs => { regs with sp := sp + 2 }) :=
  Iff.rfl

/-- A memory operand is HL, or takes an offset from the instruction stream. -/
@[simp] theorem always_operandAddress (post : List Exchange → Word → Cpu → Prop) :
    Always (operandAddress index) cpu post ↔
      (index = .hl → ∀ word : Word, post [⟨.pointer .hl cpu.registers.hl, word⟩] word cpu) ∧
      (index ≠ .hl → ∀ (offset : Byte) (base : Word),
        post [⟨.read cpu.registers.pc .operand, offset⟩,
            ⟨.pointer index.toSource (cpu.registers.index index), base⟩]
          (Word.displaced base offset)
          (cpu.updateRegisters fun regs =>
            { regs with pc := regs.pc + 1, wz := Word.displaced base offset })) := by
  cases index
  · simp [operandAddress, Registers.sourceValue]
  all_goals
    simp only [operandAddress, reduceCtorEq, false_implies, ne_eq, not_false_eq_true, true_and,
      true_implies]
    exact Iff.rfl

/-! ### Jumps, calls and results -/

@[simp] theorem always_untaken (body : Exec Unit) (post : List Exchange → Bool → Cpu → Prop) :
    Always (untaken body) cpu post ↔
      Always body cpu fun calls _ after => post calls false after := by
  simp [untaken]

@[simp] theorem always_jumpTo (post : List Exchange → Unit → Cpu → Prop) :
    Always (jumpTo address) cpu post ↔
      post [] () (cpu.updateRegisters fun regs => { regs with pc := address, wz := address }) :=
  Iff.rfl

@[simp] theorem always_jumpBy (offset : Byte) (post : List Exchange → Unit → Cpu → Prop) :
    Always (jumpBy offset) cpu post ↔
      Always (jumpTo (Word.displaced cpu.registers.pc offset)) cpu post := Iff.rfl

@[simp] theorem always_returnToCaller (post : List Exchange → Unit → Cpu → Prop) :
    Always returnToCaller cpu post ↔
      Always popWord cpu fun calls target after =>
        Always (jumpTo target) after fun _ => post calls := by
  simp [returnToCaller]

@[simp] theorem always_callTo (post : List Exchange → Unit → Cpu → Prop) :
    Always (callTo address) cpu post ↔
      Always (pushWord cpu.registers.pc) cpu fun calls _ after =>
        post calls () (after.updateRegisters fun regs => { regs with pc := address }) := by
  simp [callTo]

@[simp] theorem always_combine (op : AccumulatorOp) (operand : Byte)
    (post : List Exchange → Unit → Cpu → Prop) :
    Always (combine op operand) cpu post ↔
      Always (writeAccumulator
        (Arithmetic.accumulate op cpu.registers.a operand cpu.registers.f)) cpu post := Iff.rfl

@[simp] theorem always_latchStore (post : List Exchange → Unit → Cpu → Prop) :
    Always (latchStore address) cpu post ↔
      Always (latch (Word.ofBytes cpu.registers.a (Word.low (address + 1)))) cpu post := Iff.rfl

@[simp] theorem always_loadSpecial (byte : Byte) (post : List Exchange → Unit → Cpu → Prop) :
    Always (loadSpecial byte) cpu post ↔
      Always (writeAccumulator
          ⟨byte, { Flags.ofResult byte with p := cpu.registers.iff2, c := cpu.registers.f.c }⟩)
        cpu fun calls _ after => post calls () { after with enableCopied := true } := by
  simp [loadSpecial]

/-! ### Parts of the bit, digit and block operations -/

/-- Only shifts and tests write flags, and a test has nothing to store. -/
@[simp] theorem always_apply (operation : BitOperation) (byte copies : Byte)
    (post : List Exchange → Option Byte → Cpu → Prop) :
    Always (operation.apply byte copies) cpu post ↔
      match operation with
      | .shift kind =>
        let outcome := Arithmetic.shift kind byte cpu.registers.f.c
        post [] (some outcome.value)
          { cpu.updateRegisters (·.setF outcome.flags) with written := outcome.flags }
      | .test bit =>
        let flags := Arithmetic.testBit bit byte copies cpu.registers.f
        post [] none { cpu.updateRegisters (·.setF flags) with written := flags }
      | .reset bit => post [] (some (Arithmetic.resetBit bit byte)) cpu
      | .set bit => post [] (some (Arithmetic.setBit bit byte)) cpu := by
  cases operation <;> exact Iff.rfl

@[simp] theorem always_rotateDigits (change : Byte → Byte → Byte × Byte)
    (post : List Exchange → Unit → Cpu → Prop) :
    Always (rotateDigits change) cpu post ↔ ∀ (address : Word) (byte : Byte),
      let changed := change (cpu.registers.a &&& 0x0F) byte
      let result := (cpu.registers.a &&& 0xF0) ||| changed.1
      Always (writeAccumulator
          ⟨result, { Flags.ofLogic result with c := cpu.registers.f.c }⟩)
        (cpu.updateRegisters fun regs => { regs with wz := address + 1 })
        fun _ _ after =>
          post [⟨.pointer .hl cpu.registers.hl, address⟩, ⟨.read address .data, byte⟩,
            ⟨.write address changed.2, ()⟩] () after := by
  simp [rotateDigits, Registers.sourceValue]

@[simp] theorem always_countPair (post : List Exchange → Word → Cpu → Prop) :
    Always BlockOperation.countPair cpu post ↔ ∀ count : Word,
      post [⟨.pairValue .bc cpu.registers.bc, count⟩] (count - 1)
        (cpu.updateRegisters (·.setBC (count - 1))) := Iff.rfl

@[simp] theorem always_countByte (post : List Exchange → Byte → Cpu → Prop) :
    Always BlockOperation.countByte cpu post ↔
      post [] (cpu.registers.general.b - 1)
        (cpu.updateRegisters fun regs =>
          { regs with general := { regs.general with b := regs.general.b - 1 } }) := Iff.rfl

@[simp] theorem always_rewind (repeating : Bool)
    (post : List Exchange → Option Byte → Cpu → Prop) :
    Always (BlockOperation.rewind repeating) cpu post ↔
      (repeating = true →
        post [] (some (Word.high (cpu.registers.pc - 2)))
          (cpu.updateRegisters fun regs =>
            { regs with pc := regs.pc - 2, wz := cpu.registers.pc - 2 + 1 })) ∧
      (repeating = false → post [] none cpu) := by
  cases repeating
  · simp [BlockOperation.rewind]
  · simp only [true_implies, reduceCtorEq, false_implies, and_true]
    exact Iff.rfl

end Exec

end Z80
