import Mathlib.Data.List.Nodup
import Z80.Cpu.Align
import Z80.Proofs.RegisterViews

/-!
# What aligning copies

Aligning a processor with another one copies the selected parts of the register file and the whole
interrupt and prefix state, and nothing else. A reading of the register file is replaced by some
parts and kept by all others, so what it shows in the end does not depend on the order in which the
parts are copied: it is the other processor's if one of the parts that replace it is selected. So a
second selection adds to the first.

## Main definitions

* `RegisterPart.Replace`: the parts whose copying replaces a reading of the register file
* `Selection.selects`: a part is in a selection
* `Cpu.Aligned`: each part of a processor is as the selection asks for

## Main results

* `Selection.read_copy`: a reading after the selected parts were copied
* `Cpu.aligned_align`, `Cpu.Aligned.unique`: aligning is the one way to do what was asked for
* `Cpu.Aligned.trans`: selections one after the other do what their union does
* `Cpu.align_exact`: what aligning copies, and aligning twice
-/

namespace Z80

/-! ### Parts -/

namespace RegisterPart

/-- The parts that have a letter, in the order of their bits. -/
def parts : List RegisterPart := letters.map Prod.snd

/-- The position of the letter and of the bit of a part. -/
def position (part : RegisterPart) : Nat := parts.idxOf part

theorem nodup_parts : parts.Nodup := by decide

/-- Which byte registers have letters: all but I and R, once for each bank they are in. -/
theorem byte_mem_parts (register : ByteRegister) (bank : Bank) :
    .byte register bank ∈ parts ↔
      (register.isBanked = true ∨ bank = .main) ∧ register ≠ .i ∧ register ≠ .r := by
  cases register <;> cases bank <;> decide

theorem position_of_listed {position : Nat} {letter : Char} {part : RegisterPart}
    (listed : letters[position]? = some (letter, part)) : part.position = position := by
  have placed : parts[position]? = some part := by simp [parts, listed]
  obtain ⟨bound, rfl⟩ := List.getElem?_eq_some_iff.mp placed
  exact nodup_parts.idxOf_getElem position bound

end RegisterPart

namespace Selection

/-- The part is selected. -/
def selects (selection : Selection) (part : RegisterPart) : Bool :=
  selection.holds part.position

variable {selection : Selection} {part : RegisterPart}

theorem selects_union (left right : Selection) (part : RegisterPart) :
    (left.union right).selects part = (left.selects part || right.selects part) := by
  simp [selects, holds, union]

theorem union_comm (left right : Selection) : left.union right = right.union left := by
  rw [union, union, BitVec.or_comm]

/-- Only parts that have a letter are selected. -/
theorem mem_parts_of_selects (selected : selection.selects part = true) :
    part ∈ RegisterPart.parts := by
  have bound : part.position < RegisterPart.parts.length := BitVec.lt_of_getLsbD selected
  exact List.idxOf_lt_length_iff.mp bound

/-- What is selected is what is copied. -/
theorem mem_selected : part ∈ selection.selected ↔ selection.selects part = true := by
  simp only [Selection.selected, List.mem_map, List.mem_filter, List.mem_zipIdx_iff_getElem?]
  constructor
  · rintro ⟨⟨⟨letter, found⟩, position⟩, ⟨listed, held⟩, rfl⟩
    rwa [selects, RegisterPart.position_of_listed listed]
  · intro held
    have placed : RegisterPart.parts[part.position]? = some part :=
      List.getElem?_idxOf (mem_parts_of_selects held)
    rw [RegisterPart.parts, List.getElem?_map, Option.map_eq_some_iff] at placed
    obtain ⟨⟨letter, _⟩, listed, rfl⟩ := placed
    exact ⟨((letter, _), _), ⟨listed, held⟩, rfl⟩

end Selection

/-! ### Flags without the carry -/

namespace Flags

/-- A byte of flags that takes over all flags of another but the carry. -/
def keepCarry (own theirs : Byte) : Byte := (own &&& 0x01) ||| (theirs &&& 0xFE)

/-- A byte of flags is its carry and the rest. -/
theorem keepCarry_self (own : Byte) : keepCarry own own = own := by
  rw [keepCarry, ← BitVec.and_or_distrib_left]
  exact BitVec.and_allOnes

theorem keepCarry_and_carry (own theirs : Byte) : keepCarry own theirs &&& 0x01 = own &&& 0x01 := by
  rw [keepCarry, BitVec.and_or_distrib_right, BitVec.and_assoc, BitVec.and_assoc]
  simp

theorem keepCarry_and_rest (own theirs : Byte) :
    keepCarry own theirs &&& 0xFE = theirs &&& 0xFE := by
  rw [keepCarry, BitVec.and_or_distrib_right, BitVec.and_assoc, BitVec.and_assoc]
  simp

/-- The carry and the other flags make up the byte. -/
theorem eq_keepCarry {flags own theirs : Byte} (carry : flags &&& 0x01 = own &&& 0x01)
    (rest : flags &&& 0xFE = theirs &&& 0xFE) : flags = keepCarry own theirs := by
  rw [← keepCarry_self flags, keepCarry, carry, rest, keepCarry]

theorem keepCarry_keepCarry (own theirs : Byte) :
    keepCarry (keepCarry own theirs) theirs = keepCarry own theirs :=
  (eq_keepCarry rfl (keepCarry_and_rest own theirs)).symm

theorem toByte_withCarry (own theirs : Flags) :
    ({ theirs with c := own.c } : Flags).toByte = keepCarry own.toByte theirs.toByte := by
  have carry : own.toByte &&& 0x01 = BitVec.setWidth 8 (BitVec.ofBool own.c) := by
    obtain ⟨s, z, y, h, x, p, n, c⟩ := own
    revert s z y h x p n c
    decide
  rw [keepCarry, carry]
  obtain ⟨s, z, y, h, x, p, n, c⟩ := theirs
  generalize own.c = kept
  revert s z y h x p n c kept
  decide

end Flags

namespace Registers

/-- Copying all flags but the carry is writing F once. -/
theorem copy_flagsButCarry (bank : Bank) (source target : Registers) :
    (RegisterPart.flagsButCarry bank).copy source target =
      target.setByte .f bank
        (Flags.keepCarry (target.getByte .f bank) (source.getByte .f bank)) := by
  cases bank <;>
    simp [RegisterPart.copy, setByte, getByte, updateAccumulator, accumulatorOf,
      ← Flags.toByte_withCarry]

end Registers

/-! ### Readings of the register file -/

namespace RegisterPart

variable {α : Type} {read : Registers → α} {writers : List RegisterPart}

/-- Copying one of the parts makes the reading what it is in the other register file, and copying
any other part that has a letter keeps it. -/
structure Replace (writers : List RegisterPart) (read : Registers → α) : Prop where
  taken : ∀ part ∈ writers, ∀ source target, read (part.copy source target) = read source
  kept : ∀ part ∈ parts, part ∉ writers → ∀ source target,
    read (part.copy source target) = read target

theorem Replace.read_foldl (replace : Replace writers read) (source : Registers)
    {chosen : List RegisterPart} (lettered : chosen ⊆ parts) (target : Registers) :
    read (chosen.foldl (fun registers part => part.copy source registers) target) =
      if ∃ part ∈ chosen, part ∈ writers then read source else read target := by
  -- Once the reading was replaced, later parts either replace it by the same or keep it.
  induction chosen generalizing target with
  | nil => simp
  | cons part rest ih =>
    obtain ⟨listed, remaining⟩ := List.cons_subset.mp lettered
    rw [List.foldl_cons, ih remaining]
    by_cases writes : part ∈ writers
    · simp [writes, replace.taken part writes]
    · simp [writes, replace.kept part listed writes]

end RegisterPart

open RegisterPart in
/-- A reading is replaced if one of the parts that replace it is selected. -/
theorem Selection.read_copy {α : Type} {read : Registers → α} {writers : List RegisterPart}
    (replace : Replace writers read) (selection : Selection) (source target : Registers) :
    read (selection.copy source target) =
      if writers.any selection.selects then read source else read target := by
  have lettered : selection.selected ⊆ parts := fun _ member =>
    mem_parts_of_selects (mem_selected.mp member)
  rw [copy, replace.read_foldl source lettered]
  simp only [mem_selected, List.any_eq_true, and_comm]

open RegisterPart in
/-- A reading that one part replaces. -/
theorem Selection.read_copy_single {α : Type} {read : Registers → α} {part : RegisterPart}
    (replace : Replace [part] read) (selection : Selection) (source target : Registers) :
    read (selection.copy source target) =
      if selection.selects part then read source else read target := by
  simpa using selection.read_copy replace source target

/-! ### Which parts replace which reading -/

namespace RegisterPart

variable (bank : Bank)

/-- Copying a part changes no byte register but its own. -/
theorem getByte_copy_of_ne {part : RegisterPart} {register : ByteRegister} {bank : Bank}
    (listed : part ∈ parts) (here : .byte register bank ∈ parts)
    (apart : part ≠ .byte register bank) (flags : part = .flagsButCarry bank → register ≠ .f)
    (source target : Registers) :
    (part.copy source target).getByte register bank = target.getByte register bank := by
  cases part with
  | byte other otherBank =>
    rw [copy, Registers.getByte_setByte, if_neg]
    rintro ⟨rfl, same | unbanked⟩
    · exact apart (by rw [same])
    · -- A register that is in one bank only has one letter.
      have own := ((byte_mem_parts other bank).mp here).1
      have others := ((byte_mem_parts other otherBank).mp listed).1
      simp only [unbanked, Bool.false_eq_true, false_or] at own others
      exact apart (by rw [own, others])
  | flagsButCarry otherBank =>
    rw [Registers.copy_flagsButCarry, Registers.getByte_setByte, if_neg]
    rintro ⟨rfl, same | unbanked⟩
    · exact flags (by rw [same]) rfl
    · exact absurd unbanked (by decide)
  | pc => exact Registers.getByte_withPointers target _ target.sp register bank
  | stackHigh => exact Registers.getByte_withPointers target target.pc _ register bank
  | stackLow => exact Registers.getByte_withPointers target target.pc _ register bank

theorem replace_byte {register : ByteRegister} {bank : Bank} (other : register ≠ .f)
    (listed : .byte register bank ∈ parts) :
    Replace [.byte register bank] (·.getByte register bank) where
  taken part member source target := by
    rw [List.mem_singleton.mp member, copy, Registers.getByte_setByte, if_pos ⟨rfl, .inl rfl⟩]
  kept part lettered apart source target :=
    getByte_copy_of_ne lettered listed (by simpa using apart) (fun _ => other) source target

/-- The carry is replaced with the whole of F only. -/
theorem replace_carry : Replace [.byte .f bank] (·.getByte .f bank &&& 0x01) where
  taken part member source target := by
    rw [List.mem_singleton.mp member, copy, Registers.getByte_setByte, if_pos ⟨rfl, .inl rfl⟩]
  kept part lettered apart source target := by
    by_cases rest : part = .flagsButCarry bank
    · rw [rest, Registers.copy_flagsButCarry, Registers.getByte_setByte, if_pos ⟨rfl, .inl rfl⟩,
        Flags.keepCarry_and_carry]
    · rw [getByte_copy_of_ne lettered (by simp [byte_mem_parts, ByteRegister.isBanked])
        (by simpa using apart) (absurd · rest)]

/-- The other flags are replaced with the whole of F and without the carry. -/
theorem replace_rest :
    Replace [.byte .f bank, .flagsButCarry bank] (·.getByte .f bank &&& 0xFE) where
  taken part member source target := by
    simp only [List.mem_cons, List.not_mem_nil, or_false] at member
    rcases member with rfl | rfl
    · rw [copy, Registers.getByte_setByte, if_pos ⟨rfl, .inl rfl⟩]
    · rw [Registers.copy_flagsButCarry, Registers.getByte_setByte, if_pos ⟨rfl, .inl rfl⟩,
        Flags.keepCarry_and_rest]
  kept part lettered apart source target := by
    simp only [List.mem_cons, List.not_mem_nil, or_false, not_or] at apart
    rw [getByte_copy_of_ne lettered (by simp [byte_mem_parts, ByteRegister.isBanked]) apart.1
      (absurd · apart.2)]

theorem replace_pc : Replace [.pc] Registers.pc where
  taken part member source target := by rw [List.mem_singleton.mp member, copy]
  kept part _ apart source target := by
    cases part with
    | byte register bank => exact (target.setByte_kept register bank _).1
    | flagsButCarry bank =>
      rw [Registers.copy_flagsButCarry, (target.setByte_kept .f bank _).1]
    | pc => exact absurd (List.mem_singleton_self _) apart
    | stackHigh | stackLow => rfl

theorem replace_stackHigh : Replace [.stackHigh] (Word.high ·.sp) where
  taken part member source target := by
    rw [List.mem_singleton.mp member, copy, Word.high_withHigh]
  kept part _ apart source target := by
    cases part with
    | byte register bank => rw [copy, (target.setByte_kept register bank _).2.1]
    | flagsButCarry bank =>
      rw [Registers.copy_flagsButCarry, (target.setByte_kept .f bank _).2.1]
    | pc => rfl
    | stackHigh => exact absurd (List.mem_singleton_self _) apart
    | stackLow => rw [copy, Word.high_withLow]

theorem replace_stackLow : Replace [.stackLow] (Word.low ·.sp) where
  taken part member source target := by
    rw [List.mem_singleton.mp member, copy, Word.low_withLow]
  kept part _ apart source target := by
    cases part with
    | byte register bank => rw [copy, (target.setByte_kept register bank _).2.1]
    | flagsButCarry bank =>
      rw [Registers.copy_flagsButCarry, (target.setByte_kept .f bank _).2.1]
    | pc => rfl
    | stackHigh => rw [copy, Word.low_withHigh]
    | stackLow => exact absurd (List.mem_singleton_self _) apart

/-- No part replaces I, R, the address latch or the interrupt state. -/
theorem replace_none :
    Replace [] fun regs => (regs.i, regs.r, regs.wz, regs.iff1, regs.iff2, regs.im) where
  taken _ member := absurd member List.not_mem_nil
  kept part lettered _ source target := by
    cases part with
    | byte register bank =>
      obtain ⟨_, notI, notR⟩ := (byte_mem_parts register bank).mp lettered
      cases register <;> cases bank <;> first | rfl | contradiction
    | flagsButCarry bank => cases bank <;> rfl
    | pc | stackHigh | stackLow => rfl

end RegisterPart

theorem Selection.copy_kept (selection : Selection) (source target : Registers) :
    (selection.copy source target).i = target.i ∧ (selection.copy source target).r = target.r ∧
      (selection.copy source target).wz = target.wz ∧
      (selection.copy source target).iff1 = target.iff1 ∧
      (selection.copy source target).iff2 = target.iff2 ∧
      (selection.copy source target).im = target.im := by
  simpa using selection.read_copy RegisterPart.replace_none source target

namespace Registers

/-- A register file with the interrupt state of another. -/
def withInterrupts (regs source : Registers) : Registers :=
  { regs with
    iff1 := source.iff1
    iff2 := source.iff2
    im := source.im
    i := source.i
    r := source.r }

/-- The byte registers with letters are not part of the interrupt state. -/
theorem getByte_withInterrupts {register : ByteRegister} {bank : Bank}
    (listed : .byte register bank ∈ RegisterPart.parts) (regs source : Registers) :
    (regs.withInterrupts source).getByte register bank = regs.getByte register bank := by
  obtain ⟨_, notI, notR⟩ := (RegisterPart.byte_mem_parts register bank).mp listed
  cases register <;> cases bank <;> first | rfl | contradiction

end Registers

/-! ### Aligned processors -/

namespace Cpu

/-- The processor is what the one before comes to when the interrupt and prefix state and the
selected registers are taken from a source. -/
structure Aligned (selection : Selection) (source before after : Cpu) : Prop where
  byte : ∀ register bank, register ≠ .f → .byte register bank ∈ RegisterPart.parts →
    after.registers.getByte register bank =
      if selection.selects (.byte register bank) then source.registers.getByte register bank
      else before.registers.getByte register bank
  flags : ∀ bank,
    after.registers.getByte .f bank =
      if selection.selects (.byte .f bank) then source.registers.getByte .f bank
      else if selection.selects (.flagsButCarry bank) then
        Flags.keepCarry (before.registers.getByte .f bank) (source.registers.getByte .f bank)
      else before.registers.getByte .f bank
  pc : after.registers.pc =
    if selection.selects .pc then source.registers.pc else before.registers.pc
  stackHigh : Word.high after.registers.sp =
    if selection.selects .stackHigh then Word.high source.registers.sp
    else Word.high before.registers.sp
  stackLow : Word.low after.registers.sp =
    if selection.selects .stackLow then Word.low source.registers.sp
    else Word.low before.registers.sp
  interrupts : after.registers.iff1 = source.registers.iff1 ∧
    after.registers.iff2 = source.registers.iff2 ∧ after.registers.im = source.registers.im ∧
    after.registers.i = source.registers.i ∧ after.registers.r = source.registers.r
  latches : after.pending = source.pending ∧ after.suppressed = source.suppressed ∧
    after.nmiPending = source.nmiPending ∧ after.looping = source.looping ∧
    after.loopInterrupted = source.loopInterrupted
  wz : after.registers.wz = before.registers.wz
  /-- Nothing else is taken over. -/
  rest : after =
    { before with
      registers := after.registers
      pending := after.pending
      suppressed := after.suppressed
      nmiPending := after.nmiPending
      looping := after.looping
      loopInterrupted := after.loopInterrupted }

variable {selection later : Selection} {source before middle after other : Cpu}

theorem registers_align (cpu source : Cpu) (selection : Selection) :
    (cpu.align source selection).registers =
      selection.copy source.registers (cpu.registers.withInterrupts source.registers) := rfl

/-- F after aligning: all of it, all but the carry, or nothing is taken over. -/
theorem flags_align (cpu source : Cpu) (selection : Selection) (bank : Bank) :
    (cpu.align source selection).registers.getByte .f bank =
      if selection.selects (.byte .f bank) then source.registers.getByte .f bank
      else if selection.selects (.flagsButCarry bank) then
        Flags.keepCarry (cpu.registers.getByte .f bank) (source.registers.getByte .f bank)
      else cpu.registers.getByte .f bank := by
  have listed : .byte .f bank ∈ RegisterPart.parts := by
    simp [RegisterPart.byte_mem_parts, ByteRegister.isBanked]
  have carry := selection.read_copy_single (RegisterPart.replace_carry bank) source.registers
    (cpu.registers.withInterrupts source.registers)
  have rest := selection.read_copy (RegisterPart.replace_rest bank) source.registers
    (cpu.registers.withInterrupts source.registers)
  simp only [← registers_align, Registers.getByte_withInterrupts listed, List.any_cons,
    List.any_nil, Bool.or_false, Bool.or_eq_true] at carry rest
  -- The carry and the other flags are known apart; together they are F.
  by_cases whole : selection.selects (.byte .f bank) = true
  · rw [if_pos whole] at carry ⊢
    rw [if_pos (.inl whole)] at rest
    rw [Flags.eq_keepCarry carry rest, Flags.keepCarry_self]
  · rw [if_neg whole] at carry ⊢
    by_cases others : selection.selects (.flagsButCarry bank) = true
    · rw [if_pos (.inr others)] at rest
      rw [if_pos others, Flags.eq_keepCarry carry rest]
    · rw [if_neg (not_or.mpr ⟨whole, others⟩)] at rest
      rw [if_neg others, Flags.eq_keepCarry carry rest, Flags.keepCarry_self]

/-- Aligning does what the selection asks for. -/
theorem aligned_align (cpu source : Cpu) (selection : Selection) :
    Aligned selection source cpu (cpu.align source selection) where
  byte register bank apart listed := by
    rw [registers_align, selection.read_copy_single (RegisterPart.replace_byte apart listed),
      Registers.getByte_withInterrupts listed]
  flags := flags_align cpu source selection
  pc := selection.read_copy_single RegisterPart.replace_pc ..
  stackHigh := selection.read_copy_single RegisterPart.replace_stackHigh ..
  stackLow := selection.read_copy_single RegisterPart.replace_stackLow ..
  interrupts := by
    obtain ⟨i, r, _, iff1, iff2, im⟩ := selection.copy_kept source.registers
      (cpu.registers.withInterrupts source.registers)
    exact ⟨iff1, iff2, im, i, r⟩
  latches := ⟨rfl, rfl, rfl, rfl, rfl⟩
  wz := (selection.copy_kept source.registers _).2.2.1
  rest := rfl

theorem Aligned.registers_unique (one : Aligned selection source before after)
    (two : Aligned selection source before other) : after.registers = other.registers := by
  obtain ⟨iff1, iff2, im, i, r⟩ := one.interrupts
  obtain ⟨iff1', iff2', im', i', r'⟩ := two.interrupts
  -- I and R have no letter, and a register in one bank has it for the main bank only.
  have lettered (register : ByteRegister) (bank : Bank)
      (listed : .byte register bank ∈ RegisterPart.parts) :
      after.registers.getByte register bank = other.registers.getByte register bank := by
    by_cases flags : register = .f
    · rw [flags, one.flags, two.flags]
    · rw [one.byte register bank flags listed, two.byte register bank flags listed]
  have byte (register : ByteRegister) (bank : Bank) :
      after.registers.getByte register bank = other.registers.getByte register bank := by
    by_cases page : register = .i
    · rw [page]
      exact i.trans i'.symm
    by_cases counter : register = .r
    · rw [counter]
      exact r.trans r'.symm
    cases banked : register.isBanked with
    | true =>
      exact lettered register bank
        ((RegisterPart.byte_mem_parts ..).mpr ⟨.inl banked, page, counter⟩)
    | false =>
      rw [Registers.getByte_unbanked banked _ bank .main,
        Registers.getByte_unbanked banked _ bank .main]
      exact lettered register .main
        ((RegisterPart.byte_mem_parts ..).mpr ⟨.inr rfl, page, counter⟩)
  refine Registers.ext_views byte ?_ ?_ ?_ ?_ ?_ ?_
  · rw [one.pc, two.pc]
  · apply Word.ext_bytes
    · rw [one.stackHigh, two.stackHigh]
    · rw [one.stackLow, two.stackLow]
  · rw [one.wz, two.wz]
  · rw [iff1, iff1']
  · rw [iff2, iff2']
  · rw [im, im']

/-- What was asked for says all of what a processor comes to. -/
theorem Aligned.unique (one : Aligned selection source before after)
    (two : Aligned selection source before other) : after = other := by
  obtain ⟨pending, suppressed, nmiPending, looping, loopInterrupted⟩ := one.latches
  obtain ⟨pending', suppressed', nmiPending', looping', loopInterrupted'⟩ := two.latches
  rw [one.rest, two.rest, one.registers_unique two, pending, suppressed, nmiPending, looping,
    loopInterrupted, pending', suppressed', nmiPending', looping', loopInterrupted']

theorem ite_take_twice {α : Type} (first second : Bool) (theirs own : α) :
    (if second then theirs else if first then theirs else own) =
      if first || second then theirs else own := by
  cases first <;> cases second <;> rfl

/-- Selections one after the other do what their union does. -/
theorem Aligned.trans (first : Aligned selection source before middle)
    (second : Aligned later source middle after) :
    Aligned (selection.union later) source before after where
  byte register bank apart listed := by
    rw [second.byte register bank apart listed, first.byte register bank apart listed,
      Selection.selects_union, ite_take_twice]
  flags bank := by
    rw [second.flags, first.flags, Selection.selects_union, Selection.selects_union]
    cases selection.selects (.byte .f bank) <;> cases later.selects (.byte .f bank) <;>
      cases selection.selects (.flagsButCarry bank) <;>
      cases later.selects (.flagsButCarry bank) <;>
      simp [Flags.keepCarry_self, Flags.keepCarry_keepCarry]
  pc := by rw [second.pc, first.pc, Selection.selects_union, ite_take_twice]
  stackHigh := by rw [second.stackHigh, first.stackHigh, Selection.selects_union, ite_take_twice]
  stackLow := by rw [second.stackLow, first.stackLow, Selection.selects_union, ite_take_twice]
  interrupts := second.interrupts
  latches := second.latches
  wz := second.wz.trans first.wz
  rest := by rw [second.rest, first.rest]

/-- Aligning copies exactly what is selected, besides the interrupt and prefix state. So aligning
with two selections one after the other, in either order, is aligning with their union. -/
theorem align_exact (cpu source : Cpu) (selection later : Selection) :
    (∀ after, Aligned selection source cpu after ↔ after = cpu.align source selection) ∧
      (cpu.align source selection).align source later =
        cpu.align source (selection.union later) ∧
      (cpu.align source later).align source selection =
        cpu.align source (selection.union later) := by
  have twice (one two : Selection) :
      (cpu.align source one).align source two = cpu.align source (one.union two) :=
    ((aligned_align cpu source one).trans (aligned_align _ source two)).unique
      (aligned_align cpu source (one.union two))
  refine ⟨fun after => ⟨fun aligned => ?_, ?_⟩, twice selection later, ?_⟩
  · exact aligned.unique (aligned_align cpu source selection)
  · rintro rfl
    exact aligned_align cpu source selection
  · rw [Selection.union_comm, twice later selection]

end Cpu

end Z80
