import Z80.Document.Plain
import Z80.Registers

/-!
# Registers as documents

Each byte register and each word register has a field of its own; the alternate bank is marked in
the name.
-/

namespace Z80

/-- The variant that names a mode. -/
def InterruptMode.variant (mode : InterruptMode) : Variant (names.map Prod.fst) :=
  ⟨mode.name, by cases mode <;> decide⟩

@[simp] theorem InterruptMode.find_variant (mode : InterruptMode) : mode.variant.find = mode :=
  Variant.find_of_lookup mode.ofName?_name

namespace Registers

/-- The fields of a register file. -/
def fields : Fields :=
  .ofList
    [("a", .byte), ("f", .byte), ("b", .byte), ("c", .byte), ("d", .byte), ("e", .byte),
      ("h", .byte), ("l", .byte), ("a_alt", .byte), ("f_alt", .byte), ("b_alt", .byte),
      ("c_alt", .byte), ("d_alt", .byte), ("e_alt", .byte), ("h_alt", .byte), ("l_alt", .byte),
      ("ix", .word), ("iy", .word), ("sp", .word), ("pc", .word), ("i", .byte), ("r", .byte),
      ("wz", .word), ("iff1", .truth), ("iff2", .truth),
      ("im", .choice (InterruptMode.names.map Prod.fst))]

/-- The values of the fields. -/
def toValues (regs : Registers) : (Shape.record fields).Value :=
  let main := regs.general
  let other := regs.generalAlternate
  (regs.accumulator.a, regs.accumulator.f.toByte, main.b, main.c, main.d, main.e, main.h, main.l,
    regs.accumulatorAlternate.a, regs.accumulatorAlternate.f.toByte,
    other.b, other.c, other.d, other.e, other.h, other.l,
    regs.ix, regs.iy, regs.sp, regs.pc, regs.i, regs.r, regs.wz, regs.iff1, regs.iff2,
    regs.im.variant, ())

/-- The register file with these values in its fields. -/
def ofValues : (Shape.record fields).Value → Registers
  | (a, f, b, c, d, e, h, l, aAlt, fAlt, bAlt, cAlt, dAlt, eAlt, hAlt, lAlt,
      ix, iy, sp, pc, i, r, wz, iff1, iff2, im, ()) =>
    { accumulator := ⟨a, .ofByte f⟩
      accumulatorAlternate := ⟨aAlt, .ofByte fAlt⟩
      general := ⟨b, c, d, e, h, l⟩
      generalAlternate := ⟨bAlt, cAlt, dAlt, eAlt, hAlt, lAlt⟩
      ix, iy, sp, pc, i, r, wz, iff1, iff2
      im := Variant.find im }

@[simp] theorem ofValues_toValues (regs : Registers) : ofValues regs.toValues = regs := by
  simp only [toValues, ofValues, Flags.ofByte_toByte, InterruptMode.find_variant]

/-- The document of a register file. -/
def toDocument (regs : Registers) : Document :=
  Codec.plain.write (.record fields) regs.toValues

end Registers

end Z80
