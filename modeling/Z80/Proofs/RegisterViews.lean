import Mathlib.Logic.Basic
import Z80.Registers

/-!
# Reading back byte registers

A byte register that was written reads as it was written, and all others read as before. The two
banks are apart for the accumulator, the flags and the general registers; the other registers do not
heed the bank.

## Main definitions

* `ByteRegister.isBanked`: the register exists in two banks

## Main results

* `Registers.getByte_setByte`: what a byte register reads as after any byte register was written
* `Registers.ext_views`: register files are the same if they read the same
-/

namespace Z80

/-- The register exists in two banks. -/
def ByteRegister.isBanked : ByteRegister → Bool
  | .a | .f | .b | .c | .d | .e | .h | .l => true
  | .ixh | .ixl | .iyh | .iyl | .i | .r => false

namespace Word

@[simp] theorem high_withHigh (word : Word) (byte : Byte) : high (withHigh word byte) = byte :=
  high_ofBytes ..

@[simp] theorem low_withHigh (word : Word) (byte : Byte) : low (withHigh word byte) = low word :=
  low_ofBytes ..

@[simp] theorem high_withLow (word : Word) (byte : Byte) : high (withLow word byte) = high word :=
  high_ofBytes ..

@[simp] theorem low_withLow (word : Word) (byte : Byte) : low (withLow word byte) = byte :=
  low_ofBytes ..

end Word

/-- General registers with the same bytes are the same. -/
theorem General.ext_bytes {regs other : General} (b : regs.b = other.b) (c : regs.c = other.c)
    (d : regs.d = other.d) (e : regs.e = other.e) (h : regs.h = other.h) (l : regs.l = other.l) :
    regs = other := by
  cases regs
  cases other
  simp_all

namespace Registers

/-- A byte register reads as it was last written, and writing another one does not change it. -/
theorem getByte_setByte (regs : Registers) (register other : ByteRegister) (bank otherBank : Bank)
    (byte : Byte) :
    (regs.setByte register bank byte).getByte other otherBank =
      if register = other ∧ (bank = otherBank ∨ register.isBanked = false) then byte
      else regs.getByte other otherBank := by
  cases bank <;> cases otherBank <;> cases register <;> cases other <;>
    simp [setByte, getByte, updateAccumulator, updateGeneral, accumulatorOf, generalOf,
      ByteRegister.isBanked]

/-- A register that is in one bank only reads the same in either. -/
theorem getByte_unbanked {register : ByteRegister} (unbanked : register.isBanked = false)
    (regs : Registers) (bank other : Bank) :
    regs.getByte register bank = regs.getByte register other := by
  cases register <;> first | rfl | cases unbanked

/-- Writing a byte register leaves alone what is not made of byte registers. -/
theorem setByte_kept (regs : Registers) (register : ByteRegister) (bank : Bank) (byte : Byte) :
    (regs.setByte register bank byte).pc = regs.pc ∧
      (regs.setByte register bank byte).sp = regs.sp ∧
      (regs.setByte register bank byte).wz = regs.wz ∧
      (regs.setByte register bank byte).iff1 = regs.iff1 ∧
      (regs.setByte register bank byte).iff2 = regs.iff2 ∧
      (regs.setByte register bank byte).im = regs.im := by
  cases register <;> cases bank <;> exact ⟨rfl, rfl, rfl, rfl, rfl, rfl⟩

/-- Byte registers do not show the pointers. -/
theorem getByte_withPointers (regs : Registers) (pc sp : Word) (register : ByteRegister)
    (bank : Bank) :
    ({ regs with pc := pc, sp := sp } : Registers).getByte register bank =
      regs.getByte register bank := by
  cases register <;> cases bank <;> rfl

/-- Register files with the same byte registers, pointers, address latch and interrupt state are the
same. -/
theorem ext_views {regs other : Registers}
    (byte : ∀ register bank, regs.getByte register bank = other.getByte register bank)
    (pc : regs.pc = other.pc) (sp : regs.sp = other.sp) (wz : regs.wz = other.wz)
    (iff1 : regs.iff1 = other.iff1) (iff2 : regs.iff2 = other.iff2) (im : regs.im = other.im) :
    regs = other := by
  have accumulator (bank : Bank) : regs.accumulatorOf bank = other.accumulatorOf bank :=
    congrArg₂ Accumulator.mk (byte .a bank) (Flags.toByte_injective (byte .f bank))
  have general (bank : Bank) : regs.generalOf bank = other.generalOf bank :=
    General.ext_bytes (byte .b bank) (byte .c bank) (byte .d bank) (byte .e bank) (byte .h bank)
      (byte .l bank)
  have ix : regs.ix = other.ix := Word.ext_bytes (byte .ixh .main) (byte .ixl .main)
  have iy : regs.iy = other.iy := Word.ext_bytes (byte .iyh .main) (byte .iyl .main)
  have i : regs.i = other.i := byte .i .main
  have r : regs.r = other.r := byte .r .main
  have main := And.intro (accumulator .main) (general .main)
  have alternate := And.intro (accumulator .alternate) (general .alternate)
  cases regs
  cases other
  simp_all [accumulatorOf, generalOf]

end Registers

end Z80
