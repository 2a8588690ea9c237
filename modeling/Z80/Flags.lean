import Z80.Word

/-!
# Flags

The register F holds eight flags. They are kept apart here and packed into a byte only where the
machine stores F, so that reading and packing are inverse to each other (`ofByte_toByte`,
`toByte_ofByte`).
-/

namespace Z80

/-- The eight flags of F, from bit 7 down to bit 0. -/
structure Flags where
  /-- Sign: bit 7 of the result. -/
  s : Bool := false
  /-- The result is zero. -/
  z : Bool := false
  /-- Undocumented copy of bit 5 of a result. -/
  y : Bool := false
  /-- Carry out of bit 3, or borrow into bit 4. -/
  h : Bool := false
  /-- Undocumented copy of bit 3 of a result. -/
  x : Bool := false
  /-- Parity of a logical result, overflow of an arithmetical one. -/
  p : Bool := false
  /-- The last operation was a subtraction. -/
  n : Bool := false
  /-- Carry or borrow. -/
  c : Bool := false
deriving DecidableEq, Inhabited

namespace Flags

/-- The byte that F holds. -/
def toByte (flags : Flags) : Byte :=
  BitVec.ofBool flags.s ++ BitVec.ofBool flags.z ++ BitVec.ofBool flags.y ++
    BitVec.ofBool flags.h ++ BitVec.ofBool flags.x ++ BitVec.ofBool flags.p ++
    BitVec.ofBool flags.n ++ BitVec.ofBool flags.c

/-- The flags held by a byte. -/
def ofByte (byte : Byte) : Flags where
  s := byte.getLsbD 7
  z := byte.getLsbD 6
  y := byte.getLsbD 5
  h := byte.getLsbD 4
  x := byte.getLsbD 3
  p := byte.getLsbD 2
  n := byte.getLsbD 1
  c := byte.getLsbD 0

/-- The state of F that leaves no flag set. -/
def clear : Flags := {}

@[simp] theorem ofByte_toByte (flags : Flags) : ofByte flags.toByte = flags := by
  obtain ⟨s, z, y, h, x, p, n, c⟩ := flags
  revert s z y h x p n c
  decide

@[simp] theorem toByte_ofByte (byte : Byte) : (ofByte byte).toByte = byte := by
  revert byte
  decide +kernel

theorem toByte_injective {flags other : Flags} (h : flags.toByte = other.toByte) :
    flags = other := by
  rw [← ofByte_toByte flags, h, ofByte_toByte]

/-- A byte with an even number of ones. -/
def evenParity (byte : Byte) : Bool :=
  !(byte.getLsbD 0 ^^ byte.getLsbD 1 ^^ byte.getLsbD 2 ^^ byte.getLsbD 3 ^^
    byte.getLsbD 4 ^^ byte.getLsbD 5 ^^ byte.getLsbD 6 ^^ byte.getLsbD 7)

/-- The flags that every eight-bit result sets: sign, zero and the two undocumented copies. -/
def ofResult (result : Byte) : Flags where
  s := result.getLsbD 7
  z := result == 0
  y := result.getLsbD 5
  x := result.getLsbD 3

/-- The flags of a logical result: those of `ofResult`, and parity. -/
def ofLogic (result : Byte) : Flags :=
  { ofResult result with p := evenParity result }

/-- The flags with the two undocumented copies taken from a byte. -/
def withCopies (flags : Flags) (source : Byte) : Flags :=
  { flags with y := source.getLsbD 5, x := source.getLsbD 3 }

end Flags

end Z80
