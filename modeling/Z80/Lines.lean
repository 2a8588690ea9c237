/-!
# Signal lines

The lines that the machine samples at each step and the lines that it drives. A set field means
that the line is asserted, whatever its level on the pin.
-/

namespace Z80

/-- The input lines. -/
structure Lines where
  /-- Maskable interrupt request. -/
  int : Bool := false
  /-- Non-maskable interrupt request. -/
  nmi : Bool := false
  reset : Bool := false
  wait : Bool := false
deriving DecidableEq, Inhabited

namespace Lines

/-- No line asserted. -/
def none : Lines := {}

/-- The lines given by a mask, INT in bit 0. -/
def ofBits (bits : BitVec 4) : Lines where
  int := bits.getLsbD 0
  nmi := bits.getLsbD 1
  reset := bits.getLsbD 2
  wait := bits.getLsbD 3

/-- The mask of the asserted lines. -/
def toBits (lines : Lines) : BitVec 4 :=
  BitVec.ofBool lines.wait ++ BitVec.ofBool lines.reset ++ BitVec.ofBool lines.nmi ++
    BitVec.ofBool lines.int

/-- The lines asserted in either. -/
def union (lines other : Lines) : Lines where
  int := lines.int || other.int
  nmi := lines.nmi || other.nmi
  reset := lines.reset || other.reset
  wait := lines.wait || other.wait

/-- The lines asserted in the first and not in the second. -/
def without (lines other : Lines) : Lines where
  int := lines.int && !other.int
  nmi := lines.nmi && !other.nmi
  reset := lines.reset && !other.reset
  wait := lines.wait && !other.wait

/-- Every line of the second is asserted in the first. -/
def contains (lines other : Lines) : Bool := (other.without lines) == none

/-- The names of the asserted lines. -/
def names (lines : Lines) : List String :=
  (if lines.int then ["INT"] else []) ++ (if lines.nmi then ["NMI"] else []) ++
    (if lines.reset then ["RESET"] else []) ++ (if lines.wait then ["WAIT"] else [])

/-- The names of the asserted lines between bars, or a dash for none. -/
def text (lines : Lines) : String :=
  if lines.names.isEmpty then "-" else "|".intercalate lines.names

@[simp] theorem ofBits_toBits (lines : Lines) : ofBits lines.toBits = lines := by
  obtain ⟨int, nmi, reset, wait⟩ := lines
  revert int nmi reset wait
  decide

@[simp] theorem toBits_ofBits (bits : BitVec 4) : (ofBits bits).toBits = bits := by
  revert bits
  decide

end Lines

/-- The output lines. -/
structure Outputs where
  /-- The last step fetched an opcode or acknowledged an interrupt. -/
  m1 : Bool := false
  /-- The machine waits for an interrupt. -/
  halt : Bool := false
deriving DecidableEq, Inhabited

namespace Outputs

/-- The mask of the asserted lines, M1 in bit 0. -/
def toBits (outputs : Outputs) : BitVec 2 :=
  BitVec.ofBool outputs.halt ++ BitVec.ofBool outputs.m1

end Outputs

end Z80
