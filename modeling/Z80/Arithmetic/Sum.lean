import Z80.Flags

/-!
# Sums and differences with a carry

Addition and subtraction at any width, with the carry that comes in, the carries and borrows that
cross a bit position, and signed overflow. Bytes and words share these, so that the half carry is
a carry across bit 3 of a byte and across bit 11 of a word.
-/

namespace Z80.Arithmetic

variable {width : Nat}

/-- A result together with the complete new flags. -/
structure Outcome (width : Nat) where
  value : BitVec width
  flags : Flags
deriving DecidableEq

/-- Two numbers and a carry, added with wrapping. -/
def sum (left right : BitVec width) (carry : Bool) : BitVec width :=
  left + right + BitVec.ofNat width carry.toNat

/-- A number and a borrow, taken away with wrapping. -/
def difference (left right : BitVec width) (borrow : Bool) : BitVec width :=
  left - right - BitVec.ofNat width borrow.toNat

/-- Adding the low `bits` bits and the carry gives a number that they cannot hold. -/
def carries (bits : Nat) (left right : BitVec width) (carry : Bool) : Bool :=
  BitVec.carry bits left right carry

/-- Taking the low `bits` bits and the borrow away needs a borrow from above. -/
def borrows (bits : Nat) (left right : BitVec width) (borrow : Bool) : Bool :=
  decide ((left.setWidth bits).toNat < (right.setWidth bits).toNat + borrow.toNat)

/-- Two summands of one sign give a sum of the other sign. -/
def sumOverflows (left right : BitVec width) (carry : Bool) : Bool :=
  left.msb == right.msb && left.msb != (sum left right carry).msb

/-- A difference of numbers of unlike sign has the sign of the number taken away. -/
def differenceOverflows (left right : BitVec width) (borrow : Bool) : Bool :=
  left.msb != right.msb && left.msb != (difference left right borrow).msb

end Z80.Arithmetic
