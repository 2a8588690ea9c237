import Z80.Arithmetic.Sum

/-!
# Sixteen-bit arithmetic

Addition and subtraction of register pairs. The flags are those of the high byte, except that
zero looks at the whole word and that a plain addition keeps sign, zero and parity.
-/

namespace Z80.Arithmetic

/-- ADD of two pairs. Sign, zero and parity survive. -/
def addPair (left right : Word) (flags : Flags) : Outcome 16 :=
  let value := sum left right false
  { value
    flags :=
      { flags.withCopies (Word.high value) with
        h := carries 12 left right false
        n := false
        c := carries 16 left right false } }

/-- ADC of two pairs. -/
def addPairCarry (left right : Word) (carry : Bool) : Outcome 16 :=
  let value := sum left right carry
  { value
    flags :=
      { Flags.ofResult (Word.high value) with
        z := value == 0
        h := carries 12 left right carry
        p := sumOverflows left right carry
        c := carries 16 left right carry } }

/-- SBC of two pairs. -/
def subtractPair (left right : Word) (borrow : Bool) : Outcome 16 :=
  let value := difference left right borrow
  { value
    flags :=
      { Flags.ofResult (Word.high value) with
        z := value == 0
        h := borrows 12 left right borrow
        p := differenceOverflows left right borrow
        n := true
        c := borrows 16 left right borrow } }

end Z80.Arithmetic
