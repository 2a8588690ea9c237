import Z80.Arithmetic.Sum

/-!
# Flags of the block instructions

A block instruction that is about to repeat takes the two undocumented copies from the high byte
of the address it goes back to; one that is done takes them from its operands. `rewound` is that
high byte, if the instruction repeats.
-/

namespace Z80.Arithmetic

/-- Bits 3 and 1 of a byte as the two undocumented copies, unless the instruction repeats. -/
def blockCopies (flags : Flags) (byte : Byte) : Option Byte → Flags
  | some page => flags.withCopies page
  | none => { flags with y := byte.getLsbD 1, x := byte.getLsbD 3 }

/-- Flags of a block transfer after moving `value`, with `count` transfers left. -/
def blockTransfer (flags : Flags) (accumulator value : Byte) (count : Word)
    (rewound : Option Byte) : Flags :=
  blockCopies { flags with h := false, p := count != 0, n := false } (accumulator + value) rewound

/-- Flags of a block comparison with `value`, with `count` comparisons left. -/
def blockCompare (flags : Flags) (accumulator value : Byte) (count : Word)
    (rewound : Option Byte) : Flags :=
  let result := accumulator - value
  let half := borrows 4 accumulator value false
  blockCopies
    { s := result.getLsbD 7
      z := result == 0
      h := half
      p := count != 0
      n := true
      c := flags.c }
    (difference accumulator value half) rewound

/-- Flags of a block input or output of `value`, with `count` left in B. `total` is the byte added
to the stepped C for input, or to the stepped L for output. A repeating instruction adjusts half
carry and parity by its own further step of B. -/
def blockPort (value count : Byte) (total : Word) (rewound : Option Byte) : Flags :=
  let carry := decide (0xFF < total.toNat)
  let negative := value.getLsbD 7
  let mixed := (Word.low total &&& 7) ^^^ count
  match rewound with
  | none =>
    { Flags.ofResult count with
      h := carry, p := Flags.evenParity mixed, n := negative, c := carry }
  | some page =>
    let stepped := if carry then (if negative then count - 1 else count + 1) else count
    let half :=
      carry && (if negative then count.toNat % 16 == 0 else count.toNat % 16 == 15)
    { s := count.getLsbD 7
      z := false
      y := page.getLsbD 5
      h := half
      x := page.getLsbD 3
      p := Flags.evenParity (mixed ^^^ (stepped &&& 7))
      n := negative
      c := carry }

end Z80.Arithmetic
