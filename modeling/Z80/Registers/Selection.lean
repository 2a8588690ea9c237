import Z80.Registers.Names
import Z80.Text.Blank

/-!
# Selections of registers

A selection says which parts of a register file are copied from another machine. It is written as
one letter for each part, in any order and with repetitions; the letter T stands for nothing, and
blanks around the text do not count.
-/

namespace Z80

/-- A part of the register file that can be copied by itself. -/
inductive RegisterPart where
  | byte (register : ByteRegister) (bank : Bank)
  /-- All flags but the carry. -/
  | flagsButCarry (bank : Bank)
  | pc
  | stackHigh
  | stackLow
deriving DecidableEq

/-- The letters of the parts, in the order of their bits. -/
def RegisterPart.letters : List (Char × RegisterPart) :=
  [('A', .byte .a .main), ('F', .byte .f .main), ('B', .byte .b .main), ('C', .byte .c .main),
    ('D', .byte .d .main), ('E', .byte .e .main), ('H', .byte .h .main), ('L', .byte .l .main),
    ('X', .byte .ixh .main), ('x', .byte .ixl .main), ('Y', .byte .iyh .main),
    ('y', .byte .iyl .main), ('1', .flagsButCarry .main), ('0', .flagsButCarry .alternate),
    ('P', .pc), ('S', .stackHigh), ('s', .stackLow), ('a', .byte .a .alternate),
    ('f', .byte .f .alternate), ('b', .byte .b .alternate), ('c', .byte .c .alternate),
    ('d', .byte .d .alternate), ('e', .byte .e .alternate), ('h', .byte .h .alternate),
    ('l', .byte .l .alternate)]

/-- Copy one part of a register file from another. -/
def RegisterPart.copy (part : RegisterPart) (source target : Registers) : Registers :=
  match part with
  | .byte register bank => target.setByte register bank (source.getByte register bank)
  | .flagsButCarry bank =>
    target.updateAccumulator bank fun own =>
      { own with f := { (source.accumulatorOf bank).f with c := own.f.c } }
  | .pc => { target with pc := source.pc }
  | .stackHigh => { target with sp := Word.withHigh target.sp (Word.high source.sp) }
  | .stackLow => { target with sp := Word.withLow target.sp (Word.low source.sp) }

/-- A set of parts, one bit for each in the order of their letters. -/
structure Selection where
  bits : BitVec 25
deriving DecidableEq

namespace Selection

/-- Nothing selected. -/
def empty : Selection := ⟨0⟩

/-- Everything selected. -/
def all : Selection := ⟨BitVec.allOnes 25⟩

/-- Everything that either selection holds. -/
def union (left right : Selection) : Selection := ⟨left.bits ||| right.bits⟩

/-- The selection of the part with the given position. -/
def single (position : Nat) : Selection := ⟨BitVec.twoPow 25 position⟩

/-- The part with the given position is selected. -/
def holds (selection : Selection) (position : Nat) : Bool := selection.bits.getLsbD position

/-- What one letter selects. -/
def ofLetter (letter : Char) : Except UnknownRegister Selection :=
  -- T is accepted for nothing.
  if letter = 'T' then .ok empty
  else match RegisterPart.letters.findIdx? (·.1 == letter) with
    | some position => .ok (single position)
    | none => .error ⟨String.singleton letter⟩

/-- What a list of letters selects; the first unknown one is an error. -/
def ofLetters : List Char → Except UnknownRegister Selection
  | [] => .ok empty
  | letter :: rest =>
    match ofLetter letter with
    | .error error => .error error
    | .ok first =>
      match ofLetters rest with
      | .error error => .error error
      | .ok others => .ok (union first others)

/-- The selection written by a text. -/
def parse (text : String) : Except UnknownRegister Selection := ofLetters (Text.trim text.toList)

/-- The letters whose parts are selected, each with its part. -/
def selected (selection : Selection) : List RegisterPart :=
  (RegisterPart.letters.zipIdx.filter fun entry => selection.holds entry.2).map (·.1.2)

/-- Copy the selected parts of a register file from another. -/
def copy (selection : Selection) (source target : Registers) : Registers :=
  selection.selected.foldl (fun registers part => part.copy source registers) target

end Selection

end Z80
