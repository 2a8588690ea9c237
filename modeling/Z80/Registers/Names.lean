import Z80.Registers
import Z80.Text.Quoted

/-!
# Register names

Registers are named in either letter case. The halves of the index registers have short names
beside the full ones, and WZ also goes by MEMPTR. A name that is unknown is reported as it was
given.
-/

namespace Z80

/-- A name that no register has. -/
structure UnknownRegister where
  name : String
deriving DecidableEq

/-- The wording of the error. -/
def UnknownRegister.message (error : UnknownRegister) : String :=
  "unknown Z80 register: " ++ Text.quoted error.name

/-- A text with its ASCII letters in lower case. -/
def lowered (text : String) : String := String.ofList (text.toList.map Char.toLower)

namespace ByteRegister

/-- The names of the byte registers, in lower case. -/
def names : List (String × ByteRegister) :=
  [("a", .a), ("f", .f), ("b", .b), ("c", .c), ("d", .d), ("e", .e), ("h", .h), ("l", .l),
    ("ixh", .ixh), ("xh", .ixh), ("ixl", .ixl), ("xl", .ixl), ("iyh", .iyh), ("yh", .iyh),
    ("iyl", .iyl), ("yl", .iyl), ("i", .i), ("r", .r)]

/-- The byte register with a name. -/
def parse (name : String) : Except UnknownRegister ByteRegister :=
  match names.lookup (lowered name) with
  | some register => .ok register
  | none => .error ⟨name⟩

/-- The full name in upper case. -/
def display : ByteRegister → String
  | .a => "A"
  | .f => "F"
  | .b => "B"
  | .c => "C"
  | .d => "D"
  | .e => "E"
  | .h => "H"
  | .l => "L"
  | .ixh => "IXH"
  | .ixl => "IXL"
  | .iyh => "IYH"
  | .iyl => "IYL"
  | .i => "I"
  | .r => "R"

end ByteRegister

namespace WordRegister

/-- The names of the word registers, in lower case. -/
def names : List (String × WordRegister) :=
  [("af", .af), ("bc", .bc), ("de", .de), ("hl", .hl), ("ix", .ix), ("iy", .iy), ("sp", .sp),
    ("pc", .pc), ("wz", .wz), ("memptr", .wz)]

/-- The word register with a name. -/
def parse (name : String) : Except UnknownRegister WordRegister :=
  match names.lookup (lowered name) with
  | some register => .ok register
  | none => .error ⟨name⟩

end WordRegister

end Z80
