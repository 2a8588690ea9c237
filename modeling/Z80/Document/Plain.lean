import Z80.Document

/-!
# The plain codec

Numbers stand for bytes and words, and names stand for variants. A record is an object that has its
fields, among others and in any order, or a list of all their values in the order of their
declaration. A variant can also be an object with its name and nothing in it.
-/

namespace Z80

namespace Document

variable {α : Type}

/-- A truth value. -/
def toBool? : Document → Option Bool
  | .bool value => some value
  | _ => none

/-- A whole number that fits the given count of bits. -/
def toBits? (width : Nat) : Document → Option (BitVec width)
  | .integer value =>
    let bits := BitVec.ofInt width value
    if bits.toNat = value then some bits else none
  | _ => none

/-- A count of tacts. -/
def toTacts? : Document → Option Tacts
  | .text value => Tacts.ofText? value
  | _ => none

/-- A name of a variant, either on its own or with nothing in it. -/
def toName? : Document → Option String
  | .text name | .object [(name, .null)] => some name
  | _ => none

/-- Something that may be null. -/
def toOption? (read : Document → Option α) : Document → Option (Option α)
  | .null => some none
  | document => (read document).map some

/-- A record, from its members or from its items. -/
def toRecord? (named : List (String × Document) → Option α) (inOrder : List Document → Option α) :
    Document → Option α
  | .object members => named members
  | .list items => inOrder items
  | _ => none

end Document

/-- The variant with a name. -/
def Variant.ofName? (names : List String) (name : String) : Option (Variant names) :=
  if known : name ∈ names then some ⟨name, known⟩ else none

/-! ### Reading -/

mutual

/-- The value of a shape that a document stands for. -/
def Shape.ofDocument? : (shape : Shape) → Document → Option shape.Value
  | .truth, document => document.toBool?
  | .byte, document => document.toBits? 8
  | .word, document => document.toBits? 16
  | .count, document => document.toTacts?
  | .choice names, document => document.toName?.bind (Variant.ofName? names)
  | .optional shape, document => document.toOption? shape.ofDocument?
  | .record fields, document => document.toRecord? fields.ofMembers? fields.ofItems?

/-- The values that stand under the names of the fields. -/
def Fields.ofMembers? : (fields : Fields) → List (String × Document) → Option fields.Values
  | .nil, _ => some ()
  | .cons name shape rest, members => do
    let value ← match members.lookup name with
      | some document => shape.ofDocument? document
      | none => shape.absent
    let more ← rest.ofMembers? members
    return (value, more)

/-- The values that stand in the order of the fields. -/
def Fields.ofItems? : (fields : Fields) → List Document → Option fields.Values
  | .nil, [] => some ()
  | .cons _ shape rest, item :: items => do
    let value ← shape.ofDocument? item
    let more ← rest.ofItems? items
    return (value, more)
  | _, _ => none

end

/-! ### Writing -/

mutual

/-- The document of a value. -/
def Shape.toDocument : (shape : Shape) → shape.Value → Document
  | .truth, value => .bool value
  | .byte, value => .integer (BitVec.toNat value)
  | .word, value => .integer (BitVec.toNat value)
  | .count, value => .text (Tacts.text value)
  | .choice _, variant => .text variant.val
  | .optional _, none => .null
  | .optional shape, some value => shape.toDocument value
  | .record fields, values => .object (fields.toMembers values)

/-- The values under the names of the fields. -/
def Fields.toMembers : (fields : Fields) → fields.Values → List (String × Document)
  | .nil, _ => []
  | .cons name shape rest, (value, more) => (name, shape.toDocument value) :: rest.toMembers more

end

/-- The codec that the shapes by themselves give. -/
def Codec.plain : Codec where
  read := Shape.ofDocument?
  write := Shape.toDocument

end Z80
