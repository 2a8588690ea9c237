import Z80.Tacts
import Z80.Word

/-!
# Documents

A document is a tree of the kinds of value that a text format for structured data has. What a value
is declared to be, its shape, tells which documents stand for it. The reading and the writing are
left to a codec, which knows nothing but the shapes.

## Main definitions

* `Document`: a structured value
* `Shape`, `Fields`: declarations of values and of the fields of records
* `Shape.Value`, `Fields.Values`: the values that are declared
* `Codec`: a way to read and write the values of all shapes
-/

namespace Z80

/-- A structured value. -/
inductive Document where
  | null
  | bool (value : Bool)
  | integer (value : Int)
  /-- A number that is not written as a whole one. -/
  | fraction
  | text (value : String)
  | list (items : List Document)
  | object (members : List (String × Document))

/-! ### Shapes -/

mutual

/-- What a value is declared to be. -/
inductive Shape where
  | truth
  | byte
  | word
  /-- A count of tacts. It is written in decimal, since formats differ in how large a number they
  hold. -/
  | count
  /-- One of the variants with these names. -/
  | choice (names : List String)
  /-- A value of the shape, or none. -/
  | optional (shape : Shape)
  | record (fields : Fields)

/-- The fields of a record, in the order of their declaration. -/
inductive Fields where
  | nil
  | cons (name : String) (shape : Shape) (rest : Fields)

end

/-- The fields of a list. -/
def Fields.ofList : List (String × Shape) → Fields
  | [] => .nil
  | (name, shape) :: rest => .cons name shape (ofList rest)

/-- The names of the fields. -/
def Fields.names : Fields → List String
  | .nil => []
  | .cons name _ rest => name :: rest.names

/-! ### Values -/

/-- One of the variants with these names. -/
abbrev Variant (names : List String) := { name : String // name ∈ names }

mutual

/-- The values of a shape. -/
def Shape.Value : Shape → Type
  | .truth => Bool
  | .byte => Byte
  | .word => Word
  | .count => Tacts
  | .choice names => Variant names
  | .optional shape => Option shape.Value
  | .record fields => fields.Values

/-- A value for each of the fields. -/
def Fields.Values : Fields → Type
  | .nil => Unit
  | .cons _ shape rest => shape.Value × rest.Values

end

/-- What a field holds that is missing. Only a field whose value may be none can be missing. -/
def Shape.absent : (shape : Shape) → Option shape.Value
  | .optional _ => some none
  | _ => none

namespace Variant

variable {α : Type} {entries : List (String × α)}

theorem isSome_lookup (variant : Variant (entries.map Prod.fst)) :
    (entries.lookup variant.val).isSome = true := by
  obtain ⟨entry, member, same⟩ := List.mem_map.mp variant.property
  exact List.lookup_isSome_iff.mpr ⟨entry, member, beq_iff_eq.mpr same.symm⟩

/-- What a table has under the name of the variant. -/
def find (variant : Variant (entries.map Prod.fst)) : α :=
  (entries.lookup variant.val).get variant.isSome_lookup

theorem find_of_lookup {variant : Variant (entries.map Prod.fst)} {value : α}
    (found : entries.lookup variant.val = some value) : variant.find = value :=
  Option.get_of_eq_some _ found

end Variant

/-! ### Codecs -/

/-- A way to read the values of all shapes from documents and to write them to documents. -/
structure Codec where
  read (shape : Shape) : Document → Option shape.Value
  write (shape : Shape) : shape.Value → Document

/-- The value of a field, given what stands in its place if anything does. -/
def Codec.member (codec : Codec) (shape : Shape) : Option Document → Option shape.Value
  | some document => codec.read shape document
  | none => shape.absent

end Z80
