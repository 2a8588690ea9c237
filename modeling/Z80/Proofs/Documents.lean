import Mathlib.Data.Nat.Digits.Defs
import Mathlib.Data.List.Nodup
import Z80.Document.Plain
import Z80.Proofs.Names

/-!
# Reading and writing documents

What is documented of a codec is how it treats the scalar shapes, and how a record with one more
field relates to the record without it. From that alone follows what it does with all shapes: a
value is read back from its document as it was, a document can be read exactly if the shape admits
it, and members of an object that a record does not declare do not count.

## Main definitions

* `Text.Decimal.IsNumeral`: the texts that stand for a number
* `Document.Distinct`: no object in the document has two members of one name
* `Codec.Documented`: the documented behaviour of a codec
* `Shape.Sound`, `Fields.Sound`: declarations whose fields can be told apart, and none from a value
* `Shape.Admits`, `Fields.Named`, `Fields.InOrder`: the documents that stand for some value

## Main results

* `Codec.plain_documented`: the plain codec behaves as documented
* `Codec.Documented.read_write`: reading gives back what was written
* `Codec.Documented.read_object_congr`: only the declared members count
* `Codec.Documented.isSome_read`: which documents can be read
-/

namespace Z80

/-! ### Numerals -/

namespace Text.Decimal

/-- The number that digits stand for, the highest first. -/
def digitsValue (digits : List Char) : Nat :=
  Nat.ofDigits 10 (digits.map fun digit => digit.toNat - '0'.toNat).reverse

/-- Digits, after a plus sign or without one, that stand for a number. -/
def IsNumeral (text : String) (value : Nat) : Prop :=
  ∃ digits, (text.toList = digits ∨ text.toList = '+' :: digits) ∧ digits ≠ [] ∧
    (∀ digit ∈ digits, digit.isDigit = true) ∧ digitsValue digits = value

theorem accumulate_eq_digitsValue (digits : List Char) :
    accumulate 0 digits = digitsValue digits := by
  rw [digitsValue, Nat.ofDigits_eq_foldr, List.foldr_reverse, List.foldl_map, accumulate]
  congr 1
  funext total digit
  show total * 10 + (digit.toNat - 48) = (digit.toNat - 48) + 10 * total
  omega

theorem ofDigits?_eq_some_iff {digits : List Char} {value : Nat} :
    ofDigits? digits = some value ↔
      digits ≠ [] ∧ (∀ digit ∈ digits, digit.isDigit = true) ∧ digitsValue digits = value := by
  simp only [ofDigits?, accumulate_eq_digitsValue, Option.ite_none_right_eq_some, Option.some.injEq,
    List.all_eq_true, and_assoc]

/-- Numerals are read as the numbers that they stand for, and no other text is read. -/
theorem read?_eq_some_iff {text : String} {value : Nat} :
    read? text = some value ↔ IsNumeral text value := by
  have plus : '+'.isDigit = false := rfl
  rw [read?]
  split
  · next rest same =>
    rw [ofDigits?_eq_some_iff]
    constructor
    · intro digital
      exact ⟨rest, .inr same, digital⟩
    · rintro ⟨digits, whole | after, nonempty, digital, value⟩
      · -- A text with a plus sign does not consist of digits.
        have sign := digital '+' (by rw [← whole, same]; exact List.mem_cons_self)
        rw [plus] at sign
        cases sign
      · rw [same, List.cons.injEq] at after
        exact after.2 ▸ ⟨nonempty, digital, value⟩
  · next other =>
    rw [ofDigits?_eq_some_iff]
    constructor
    · intro digital
      exact ⟨_, .inl rfl, digital⟩
    · rintro ⟨digits, whole | after, digital⟩
      · exact whole ▸ digital
      · exact absurd after (other digits)

end Text.Decimal

/-- A text is read as the count that it is a numeral of. -/
theorem Tacts.ofText?_eq_some_iff {text : String} {count : Tacts} :
    ofText? text = some count ↔ Text.Decimal.IsNumeral text count.toNat := by
  simp only [ofText?, Option.bind_eq_some_iff, Text.Decimal.read?_eq_some_iff,
    Option.ite_none_right_eq_some, UInt64.size, Option.some.injEq]
  constructor
  · rintro ⟨value, numeral, bound, rfl⟩
    rwa [BitVec.toNat_ofNat, Nat.mod_eq_of_lt bound]
  · intro numeral
    exact ⟨count.toNat, numeral, count.isLt, by simp⟩

/-! ### Documents -/

namespace Document

/-- No object in the document has two members of one name. -/
inductive Distinct : Document → Prop where
  | null : Distinct .null
  | bool (value : Bool) : Distinct (.bool value)
  | integer (value : Int) : Distinct (.integer value)
  | fraction : Distinct .fraction
  | text (value : String) : Distinct (.text value)
  | list {items : List Document} (each : ∀ item ∈ items, item.Distinct) : Distinct (.list items)
  | object {members : List (String × Document)} (names : (members.map Prod.fst).Nodup)
      (each : ∀ member ∈ members, member.2.Distinct) : Distinct (.object members)

attribute [simp] Distinct.null Distinct.bool Distinct.integer Distinct.text

@[simp] theorem distinct_list {items : List Document} :
    (list items).Distinct ↔ ∀ item ∈ items, item.Distinct :=
  ⟨fun | .list each => each, .list⟩

@[simp] theorem distinct_object {members : List (String × Document)} :
    (object members).Distinct ↔
      (members.map Prod.fst).Nodup ∧ ∀ member ∈ members, member.2.Distinct :=
  ⟨fun | .object names each => ⟨names, each⟩, fun ⟨names, each⟩ => .object names each⟩

end Document

/-! ### Codecs -/

/-- The documented behaviour of a codec. A variant is its name, or an object with the name and
nothing in it. A record is read from an object or from a list. Members that it does not declare do
not count, and a list has neither more nor fewer items than the record has fields. Nothing is said
of objects in which two members have one name. -/
structure Codec.Documented (codec : Codec) : Prop where
  read_truth (document : Document) (value : Bool) :
    codec.read .truth document = some value ↔ document = .bool value
  read_byte (document : Document) (value : Byte) :
    codec.read .byte document = some value ↔ document = .integer value.toNat
  read_word (document : Document) (value : Word) :
    codec.read .word document = some value ↔ document = .integer value.toNat
  read_count (document : Document) (value : Tacts) :
    codec.read .count document = some value ↔
      ∃ text, document = .text text ∧ Text.Decimal.IsNumeral text value.toNat
  read_choice (names : List String) {document : Document} (distinct : document.Distinct)
      (variant : Variant names) :
    codec.read (.choice names) document = some variant ↔
      document = .text variant.val ∨ document = .object [(variant.val, .null)]
  read_null (shape : Shape) : codec.read (.optional shape) .null = some none
  read_optional (shape : Shape) (document : Document) (present : document ≠ .null) :
    codec.read (.optional shape) document = (codec.read shape document).map some
  read_object_nil {members : List (String × Document)} (distinct : (members.map Prod.fst).Nodup) :
    codec.read (.record .nil) (.object members) = some ()
  read_object_cons {members : List (String × Document)} (distinct : (members.map Prod.fst).Nodup)
      (name : String) (shape : Shape) (rest : Fields) :
    codec.read (.record (.cons name shape rest)) (.object members) = do
      let value ← codec.member shape (members.lookup name)
      let more ← codec.read (.record rest) (.object members)
      return (value, more)
  read_list_nil : codec.read (.record .nil) (.list []) = some ()
  read_list_more (item : Document) (items : List Document) :
    codec.read (.record .nil) (.list (item :: items)) = none
  read_list_fewer (name : String) (shape : Shape) (rest : Fields) :
    codec.read (.record (.cons name shape rest)) (.list []) = none
  read_list_cons (name : String) (shape : Shape) (rest : Fields) (item : Document)
      (items : List Document) :
    codec.read (.record (.cons name shape rest)) (.list (item :: items)) = do
      let value ← codec.read shape item
      let more ← codec.read (.record rest) (.list items)
      return (value, more)
  read_scalar (fields : Fields) (document : Document)
      (scalar : (∀ members, document ≠ .object members) ∧ ∀ items, document ≠ .list items) :
    codec.read (.record fields) document = none
  write_truth (value : Bool) : codec.write .truth value = .bool value
  write_byte (value : Byte) : codec.write .byte value = .integer value.toNat
  write_word (value : Word) : codec.write .word value = .integer value.toNat
  write_count (value : Tacts) : codec.write .count value = .text value.text
  write_choice (names : List String) (variant : Variant names) :
    codec.write (.choice names) variant = .text variant.val
  write_none (shape : Shape) : codec.write (.optional shape) none = .null
  write_some (shape : Shape) (value : shape.Value) :
    codec.write (.optional shape) (some value) = codec.write shape value
  write_nil : codec.write (.record .nil) () = .object []
  write_cons (name : String) (shape : Shape) (rest : Fields) (value : shape.Value)
      (more : rest.Values) (members : List (String × Document))
      (written : codec.write (.record rest) more = .object members) :
    codec.write (.record (.cons name shape rest)) (value, more) =
      .object ((name, codec.write shape value) :: members)

/-! ### The plain codec -/

namespace Document

theorem toBool?_eq_some_iff {document : Document} {value : Bool} :
    document.toBool? = some value ↔ document = .bool value := by
  cases document <;> simp [toBool?]

theorem toTacts?_eq_some_iff {document : Document} {count : Tacts} :
    document.toTacts? = some count ↔
      ∃ text, document = .text text ∧ Text.Decimal.IsNumeral text count.toNat := by
  cases document <;> simp [toTacts?, Tacts.ofText?_eq_some_iff]

theorem toBits?_eq_some_iff {width : Nat} {document : Document} {bits : BitVec width} :
    document.toBits? width = some bits ↔ document = .integer bits.toNat := by
  cases document with
  | integer value =>
    simp only [toBits?, Option.ite_none_right_eq_some, Option.some.injEq, integer.injEq]
    constructor
    · rintro ⟨held, rfl⟩
      exact held.symm
    · rintro rfl
      simp
  | _ => simp [toBits?]

theorem toName?_eq_some_iff {document : Document} {name : String} :
    document.toName? = some name ↔ document = .text name ∨ document = .object [(name, .null)] := by
  constructor
  · intro named
    unfold toName? at named
    split at named
    · exact .inl (congrArg text (Option.some.inj named))
    · rw [Option.some.inj named]
      exact .inr rfl
    · cases named
  · rintro (rfl | rfl) <;> rfl

end Document

theorem Variant.ofName?_eq_some_iff {names : List String} {name : String}
    {variant : Variant names} : ofName? names name = some variant ↔ name = variant.val := by
  constructor
  · intro found
    obtain ⟨known, same⟩ := Option.dite_none_right_eq_some.mp found
    exact congrArg Subtype.val (Option.some.inj same)
  · rintro rfl
    exact dif_pos variant.property

theorem Variant.ofName?_toName?_eq_some_iff {names : List String} {document : Document}
    {variant : Variant names} :
    document.toName?.bind (ofName? names) = some variant ↔
      document = .text variant.val ∨ document = .object [(variant.val, .null)] := by
  simp only [Option.bind_eq_some_iff, Document.toName?_eq_some_iff, ofName?_eq_some_iff]
  constructor
  · rintro ⟨name, named, rfl⟩
    exact named
  · exact fun named => ⟨_, named, rfl⟩

/-- The plain codec behaves as documented. -/
theorem Codec.plain_documented : plain.Documented where
  read_truth _ _ := Document.toBool?_eq_some_iff
  read_byte _ _ := Document.toBits?_eq_some_iff
  read_word _ _ := Document.toBits?_eq_some_iff
  read_count _ _ := Document.toTacts?_eq_some_iff
  read_choice _ _ _ _ := Variant.ofName?_toName?_eq_some_iff
  read_null _ := rfl
  read_optional shape document present := by
    cases document with
    | null => exact absurd rfl present
    | _ => rfl
  read_object_nil _ := rfl
  read_object_cons {members} _ name shape rest := by
    simp only [plain, Shape.ofDocument?, Document.toRecord?, Fields.ofMembers?, member]
    cases members.lookup name <;> rfl
  read_list_nil := rfl
  read_list_more _ _ := rfl
  read_list_fewer _ _ _ := rfl
  read_list_cons _ _ _ _ _ := rfl
  read_scalar fields document scalar := by
    cases document with
    | list items => exact absurd rfl (scalar.2 items)
    | object members => exact absurd rfl (scalar.1 members)
    | _ => rfl
  write_truth _ := rfl
  write_byte _ := rfl
  write_word _ := rfl
  write_count _ := rfl
  write_choice _ _ := rfl
  write_none _ := rfl
  write_some _ _ := rfl
  write_nil := rfl
  write_cons name shape rest value more members written := by
    obtain rfl := Document.object.inj written
    rfl

/-! ### Members that count -/

section Options

variable {α β : Type}

theorem isSome_iff_exists_of {read : Option α} {Post : α → Prop}
    (told : ∀ value, read = some value ↔ Post value) :
    read.isSome = true ↔ ∃ value, Post value := by
  simp only [Option.isSome_iff_exists, told]

theorem isSome_map_some (read : Option α) :
    (read.map some).isSome = true ↔ read.isSome = true := by
  rw [Option.isSome_map]

/-- If what was read never decides what is read next, it can be read together exactly if both can be
read. -/
theorem isSome_pair (first : Option α) (rest : Option β) :
    (do let value ← first
        let more ← rest
        return (value, more)).isSome = true ↔ first.isSome = true ∧ rest.isSome = true := by
  cases first <;> cases rest <;> simp

theorem pair_eq_some_iff {first : Option α} {rest : Option β} {values : α × β} :
    (do let value ← first
        let more ← rest
        return (value, more)) = some values ↔ first = some values.1 ∧ rest = some values.2 := by
  cases first <;> cases rest <;> simp [Prod.ext_iff]

end Options

namespace Codec.Documented

variable {codec : Codec} (documented : codec.Documented)

include documented

/-- Objects that give the same for the declared names are read alike. -/
theorem read_object_congr {members others : List (String × Document)}
    (distinct : (members.map Prod.fst).Nodup) (otherDistinct : (others.map Prod.fst).Nodup) :
    ∀ fields : Fields, (∀ name ∈ fields.names, members.lookup name = others.lookup name) →
      codec.read (.record fields) (.object members) = codec.read (.record fields) (.object others)
  | .nil, _ => by
    rw [documented.read_object_nil distinct, documented.read_object_nil otherDistinct]
  | .cons name shape rest, agree => by
    obtain ⟨here, there⟩ := List.forall_mem_cons.mp agree
    rw [documented.read_object_cons distinct, documented.read_object_cons otherDistinct, here,
      read_object_congr distinct otherDistinct rest there]

/-- What a record holds is what stands for its first field, and then what stands for the others. -/
theorem read_object_cons_eq_some_iff {members : List (String × Document)}
    (distinct : (members.map Prod.fst).Nodup) {name : String} {shape : Shape} {rest : Fields}
    {values : shape.Value × rest.Values} :
    codec.read (.record (.cons name shape rest)) (.object members) = some values ↔
      codec.member shape (members.lookup name) = some values.1 ∧
        codec.read (.record rest) (.object members) = some values.2 := by
  rw [documented.read_object_cons distinct]
  exact pair_eq_some_iff

end Codec.Documented

/-! ### Reading what was written -/

mutual

/-- Within the shape, fields of one record have different names, and nothing that may be none is
given a second way to be none. -/
def Shape.Sound : Shape → Prop
  | .optional shape => shape.absent = none ∧ shape.Sound
  | .record fields => fields.Sound
  | _ => True

/-- The fields have different names and sound shapes. -/
def Fields.Sound : Fields → Prop
  | .nil => True
  | .cons name shape rest => name ∉ rest.names ∧ shape.Sound ∧ rest.Sound

end

theorem Fields.Sound.nodup : {fields : Fields} → fields.Sound → fields.names.Nodup
  | .nil, _ => List.nodup_nil
  | .cons _ _ _, sound => List.nodup_cons.mpr ⟨sound.1, sound.2.2.nodup⟩

namespace Codec.Documented

variable {codec : Codec} (documented : codec.Documented)

include documented

/-- A record is written as an object with the declared names. -/
theorem write_record : ∀ (fields : Fields) (values : fields.Values),
    ∃ members, codec.write (.record fields) values = .object members ∧
      members.map Prod.fst = fields.names
  | .nil, () => ⟨[], documented.write_nil, rfl⟩
  | .cons name shape rest, (value, more) => by
    obtain ⟨members, written, names⟩ := write_record rest more
    exact ⟨_, documented.write_cons name shape rest value more members written,
      congrArg (name :: ·) names⟩

/-- The first of the members that a record is written to is its first field. -/
theorem write_cons_eq_object {name : String} {shape : Shape} {rest : Fields} {value : shape.Value}
    {more : rest.Values} {members : List (String × Document)}
    (written : codec.write (.record (.cons name shape rest)) (value, more) = .object members) :
    ∃ others, codec.write (.record rest) more = .object others ∧
      members = (name, codec.write shape value) :: others := by
  obtain ⟨others, behind, -⟩ := documented.write_record rest more
  rw [documented.write_cons name shape rest value more others behind] at written
  exact ⟨others, behind, (Document.object.inj written).symm⟩

/-- Only none is written as null. -/
theorem write_ne_null (shape : Shape) (value : shape.Value) (present : shape.absent = none) :
    codec.write shape value ≠ .null := by
  cases shape with
  | truth => simp [documented.write_truth value]
  | byte => simp [documented.write_byte value]
  | word => simp [documented.write_word value]
  | count => simp [documented.write_count value]
  | choice names => simp [documented.write_choice names value]
  | optional shape => cases present
  | record fields =>
    obtain ⟨members, written, -⟩ := documented.write_record fields value
    simp [written]

mutual

/-- Reading gives back what was written. -/
theorem read_write : ∀ (shape : Shape), shape.Sound → ∀ value : shape.Value,
    codec.read shape (codec.write shape value) = some value
  | .truth, _, value => (documented.read_truth _ value).mpr (documented.write_truth value)
  | .byte, _, value => (documented.read_byte _ value).mpr (documented.write_byte value)
  | .word, _, value => (documented.read_word _ value).mpr (documented.write_word value)
  | .count, _, value => by
    refine (documented.read_count _ value).mpr ⟨_, documented.write_count value, ?_⟩
    exact Tacts.ofText?_eq_some_iff.mp (Tacts.ofText?_text value)
  | .choice names, _, variant => by
    have written := documented.write_choice names variant
    exact (documented.read_choice names (written ▸ .text _) variant).mpr (.inl written)
  | .optional shape, _, none =>
    (congrArg _ (documented.write_none shape)).trans (documented.read_null shape)
  | .optional shape, sound, some value => by
    rw [documented.write_some,
      documented.read_optional _ _ (documented.write_ne_null shape value sound.1),
      read_write shape sound.2 value]
    rfl
  | .record fields, sound, values => by
    obtain ⟨members, written, names⟩ := documented.write_record fields values
    rw [written]
    exact read_write_object fields sound values members written names

/-- A record is read back from the object that it was written to. -/
theorem read_write_object : ∀ (fields : Fields), fields.Sound → ∀ (values : fields.Values)
    (members : List (String × Document)), codec.write (.record fields) values = .object members →
      members.map Prod.fst = fields.names →
      codec.read (.record fields) (.object members) = some values
  | .nil, _, (), members, _, names =>
    documented.read_object_nil (names ▸ List.nodup_nil)
  | .cons name shape rest, sound, (value, more), members, written, names => by
    have distinct : (members.map Prod.fst).Nodup := names ▸ sound.nodup
    obtain ⟨others, behind, rfl⟩ := documented.write_cons_eq_object written
    have otherNames : others.map Prod.fst = rest.names := (List.cons.inj names).2
    have unasked : ∀ each ∈ rest.names,
        ((name, codec.write shape value) :: others).lookup each = others.lookup each := by
      intro each known
      rw [List.lookup_cons, beq_false_of_ne (ne_of_mem_of_not_mem known sound.1)]
    refine (documented.read_object_cons_eq_some_iff distinct).mpr ⟨?_, ?_⟩
    · rw [List.lookup_cons_self]
      exact read_write shape sound.2.1 value
    · rw [documented.read_object_congr distinct (otherNames ▸ sound.2.2.nodup) rest unasked]
      exact read_write_object rest sound.2.2 more others behind otherNames

end

mutual

/-- No object that is written has two members of one name. -/
theorem write_distinct : ∀ (shape : Shape), shape.Sound → ∀ value : shape.Value,
    (codec.write shape value).Distinct
  | .truth, _, value => documented.write_truth value ▸ .bool value
  | .byte, _, value => documented.write_byte value ▸ .integer _
  | .word, _, value => documented.write_word value ▸ .integer _
  | .count, _, value => documented.write_count value ▸ .text _
  | .choice names, _, variant => documented.write_choice names variant ▸ .text _
  | .optional shape, _, none => documented.write_none shape ▸ .null
  | .optional shape, sound, some value =>
    documented.write_some shape value ▸ write_distinct shape sound.2 value
  | .record fields, sound, values => by
    obtain ⟨members, written, names⟩ := documented.write_record fields values
    rw [written]
    exact .object (names ▸ Fields.Sound.nodup sound)
      (write_distinct_members fields sound values members written)

theorem write_distinct_members : ∀ (fields : Fields), fields.Sound → ∀ (values : fields.Values)
    (members : List (String × Document)), codec.write (.record fields) values = .object members →
      ∀ member ∈ members, member.2.Distinct
  | .nil, _, (), members, written => by
    cases documented.write_nil.symm.trans written
    exact List.forall_mem_nil _
  | .cons name shape rest, sound, (value, more), members, written => by
    obtain ⟨others, behind, rfl⟩ := documented.write_cons_eq_object written
    exact List.forall_mem_cons.mpr ⟨write_distinct shape sound.2.1 value,
      write_distinct_members rest sound.2.2 more others behind⟩

end

end Codec.Documented

/-! ### What can be read -/

mutual

/-- The document stands for a value of the shape. -/
def Shape.Admits : Shape → Document → Prop
  | .truth, document => ∃ value, document = .bool value
  | .byte, document => ∃ value : Int, document = .integer value ∧ 0 ≤ value ∧ value < 2 ^ 8
  | .word, document => ∃ value : Int, document = .integer value ∧ 0 ≤ value ∧ value < 2 ^ 16
  | .count, document => ∃ text value, document = .text text ∧
      Text.Decimal.IsNumeral text value ∧ value < 2 ^ 64
  | .choice names, document => ∃ name ∈ names,
      document = .text name ∨ document = .object [(name, .null)]
  | .optional shape, document => document = .null ∨ shape.Admits document
  | .record fields, document =>
      (∃ members, document = .object members ∧ fields.Named members) ∨
        ∃ items, document = .list items ∧ fields.InOrder items

/-- Each of the fields has a member of its name that stands for a value of its shape, or its value
may be none and the member is missing. -/
def Fields.Named : Fields → List (String × Document) → Prop
  | .nil, _ => True
  | .cons name shape rest, members =>
      ((∃ document, (name, document) ∈ members ∧ shape.Admits document) ∨
        shape.absent.isSome = true ∧ ∀ document, (name, document) ∉ members) ∧
      rest.Named members

/-- The items are as many as the fields, and they stand for values of their shapes in this order. -/
def Fields.InOrder : Fields → List Document → Prop
  | .nil, items => items = []
  | .cons _ shape rest, items =>
      ∃ item more, items = item :: more ∧ shape.Admits item ∧ rest.InOrder more

end

/-- The numbers that bits stand for. -/
theorem Document.exists_bits_iff (width : Nat) (document : Document) :
    (∃ bits : BitVec width, document = .integer bits.toNat) ↔
      ∃ value : Int, document = .integer value ∧ 0 ≤ value ∧ value < 2 ^ width := by
  constructor
  · rintro ⟨bits, rfl⟩
    exact ⟨_, rfl, Int.natCast_nonneg _, by exact_mod_cast bits.isLt⟩
  · rintro ⟨value, rfl, low, high⟩
    obtain ⟨number, rfl⟩ := Int.eq_ofNat_of_zero_le low
    have bound : number < 2 ^ width := by exact_mod_cast high
    exact ⟨.ofNat width number, by simp [Nat.mod_eq_of_lt bound]⟩

/-- The texts that counts are read from. -/
theorem Document.exists_count_iff (document : Document) :
    (∃ count : Tacts, ∃ text, document = .text text ∧
        Text.Decimal.IsNumeral text count.toNat) ↔
      ∃ text value, document = .text text ∧
        Text.Decimal.IsNumeral text value ∧ value < 2 ^ 64 := by
  constructor
  · rintro ⟨count, text, rfl, numeral⟩
    exact ⟨text, _, rfl, numeral, count.isLt⟩
  · rintro ⟨text, value, rfl, numeral, bound⟩
    refine ⟨.ofNat 64 value, text, rfl, ?_⟩
    rwa [BitVec.toNat_ofNat, Nat.mod_eq_of_lt bound]

namespace Codec.Documented

variable {codec : Codec} (documented : codec.Documented)

/-- A field can be read if a member of its name can be, or if it may be missing and is. -/
theorem isSome_member {members : List (String × Document)} {name : String} {shape : Shape}
    (distinct : (members.map Prod.fst).Nodup)
    (told : ∀ document, (name, document) ∈ members →
      ((codec.read shape document).isSome = true ↔ shape.Admits document)) :
    (codec.member shape (members.lookup name)).isSome = true ↔
      (∃ document, (name, document) ∈ members ∧ shape.Admits document) ∨
        shape.absent.isSome = true ∧ ∀ document, (name, document) ∉ members := by
  have listed (document : Document) :
      members.lookup name = some document ↔ (name, document) ∈ members :=
    lookup_eq_some_iff_mem distinct
  cases found : members.lookup name with
  | some document =>
    have member := (listed document).mp found
    have only (other : Document) (here : (name, other) ∈ members) : other = document :=
      Option.some.inj (((listed other).mpr here).symm.trans found)
    rw [Codec.member, told document member]
    constructor
    · exact fun admits => .inl ⟨document, member, admits⟩
    · rintro (⟨other, here, admits⟩ | ⟨-, missing⟩)
      · exact only other here ▸ admits
      · exact absurd member (missing document)
  | none =>
    have missing (document : Document) : (name, document) ∉ members := fun here => by
      cases found.symm.trans ((listed document).mpr here)
    rw [Codec.member]
    constructor
    · exact fun may => .inr ⟨may, missing⟩
    · rintro (⟨document, here, -⟩ | ⟨may, -⟩)
      · exact absurd here (missing document)
      · exact may

include documented

/-- No record is read from a document that is neither an object nor a list. -/
theorem isSome_read_scalar (fields : Fields) {document : Document}
    (scalar : (∀ members, document ≠ .object members) ∧ ∀ items, document ≠ .list items) :
    (codec.read (.record fields) document).isSome = true ↔
      (Shape.record fields).Admits document := by
  rw [documented.read_scalar fields document scalar]
  refine iff_of_false (by simp) ?_
  rintro (⟨members, same, -⟩ | ⟨items, same, -⟩)
  · exact scalar.1 members same
  · exact scalar.2 items same

mutual

/-- A document can be read as a shape exactly if the shape admits it. -/
theorem isSome_read : ∀ (shape : Shape) (document : Document), document.Distinct →
    ((codec.read shape document).isSome = true ↔ shape.Admits document)
  | .truth, document, _ => isSome_iff_exists_of (documented.read_truth document)
  | .byte, document, _ =>
    (isSome_iff_exists_of (documented.read_byte document)).trans (document.exists_bits_iff 8)
  | .word, document, _ =>
    (isSome_iff_exists_of (documented.read_word document)).trans (document.exists_bits_iff 16)
  | .count, document, _ =>
    (isSome_iff_exists_of (documented.read_count document)).trans document.exists_count_iff
  | .choice names, document, distinct =>
    (isSome_iff_exists_of (documented.read_choice names distinct)).trans <| by
      simp only [Subtype.exists, Shape.Admits, exists_prop]
  | .optional shape, document, distinct => by
    by_cases present : document = .null
    · rw [present, documented.read_null]
      exact iff_of_true rfl (.inl rfl)
    · rw [documented.read_optional shape document present]
      refine (isSome_map_some _).trans ?_
      rw [isSome_read shape document distinct]
      simp [present, Shape.Admits]
  | .record fields, .object members, distinct => by
    rw [isSome_read_object fields members distinct]
    simp [Shape.Admits]
  | .record fields, .list items, .list each => by
    rw [isSome_read_list fields items each]
    simp [Shape.Admits]
  | .record fields, .null, _ | .record fields, .bool _, _ | .record fields, .integer _, _
  | .record fields, .fraction, _ | .record fields, .text _, _ =>
    documented.isSome_read_scalar fields ⟨fun _ => nofun, fun _ => nofun⟩

theorem isSome_read_object : ∀ (fields : Fields) (members : List (String × Document)),
    (Document.object members).Distinct →
      ((codec.read (.record fields) (.object members)).isSome = true ↔ fields.Named members)
  | .nil, members, .object distinct _ => by
    rw [documented.read_object_nil distinct]
    exact iff_of_true rfl trivial
  | .cons name shape rest, members, .object distinct each => by
    rw [documented.read_object_cons distinct]
    refine (isSome_pair _ _).trans ?_
    rw [Fields.Named, isSome_read_object rest members (.object distinct each),
      isSome_member distinct fun document member =>
        isSome_read shape document (each (name, document) member)]

theorem isSome_read_list : ∀ (fields : Fields) (items : List Document),
    (∀ item ∈ items, item.Distinct) →
      ((codec.read (.record fields) (.list items)).isSome = true ↔ fields.InOrder items)
  | .nil, [], _ => by
    rw [documented.read_list_nil]
    exact iff_of_true rfl rfl
  | .nil, item :: items, _ => by
    rw [documented.read_list_more]
    simp [Fields.InOrder]
  | .cons name shape rest, [], _ => by
    rw [documented.read_list_fewer]
    simp [Fields.InOrder]
  | .cons name shape rest, item :: items, each => by
    obtain ⟨here, there⟩ := List.forall_mem_cons.mp each
    rw [documented.read_list_cons]
    refine (isSome_pair _ _).trans ?_
    rw [isSome_read shape item here, isSome_read_list rest items there]
    simp [Fields.InOrder]

end

end Codec.Documented

end Z80
