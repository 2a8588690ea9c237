import Mathlib.Data.List.Basic
import Z80.Cpu.Display
import Z80.Proofs.RegisterViews

/-!
# What the state string tells

Fields are parted by commas, and a name ends with the first equals sign. As no name and no value of
a state string has a comma in it, the string gives back its fields, and each field gives back its
value. So two processors have the same state string when they hold the same registers, apart from
WZ, and last saw the same opcodes; and the part of the string before the field M1 tells the
registers alone.

## Main definitions

* `PlainField`: a name and a value that can be told apart in a line of fields

## Main results

* `fieldsText_injective`: a line of fields gives back its fields
* `before_of_fieldsText`: what stands in a line before a named field
* `Cpu.stateText_sameState`: when two state strings agree, as a whole and up to M1
-/

namespace Z80

/-! ### Lines of fields -/

/-- The name ends with the first equals sign, and the field with the first comma. -/
structure PlainField (field : String × String) : Prop where
  equals : '=' ∉ field.1.toList
  name : ',' ∉ field.1.toList
  value : ',' ∉ field.2.toList

section Fields

variable {field other : String × String} {fields others : List (String × String)}

/-- The characters of a field. -/
def fieldChars (field : String × String) : List Char := field.1.toList ++ '=' :: field.2.toList

theorem toList_fieldText (field : String × String) :
    (fieldText field).toList = fieldChars field := by
  simp [fieldText, fieldChars]

theorem toList_fieldsText (fields : List (String × String)) :
    (fieldsText fields).toList = [','].intercalate (fields.map fieldChars) := by
  simp [fieldsText, String.toList_intercalate, Function.comp_def, toList_fieldText]

theorem PlainField.comma_notMem (plain : PlainField field) : ',' ∉ fieldChars field := by
  simp [fieldChars, plain.name, plain.value]

theorem splitOn_append_cons {mark : Char} {chars : List Char} (free : mark ∉ chars)
    (rest : List Char) :
    (chars ++ mark :: rest).splitOn mark = chars :: rest.splitOn mark := by
  refine List.splitOnP_append_cons_of_forall_mem (p := (· == mark)) (fun char member => ?_) mark
    (beq_self_eq_true mark) rest
  exact beq_eq_false_iff_ne.mpr fun equal => free (equal ▸ member)

/-- A text that goes on after an equals sign gives back the name before it. -/
theorem name_unique {name otherName rest otherRest : List Char} (plain : '=' ∉ name)
    (otherPlain : '=' ∉ otherName) (same : name ++ '=' :: rest = otherName ++ '=' :: otherRest) :
    name = otherName := by
  have parts := congrArg (List.splitOn '=') same
  rw [splitOn_append_cons plain, splitOn_append_cons otherPlain] at parts
  exact (List.cons.inj parts).1

theorem fieldChars_injective (plain : PlainField field) (otherPlain : PlainField other)
    (same : fieldChars field = fieldChars other) : field = other := by
  have name := name_unique plain.equals otherPlain.equals same
  rw [fieldChars, fieldChars, name, List.append_cancel_left_eq, List.cons.injEq] at same
  exact Prod.ext (String.toList_inj.mp name) (String.toList_inj.mp same.2)

theorem splitOn_fieldsText (plain : ∀ field ∈ fields, PlainField field) (nonempty : fields ≠ []) :
    (fieldsText fields).toList.splitOn ',' = fields.map fieldChars := by
  rw [toList_fieldsText, List.splitOn_intercalate]
  · intro chars member
    obtain ⟨field, listed, rfl⟩ := List.mem_map.mp member
    exact (plain field listed).comma_notMem
  · simpa using nonempty

/-- A line of fields gives back its fields. -/
theorem fieldsText_injective (plain : ∀ field ∈ fields, PlainField field)
    (otherPlain : ∀ field ∈ others, PlainField field) (nonempty : fields ≠ [])
    (otherNonempty : others ≠ []) (same : fieldsText fields = fieldsText others) :
    fields = others := by
  have parts := congrArg (fun text => text.toList.splitOn ',') same
  simp only [splitOn_fieldsText plain nonempty,
    splitOn_fieldsText otherPlain otherNonempty] at parts
  clear same nonempty otherNonempty
  -- Field by field, as the pieces between commas are the fields' characters.
  induction fields generalizing others with
  | nil => exact (List.map_eq_nil_iff.mp parts.symm).symm
  | cons field fields ih =>
    cases others with
    | nil => cases parts
    | cons other others =>
      obtain ⟨first, rest⟩ := List.cons.inj parts
      rw [List.forall_mem_cons] at plain otherPlain
      rw [fieldChars_injective plain.1 otherPlain.1 first, ih plain.2 otherPlain.2 rest]

/-- A text that starts with a name and an equals sign has a field of that name first. -/
theorem exists_splitOn_named {name : List Char} (plain : ',' ∉ name) (rest : List Char) :
    ∃ value more, (name ++ '=' :: rest).splitOn ',' = (name ++ '=' :: value) :: more := by
  -- The first piece ends with the first comma after the equals sign, or with the text.
  by_cases parted : ',' ∈ rest
  · obtain ⟨value, more, rfl, free⟩ := List.eq_append_cons_of_mem parted
    have whole : ',' ∉ name ++ '=' :: value := by simp [plain, free]
    refine ⟨value, more.splitOn ',', ?_⟩
    rw [← splitOn_append_cons whole, List.append_assoc, List.cons_append]
  · refine ⟨rest, [], List.splitOn_eq_singleton ?_⟩
    simp [plain, parted]

theorem fieldsText_append (nonempty : fields ≠ []) (otherNonempty : others ≠ []) :
    fieldsText (fields ++ others) = fieldsText fields ++ "," ++ fieldsText others := by
  rw [fieldsText, List.map_append, String.intercalate_append_of_ne_nil (by simpa using nonempty)
    (by simpa using otherNonempty)]
  rfl

/-- What stands before a named field is the fields before it. -/
theorem before_of_fieldsText {before after : List (String × String)} {name value : String}
    {shared rest : String}
    (plain : ∀ field ∈ before ++ (name, value) :: after, PlainField field)
    (elsewhere : ∀ field ∈ before ++ after, field.1 ≠ name)
    (split : fieldsText (before ++ (name, value) :: after) =
      shared ++ ("," ++ name ++ "=") ++ rest) : shared = fieldsText before := by
  have own : PlainField (name, value) := plain _ (by simp)
  have line : (shared ++ ("," ++ name ++ "=") ++ rest).toList =
      shared.toList ++ ',' :: (name.toList ++ '=' :: rest.toList) := by simp
  have cut : (shared.toList ++ ',' :: (name.toList ++ '=' :: rest.toList)).splitOn ',' =
      shared.toList.splitOn ',' ++ (name.toList ++ '=' :: rest.toList).splitOn ',' :=
    List.splitOnP_append_cons (p := (· == ',')) _ _ rfl
  obtain ⟨shown, more, first⟩ := exists_splitOn_named own.name rest.toList
  have parts := splitOn_fieldsText plain (by simp)
  rw [split, line, cut, first, List.map_append, List.map_cons] at parts
  -- No other field has the name, so the cut is at this one.
  have apart {others : List (String × String)} (plain : ∀ field ∈ others, PlainField field)
      (elsewhere : ∀ field ∈ others, field.1 ≠ name) :
      name.toList ++ '=' :: shown ∉ others.map fieldChars := by
    rintro member
    obtain ⟨field, listed, same⟩ := List.mem_map.mp member
    exact elsewhere field listed
      (String.toList_inj.mp (name_unique (plain field listed).equals own.equals same))
  simp only [List.forall_mem_append, List.forall_mem_cons] at plain elsewhere
  obtain ⟨early, _, _⟩ := (List.append_cons_inj_of_notMem (apart plain.1 elsewhere.1)
    (apart plain.2.2 elsewhere.2)).mp parts.symm
  rw [← String.toList_inj, toList_fieldsText, early, List.intercalate_splitOn]

end Fields

/-! ### Values -/

namespace Text.Hex

theorem digit_ne_comma {value : Nat} (bound : value < 16) : digit value ≠ ',' := by
  intro comma
  have read := digit?_digit bound
  rw [comma] at read
  cases read

theorem comma_notMem_byteDigits (byte : Byte) : ',' ∉ byteDigits byte := by
  have bound := byte.isLt
  simp [byteDigits, (digit_ne_comma (show byte.toNat / 16 < 16 by omega)).symm,
    (digit_ne_comma (show byte.toNat % 16 < 16 by omega)).symm]

theorem comma_notMem_ofByte (byte : Byte) : ',' ∉ (ofByte byte).toList := by
  rw [ofByte, String.toList_ofList]
  exact comma_notMem_byteDigits byte

theorem comma_notMem_ofWord (word : Word) : ',' ∉ (ofWord word).toList := by
  rw [ofWord, String.toList_ofList, wordDigits, List.mem_append, not_or]
  exact ⟨comma_notMem_byteDigits _, comma_notMem_byteDigits _⟩

theorem ofByte_inj {byte other : Byte} : ofByte byte = ofByte other ↔ byte = other := by
  refine ⟨fun same => ?_, congrArg ofByte⟩
  rw [ofByte, ofByte, String.ofList_inj] at same
  exact byteDigits_injective same

theorem ofWord_inj {word other : Word} : ofWord word = ofWord other ↔ word = other := by
  refine ⟨fun same => ?_, congrArg ofWord⟩
  rw [ofWord, ofWord, String.ofList_inj, wordDigits, wordDigits] at same
  obtain ⟨upper, lower⟩ := List.append_inj same rfl
  exact Word.ext_bytes (byteDigits_injective upper) (byteDigits_injective lower)

end Text.Hex

theorem comma_notMem_truthText (value : Bool) : ',' ∉ (truthText value).toList := by
  cases value <;> decide

theorem truthText_inj {value other : Bool} : truthText value = truthText other ↔ value = other := by
  revert value other
  decide

namespace InterruptMode

theorem comma_notMem_number (mode : InterruptMode) :
    ',' ∉ (Text.Decimal.write mode.number.toNat).toList := by
  cases mode <;> decide

theorem write_number_inj {mode other : InterruptMode} :
    Text.Decimal.write mode.number.toNat = Text.Decimal.write other.number.toNat ↔
      mode = other := by
  cases mode <;> cases other <;> decide

end InterruptMode

theorem Word.ofBytes_inj {upper lower otherUpper otherLower : Byte} :
    ofBytes upper lower = ofBytes otherUpper otherLower ↔
      upper = otherUpper ∧ lower = otherLower := by
  refine ⟨fun same => ?_, fun ⟨high, low⟩ => by rw [high, low]⟩
  have high := congrArg Word.high same
  have low := congrArg Word.low same
  rw [high_ofBytes, high_ofBytes] at high
  rw [low_ofBytes, low_ofBytes] at low
  exact ⟨high, low⟩

/-- The pair AF holds the accumulator and all flags. -/
theorem Accumulator.af_inj {regs other : Accumulator} : regs.af = other.af ↔ regs = other := by
  refine ⟨fun same => ?_, congrArg af⟩
  obtain ⟨a, f⟩ := Word.ofBytes_inj.mp same
  exact congrArg₂ mk a (Flags.toByte_injective f)

/-- The three pairs hold the six general registers. -/
theorem General.pairs_inj {regs other : General} :
    regs.bc = other.bc ∧ regs.de = other.de ∧ regs.hl = other.hl ↔ regs = other := by
  refine ⟨fun ⟨bc, de, hl⟩ => ?_, fun same => by simp [same]⟩
  obtain ⟨b, c⟩ := Word.ofBytes_inj.mp bc
  obtain ⟨d, e⟩ := Word.ofBytes_inj.mp de
  obtain ⟨h, l⟩ := Word.ofBytes_inj.mp hl
  exact General.ext_bytes b c d e h l

namespace Cpu

variable (cpu other : Cpu)

/-- The fields of the state string before M1. -/
def registerFields : List (String × String) := cpu.stateFields.take 17

/-- The other fields of the state string. -/
def opcodeFields : List (String × String) :=
  [("M1", Text.Hex.ofByte cpu.lastFetched), ("OP", Text.Hex.ofByte cpu.lastOpcode)]

theorem registerFields_ne_nil : cpu.registerFields ≠ [] := List.cons_ne_nil _ _

theorem stateFields_eq : cpu.stateFields = cpu.registerFields ++ cpu.opcodeFields := rfl

/-- Names and values of a state string can be told apart. -/
theorem plainField_stateFields : ∀ field ∈ cpu.stateFields, PlainField field := by
  have word {name : String} (plain : '=' ∉ name.toList ∧ ',' ∉ name.toList) (value : Word) :
      PlainField (name, Text.Hex.ofWord value) :=
    ⟨plain.1, plain.2, Text.Hex.comma_notMem_ofWord value⟩
  have byte {name : String} (plain : '=' ∉ name.toList ∧ ',' ∉ name.toList) (value : Byte) :
      PlainField (name, Text.Hex.ofByte value) :=
    ⟨plain.1, plain.2, Text.Hex.comma_notMem_ofByte value⟩
  have truth {name : String} (plain : '=' ∉ name.toList ∧ ',' ∉ name.toList) (value : Bool) :
      PlainField (name, truthText value) :=
    ⟨plain.1, plain.2, comma_notMem_truthText value⟩
  have mode : PlainField ("IM", Text.Decimal.write cpu.registers.im.number.toNat) :=
    ⟨show '=' ∉ "IM".toList by decide, show ',' ∉ "IM".toList by decide,
      cpu.registers.im.comma_notMem_number⟩
  simp only [stateFields, List.forall_mem_cons]
  refine ⟨word ?_ _, word ?_ _, word ?_ _, word ?_ _, word ?_ _, word ?_ _, word ?_ _, word ?_ _,
    word ?_ _, word ?_ _, word ?_ _, word ?_ _, byte ?_ _, byte ?_ _, mode, truth ?_ _, truth ?_ _,
    byte ?_ _, byte ?_ _, fun _ member => absurd member List.not_mem_nil⟩
  all_goals decide

/-- The fields before M1 hold all registers but WZ. -/
theorem registerFields_inj :
    cpu.registerFields = other.registerFields ↔ cpu.sameState other false = true := by
  simp only [registerFields, stateFields, sameState, List.take_succ_cons, List.take_zero,
    List.cons.injEq, Prod.mk.injEq, Text.Hex.ofWord_inj, Text.Hex.ofByte_inj, truthText_inj,
    InterruptMode.write_number_inj, true_and, and_true, Bool.not_false, Bool.true_or, Bool.and_true,
    beq_iff_eq, Registers.mk.injEq, Accumulator.af_inj, ← General.pairs_inj]
  tauto

/-- All fields hold the opcodes besides. -/
theorem stateFields_inj :
    cpu.stateFields = other.stateFields ↔ cpu.sameState other true = true := by
  -- The comparison with opcodes asks for them after all else.
  have opcodes : cpu.sameState other true =
      (cpu.sameState other false && cpu.lastFetched == other.lastFetched &&
        cpu.lastOpcode == other.lastOpcode) := by
    simp [sameState, Bool.and_assoc]
  have parts : cpu.stateFields = other.stateFields ↔
      cpu.registerFields = other.registerFields ∧ cpu.opcodeFields = other.opcodeFields :=
    ⟨fun same => List.append_inj same rfl, fun ⟨registers, opcodes⟩ => by
      rw [stateFields_eq, stateFields_eq, registers, opcodes]⟩
  rw [parts, registerFields_inj, opcodes]
  simp [opcodeFields, Text.Hex.ofByte_inj, and_assoc]

theorem stateText_eq :
    cpu.stateText = fieldsText cpu.registerFields ++ ",M1=" ++
      (Text.Hex.ofByte cpu.lastFetched ++ ",OP=" ++ Text.Hex.ofByte cpu.lastOpcode) := by
  have opcodes : cpu.opcodeFields ≠ [] := List.cons_ne_nil _ _
  rw [stateText, stateFields_eq, fieldsText_append cpu.registerFields_ne_nil opcodes,
    ← String.toList_inj]
  simp [toList_fieldsText, opcodeFields, fieldChars]

/-- What stands before M1 are the registers. -/
theorem before_of_stateText {cpu : Cpu} {shared rest : String}
    (split : cpu.stateText = shared ++ ",M1=" ++ rest) :
    shared = fieldsText cpu.registerFields := by
  have elsewhere : ∀ field ∈ cpu.registerFields ++ [("OP", Text.Hex.ofByte cpu.lastOpcode)],
      field.1 ≠ "M1" := by
    simp [registerFields, stateFields]
  exact before_of_fieldsText cpu.plainField_stateFields elsewhere split

/-- Two state strings are the same when the processors are in the same state, opcodes included; they
are the same up to the field M1 when the processors are in the same state, opcodes aside. -/
theorem stateText_sameState :
    (cpu.stateText = other.stateText ↔ cpu.sameState other true = true) ∧
      (cpu.sameState other false = true ↔
        ∃ shared rest otherRest, cpu.stateText = shared ++ ",M1=" ++ rest ∧
          other.stateText = shared ++ ",M1=" ++ otherRest) := by
  refine ⟨⟨fun same => ?_, fun same => ?_⟩, fun same => ?_, ?_⟩
  · exact (stateFields_inj cpu other).mp (fieldsText_injective cpu.plainField_stateFields
      other.plainField_stateFields (List.cons_ne_nil _ _) (List.cons_ne_nil _ _) same)
  · rw [stateText, stateText, (stateFields_inj cpu other).mpr same]
  · have registers := (registerFields_inj cpu other).mpr same
    exact ⟨_, _, _, cpu.stateText_eq, registers ▸ other.stateText_eq⟩
  · rintro ⟨shared, rest, otherRest, own, others⟩
    have plain (cpu : Cpu) : ∀ field ∈ cpu.registerFields, PlainField field :=
      fun field member => cpu.plainField_stateFields field (List.mem_of_mem_take member)
    refine (registerFields_inj cpu other).mp (fieldsText_injective (plain cpu) (plain other)
      cpu.registerFields_ne_nil other.registerFields_ne_nil ?_)
    rw [← before_of_stateText own, ← before_of_stateText others]

end Cpu

end Z80
