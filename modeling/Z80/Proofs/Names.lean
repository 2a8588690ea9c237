import Mathlib.Data.List.Nodup
import Z80.Registers.Names

/-!
# Names of registers

A table of names is read by looking a name up, and as long as no name stands in it twice, what is
found is what is listed. The registers are named in either letter case: a text names a register if
it spells one of its names, letter for letter, and only the case of the letters A to Z is ignored.
No text names a byte register and a word register, and a text that names none is reported as it was
given.

## Main definitions

* `SameLetters`, `Spells`: texts that differ in the case of their letters only
* `NameTable`, `readName`: a table that lists each name once, and how a text is read by it
* `ByteRegister.spellings`, `WordRegister.spellings`: the names of the registers

## Main results

* `lookup_eq_some_iff_mem`: looking up in a table of distinct names
* `sameLetters_iff`: texts agree but for their letter case if they agree in lower case
* `ByteRegister.parse_eq_ok_iff`, `WordRegister.parse_eq_ok_iff`: what a text is read as
* `not_spells_both`: no text names a byte register and a word register
-/

namespace Z80

/-! ### Tables -/

section Tables

variable {α β : Type} [BEq α] [LawfulBEq α] {entries : List (α × β)} {key : α} {value : β}

/-- What is found under a key is listed with that key. -/
theorem mem_of_lookup (found : entries.lookup key = some value) : (key, value) ∈ entries := by
  obtain ⟨before, after, whole, -⟩ := List.lookup_eq_some_iff.mp found
  exact whole ▸ List.mem_append_right before List.mem_cons_self

/-- Among entries with different keys, the one that is found is the one that is listed. -/
theorem lookup_eq_some_iff_mem (distinct : (entries.map Prod.fst).Nodup) :
    entries.lookup key = some value ↔ (key, value) ∈ entries := by
  refine ⟨mem_of_lookup, fun member => ?_⟩
  have present : (entries.lookup key).isSome = true :=
    List.lookup_isSome_iff.mpr ⟨_, member, beq_self_eq_true key⟩
  obtain ⟨found, lookup⟩ := Option.isSome_iff_exists.mp present
  -- The one that is found has the same key, so it is the same entry.
  have once := List.inj_on_of_nodup_map distinct (mem_of_lookup lookup) member rfl
  rw [lookup, (Prod.mk.inj once).2]

theorem lookup_eq_none_of_notMem (unlisted : key ∉ entries.map Prod.fst) :
    entries.lookup key = none := by
  rw [List.lookup_eq_none_iff]
  intro entry member
  exact bne_iff_ne.mpr fun same => unlisted (same ▸ List.mem_map_of_mem member)

end Tables

/-! ### Letter case -/

/-- The characters are the same, or the same letter from A to Z in either case. -/
def SameLetter (char other : Char) : Prop :=
  char = other ∨ ∃ place < 26,
    char.toNat = 65 + place ∧ other.toNat = 97 + place ∨
      char.toNat = 97 + place ∧ other.toNat = 65 + place

/-- The texts have the same letters, in either case. -/
def SameLetters (text other : String) : Prop :=
  List.Forall₂ SameLetter text.toList other.toList

theorem toNat_toLower (char : Char) :
    char.toLower.toNat =
      if 65 ≤ char.toNat ∧ char.toNat ≤ 90 then char.toNat + 32 else char.toNat := by
  have upper : (char.val ≥ 'A'.val ∧ char.val ≤ 'Z'.val) ↔
      65 ≤ char.toNat ∧ char.toNat ≤ 90 := Iff.rfl
  delta Char.toLower
  by_cases inside : 65 ≤ char.toNat ∧ char.toNat ≤ 90
  · rw [if_pos inside, dif_pos (upper.mpr inside), Char.toNat, UInt32.toNat_add]
    change (char.toNat + 32) % _ = _
    omega
  · rw [if_neg inside, dif_neg (mt upper.mp inside)]

theorem sameLetter_iff {char other : Char} :
    SameLetter char other ↔ char.toLower = other.toLower := by
  rw [← Char.toNat_inj, toNat_toLower, toNat_toLower, SameLetter, ← Char.toNat_inj]
  constructor
  · rintro (same | ⟨place, bound, upper | lower⟩)
    · rw [same]
    · split <;> split <;> omega
    · split <;> split <;> omega
  · intro same
    split at same <;> split at same
    · exact .inl (by omega)
    · exact .inr ⟨char.toNat - 65, by omega, .inl (by omega)⟩
    · exact .inr ⟨other.toNat - 65, by omega, .inr (by omega)⟩
    · exact .inl same

/-- Texts have the same letters if they are the same in lower case. -/
theorem sameLetters_iff {text other : String} :
    SameLetters text other ↔ lowered text = lowered other := by
  have letters : SameLetters text other ↔
      List.Forall₂ (fun char letter => char.toLower = letter.toLower) text.toList other.toList :=
    iff_of_eq (congrArg (List.Forall₂ · _ _) (by funext char letter; exact propext sameLetter_iff))
  rw [letters, lowered, lowered, String.ofList_inj, ← List.forall₂_eq_eq_eq,
    List.forall₂_map_left_iff, List.forall₂_map_right_iff]

/-! ### Names in either case -/

/-- The text is one of the names, in either letter case. -/
def Spells (text : String) (names : List String) : Prop := ∃ name ∈ names, SameLetters text name

/-- A table lists what has names under each of its names once, in lower case. -/
structure NameTable {ρ : Type} [DecidableEq ρ] (table : List (String × ρ))
    (spellings : ρ → List String) : Prop where
  distinct : (table.map Prod.fst).Nodup
  listed : ∀ named,
    (table.filter (·.2 = named)).map Prod.fst = (spellings named).map lowered

/-- What a text names by a table, or the text as one that names nothing. -/
def readName {ρ : Type} (table : List (String × ρ)) (text : String) : Except UnknownRegister ρ :=
  match table.lookup (lowered text) with
  | some named => .ok named
  | none => .error ⟨text⟩

namespace NameTable

variable {ρ : Type} [DecidableEq ρ] {table : List (String × ρ)} {spellings : ρ → List String}
  {text : String} {named : ρ}

theorem mem_iff (lists : NameTable table spellings) :
    (lowered text, named) ∈ table ↔ Spells text (spellings named) := by
  have entry (name : String) :
      (name, named) ∈ table ↔ name ∈ (table.filter (·.2 = named)).map Prod.fst := by simp
  rw [entry, lists.listed, List.mem_map, Spells]
  exact exists_congr fun name => and_congr_right fun _ => eq_comm.trans sameLetters_iff.symm

theorem readName_eq_ok_iff (lists : NameTable table spellings) :
    readName table text = .ok named ↔ Spells text (spellings named) := by
  rw [← lists.mem_iff, ← lookup_eq_some_iff_mem lists.distinct, readName]
  cases table.lookup (lowered text) <;> simp

/-- Something is named by a text that spells one of all the names. -/
theorem exists_readName_iff (lists : NameTable table spellings) {all : List String}
    (complete : table.map Prod.fst = all.map lowered) :
    (∃ named, readName table text = .ok named) ↔ Spells text all := by
  have spelled : Spells text all ↔ lowered text ∈ all.map lowered := by
    rw [List.mem_map]
    exact exists_congr fun name => and_congr_right fun _ => sameLetters_iff.trans eq_comm
  rw [spelled, ← complete, List.mem_map]
  constructor
  · rintro ⟨named, read⟩
    exact ⟨_, lists.mem_iff.mpr (lists.readName_eq_ok_iff.mp read), rfl⟩
  · rintro ⟨⟨name, named⟩, listed, rfl⟩
    exact ⟨named, lists.readName_eq_ok_iff.mpr (lists.mem_iff.mp listed)⟩

/-- A text that names nothing is reported as it was given. -/
theorem readName_eq_error_iff (lists : NameTable table spellings) {all : List String}
    (complete : table.map Prod.fst = all.map lowered) {error : UnknownRegister} :
    readName table text = .error error ↔ error.name = text ∧ ¬ Spells text all := by
  rw [← lists.exists_readName_iff complete, readName]
  cases table.lookup (lowered text) with
  | some named => simp
  | none =>
    obtain ⟨name⟩ := error
    simp [eq_comm]

end NameTable

/-! ### Registers -/

namespace ByteRegister

/-- The short name of a half of an index register. -/
def shortName? : ByteRegister → Option String
  | .ixh => some "XH"
  | .ixl => some "XL"
  | .iyh => some "YH"
  | .iyl => some "YL"
  | _ => none

/-- The names of a byte register. -/
def spellings (register : ByteRegister) : List String :=
  register.display :: register.shortName?.toList

theorem nameTable : NameTable names spellings where
  distinct := by decide
  listed register := by cases register <;> rfl

variable {text : String} {register : ByteRegister}

theorem parse_eq_readName (text : String) : parse text = readName names text := by
  rw [parse, readName]
  cases names.lookup (lowered text) <;> rfl

theorem parse_eq_ok_iff : parse text = .ok register ↔ Spells text register.spellings := by
  rw [parse_eq_readName, nameTable.readName_eq_ok_iff]

/-- All names of byte registers. -/
def allSpellings : List String :=
  ["A", "F", "B", "C", "D", "E", "H", "L", "IXH", "XH", "IXL", "XL", "IYH", "YH", "IYL", "YL",
    "I", "R"]

theorem exists_parse_iff : (∃ register, parse text = .ok register) ↔ Spells text allSpellings := by
  simp only [parse_eq_readName, nameTable.exists_readName_iff (rfl : _ = allSpellings.map lowered)]

theorem parse_eq_error_iff {error : UnknownRegister} :
    parse text = .error error ↔ error.name = text ∧ ¬ Spells text allSpellings := by
  rw [parse_eq_readName, nameTable.readName_eq_error_iff (rfl : _ = allSpellings.map lowered)]

/-- What is displayed of a register names it. -/
theorem parse_display (register : ByteRegister) : parse register.display = .ok register :=
  parse_eq_ok_iff.mpr ⟨register.display, List.mem_cons_self, sameLetters_iff.mpr rfl⟩

end ByteRegister

namespace WordRegister

/-- The names of a word register. -/
def spellings : WordRegister → List String
  | .af => ["AF"]
  | .bc => ["BC"]
  | .de => ["DE"]
  | .hl => ["HL"]
  | .ix => ["IX"]
  | .iy => ["IY"]
  | .sp => ["SP"]
  | .pc => ["PC"]
  | .wz => ["WZ", "MEMPTR"]

theorem nameTable : NameTable names spellings where
  distinct := by decide
  listed register := by cases register <;> rfl

variable {text : String} {register : WordRegister}

theorem parse_eq_readName (text : String) : parse text = readName names text := by
  rw [parse, readName]
  cases names.lookup (lowered text) <;> rfl

theorem parse_eq_ok_iff : parse text = .ok register ↔ Spells text register.spellings := by
  rw [parse_eq_readName, nameTable.readName_eq_ok_iff]

/-- All names of word registers. -/
def allSpellings : List String :=
  ["AF", "BC", "DE", "HL", "IX", "IY", "SP", "PC", "WZ", "MEMPTR"]

theorem exists_parse_iff : (∃ register, parse text = .ok register) ↔ Spells text allSpellings := by
  simp only [parse_eq_readName, nameTable.exists_readName_iff (rfl : _ = allSpellings.map lowered)]

theorem parse_eq_error_iff {error : UnknownRegister} :
    parse text = .error error ↔ error.name = text ∧ ¬ Spells text allSpellings := by
  rw [parse_eq_readName, nameTable.readName_eq_error_iff (rfl : _ = allSpellings.map lowered)]

end WordRegister

/-- No text names a byte register and a word register. -/
theorem ByteRegister.not_spells_word {text : String} {byte : ByteRegister} {word : WordRegister}
    (spells : Spells text byte.spellings) : ¬ Spells text word.spellings := by
  intro also
  have apart : ∀ entry ∈ ByteRegister.names, entry.1 ∉ WordRegister.names.map Prod.fst := by decide
  exact apart _ (nameTable.mem_iff.mpr spells)
    (List.mem_map_of_mem (WordRegister.nameTable.mem_iff.mpr also))

theorem not_spells_both (text : String) :
    ¬ (Spells text ByteRegister.allSpellings ∧ Spells text WordRegister.allSpellings) := by
  rintro ⟨spells, also⟩
  obtain ⟨byte, named⟩ := ByteRegister.exists_parse_iff.mpr spells
  obtain ⟨word, alsoNamed⟩ := WordRegister.exists_parse_iff.mpr also
  exact ByteRegister.not_spells_word (ByteRegister.parse_eq_ok_iff.mp named)
    (WordRegister.parse_eq_ok_iff.mp alsoNamed)

end Z80
