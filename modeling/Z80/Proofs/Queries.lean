import Mathlib.Data.String.Basic
import Z80.Cpu.Query
import Z80.Proofs.Names

/-!
# Which paths are answered

A path is the name of a latch or a count, the word for the flags with the letter of one, or the
name of a register, which an apostrophe turns to the alternate bank. These forms do not meet: the
names of latches are no names of registers, and no name holds a dot or an apostrophe. So the order
in which a query tries them does not matter, and each path is answered by what it names.

## Main definitions

* `Cpu.Answers`: what a path is to be answered by
* `Cpu.IsPath`: the paths that are answered

## Main results

* `Cpu.query_eq_some_iff`: a query gives the answer that the path is to have, and no other path has
  one
* `Cpu.names_and_queries`: what names and paths stand for
-/

namespace Z80

/-! ### Plain names -/

/-- A name of ASCII characters without a dot and an apostrophe. -/
def PlainName (text : String) : Prop :=
  ∀ char ∈ text.toList, char ≠ '.' ∧ char ≠ '\'' ∧ char.toNat < 128

namespace PlainName

variable {text : String}

/-- Letter case does not matter. -/
theorem of_lowered (plain : PlainName (lowered text)) : PlainName text := by
  intro char member
  have present : char.toLower ∈ (lowered text).toList := by
    rw [lowered, String.toList_ofList]
    exact List.mem_map_of_mem member
  obtain ⟨dot, apostrophe, ascii⟩ := plain _ present
  refine ⟨?_, ?_, ?_⟩
  · rintro rfl
    exact dot rfl
  · rintro rfl
    exact apostrophe rfl
  · rw [toNat_toLower] at ascii
    split at ascii <;> omega

theorem dot_notMem (plain : PlainName text) : '.' ∉ text.toList := fun member =>
  (plain _ member).1 rfl

theorem apostrophe_notMem (plain : PlainName text) : '\'' ∉ text.toList := fun member =>
  (plain _ member).2.1 rfl

/-- Each character takes one byte. -/
theorem utf8ByteSize (plain : PlainName text) : text.utf8ByteSize = text.length := by
  rw [← String.ofList_toList (s := text), String.utf8ByteSize_ofList, String.length_ofList]
  unfold PlainName at plain
  generalize text.toList = chars at plain
  induction chars with
  | nil => rfl
  | cons char rest ih =>
    rw [List.forall_mem_cons] at plain
    have single : char.utf8Size = 1 :=
      Char.utf8Size_eq_one_iff.mpr (Nat.le_of_lt_succ plain.1.2.2)
    rw [String.utf8Len_cons, ih plain.2, single, List.length_cons]

end PlainName

/-- What is named by a table of plain names has a plain name, in either letter case. -/
theorem NameTable.plainName {ρ : Type} [DecidableEq ρ] {table : List (String × ρ)}
    {spellings : ρ → List String} (lists : NameTable table spellings)
    (plain : ∀ entry ∈ table, PlainName entry.1) {text : String} {named : ρ}
    (spells : Spells text (spellings named)) : PlainName text :=
  .of_lowered (plain (lowered text, named) (lists.mem_iff.mpr spells))

theorem ByteRegister.plainName {text : String} {register : ByteRegister}
    (spells : Spells text register.spellings) : PlainName text :=
  nameTable.plainName (by simp [names, PlainName]) spells

theorem WordRegister.plainName {text : String} {register : WordRegister}
    (spells : Spells text register.spellings) : PlainName text :=
  nameTable.plainName (by simp [names, PlainName]) spells

/-- No word register has a name of one letter. -/
theorem WordRegister.length_ne_one {text : String} {register : WordRegister}
    (spells : Spells text register.spellings) : text.length ≠ 1 := by
  have long : ∀ entry ∈ names, entry.1.length ≠ 1 := by decide
  have same : (lowered text).length = text.length := by
    rw [lowered, String.length_ofList, List.length_map, String.length_toList]
  exact same ▸ long (lowered text, register) (nameTable.mem_iff.mpr spells)

namespace Cpu

/-! ### The forms of a path -/

section Forms

variable {path name : List Char}

theorem flagName?_eq_some_iff : flagName? path = some name ↔ path = "flags.".toList ++ name := by
  rw [flagName?, Option.ite_none_right_eq_some, List.isPrefixOf_iff_prefix, Option.some.injEq]
  constructor
  · rintro ⟨⟨rest, rfl⟩, rfl⟩
    rw [List.drop_left]
  · rintro rfl
    exact ⟨List.prefix_append .., List.drop_left⟩

theorem flagName?_eq_none (free : '.' ∉ path) : flagName? path = none := by
  refine if_neg fun before => free ?_
  exact (List.isPrefixOf_iff_prefix.mp before).subset (by decide)

theorem unprimed?_eq_some_iff : unprimed? path = some name ↔ path = name ++ ['\''] := by
  obtain rfl | ⟨front, last, rfl⟩ := List.eq_nil_or_concat' path
  · simp [unprimed?]
  · rw [List.append_singleton_inj, unprimed?, List.getLast?_concat, List.dropLast_concat]
    split
    · next closing => simp_all
    · next other => simp_all [eq_comm]

theorem unprimed?_eq_none (free : '\'' ∉ path) : unprimed? path = none := by
  rw [Option.eq_none_iff_forall_not_mem]
  intro name unprimed
  rw [unprimed?_eq_some_iff.mp unprimed] at free
  simp at free

end Forms

/-- The apostrophe that closes a path of the alternate bank is no part of the name. -/
theorem toList_primed (name : String) : (name ++ "'").toList = name.toList ++ ['\''] := by
  rw [String.toList_append]
  rfl

section Query

variable (cpu : Cpu) {path name : String}

theorem query_flag (letter : String) :
    cpu.query ("flags." ++ letter) = (cpu.registers.f.named? letter.toList).map .bool := by
  have flag : flagName? ("flags." ++ letter).toList = some letter.toList :=
    flagName?_eq_some_iff.mpr String.toList_append
  rw [query, flag]

theorem query_primed (plain : PlainName name) :
    cpu.query (name ++ "'") =
      if name.length = 1 then cpu.queryByte name .alternate
      else cpu.queryWord name .alternate := by
  have dotless : '.' ∉ (name ++ "'").toList := by simp [plain.dot_notMem]
  have primed : unprimed? (name ++ "'").toList = some name.toList :=
    unprimed?_eq_some_iff.mpr (toList_primed name)
  simp only [query, flagName?_eq_none dotless, primed, String.ofList_toList, plain.utf8ByteSize]

theorem query_plain (plain : PlainName path) :
    cpu.query path = (cpu.latches.lookup path <|>
      cpu.queryByte path .main <|> cpu.queryWord path .main) := by
  rw [query, flagName?_eq_none plain.dot_notMem, unprimed?_eq_none plain.apostrophe_notMem]
  cases cpu.latches.lookup path <;> rfl

theorem queryByte_eq_some_iff {bank : Bank} {value : Value} :
    cpu.queryByte name bank = some value ↔
      ∃ register : ByteRegister, Spells name register.spellings ∧
        value = .byte (cpu.registers.getByte register bank) := by
  simp only [← ByteRegister.parse_eq_ok_iff, queryByte]
  cases ByteRegister.parse name <;> simp [eq_comm]

theorem queryWord_eq_some_iff {bank : Bank} {value : Value} :
    cpu.queryWord name bank = some value ↔
      ∃ register : WordRegister, Spells name register.spellings ∧
        value = .word (cpu.registers.getWord register bank) := by
  simp only [← WordRegister.parse_eq_ok_iff, queryWord]
  cases WordRegister.parse name <;> simp [eq_comm]

end Query

end Cpu

/-! ### Flags -/

namespace Flags

/-- The letters of the flags, with the bits of F that hold them. -/
def bits : List (Char × Nat) :=
  [('s', 7), ('z', 6), ('y', 5), ('h', 4), ('x', 3), ('p', 2), ('n', 1), ('c', 0)]

/-- The flag with a letter is its bit of F. -/
theorem named?_eq_some_iff {flags : Flags} {name : List Char} {value : Bool} :
    flags.named? name = some value ↔
      ∃ letter bit, (letter, bit) ∈ bits ∧ name = [letter] ∧ value = flags.toByte.getLsbD bit := by
  conv_lhs => rw [← ofByte_toByte flags]
  generalize flags.toByte = byte
  constructor
  · intro found
    unfold named? at found
    split at found <;> cases found <;> exact ⟨_, _, by decide, rfl, rfl⟩
  · rintro ⟨letter, bit, listed, rfl, rfl⟩
    have each : ∀ entry ∈ bits, (ofByte byte).named? [entry.1] = some (byte.getLsbD entry.2) := by
      simp [bits, named?, ofByte]
    exact each (letter, bit) listed

end Flags

/-! ### Latches -/

namespace Cpu

/-- The names of latches and counts. -/
def latchNames : List String :=
  ["im", "iff1", "iff2", "nmi_pending", "ei", "halted", "prefix", "q", "p", "block_loop", "tacts",
    "step_tacts", "last_opcode"]

variable {cpu : Cpu} {path name : String} {value : Value}

theorem map_fst_latches (cpu : Cpu) : cpu.latches.map Prod.fst = latchNames := rfl

theorem lookup_latches_eq_some_iff :
    cpu.latches.lookup name = some value ↔ (name, value) ∈ cpu.latches :=
  lookup_eq_some_iff_mem (by rw [map_fst_latches]; decide)

theorem plainName_of_mem (listed : name ∈ latchNames) : PlainName name := by
  have plain : ∀ name ∈ latchNames, PlainName name := by simp [latchNames, PlainName]
  exact plain name listed

/-- No latch is found under what is named by a table without the names of latches. -/
theorem lookup_latches_of_spells {ρ : Type} [DecidableEq ρ] {table : List (String × ρ)}
    {spellings : ρ → List String} (lists : NameTable table spellings)
    (apart : ∀ name ∈ latchNames, lowered name ∉ table.map Prod.fst) {named : ρ}
    (spells : Spells name (spellings named)) : cpu.latches.lookup name = none := by
  refine lookup_eq_none_of_notMem fun listed => ?_
  rw [map_fst_latches] at listed
  exact apart name listed (List.mem_map_of_mem (lists.mem_iff.mpr spells))

/-! ### Answers -/

/-- A path is to be answered by a value: by a latch or a count, by a bit of F, or by the register
that is named, in the main bank or, with an apostrophe, in the alternate one. Of the byte registers
only those with a name of one letter are found in the alternate bank. -/
inductive Answers (cpu : Cpu) : String → Value → Prop
  | latch {name : String} {value : Value} (listed : (name, value) ∈ cpu.latches) :
    Answers cpu name value
  | flag {letter : Char} {bit : Nat} (listed : (letter, bit) ∈ Flags.bits) :
    Answers cpu ("flags." ++ String.singleton letter)
      (.bool ((cpu.registers.getByte .f .main).getLsbD bit))
  | byte {name : String} {register : ByteRegister} (spells : Spells name register.spellings) :
    Answers cpu name (.byte (cpu.registers.getByte register .main))
  | word {name : String} {register : WordRegister} (spells : Spells name register.spellings) :
    Answers cpu name (.word (cpu.registers.getWord register .main))
  | byteAlternate {name : String} {register : ByteRegister}
    (spells : Spells name register.spellings) (single : name.length = 1) :
    Answers cpu (name ++ "'") (.byte (cpu.registers.getByte register .alternate))
  | wordAlternate {name : String} {register : WordRegister}
    (spells : Spells name register.spellings) :
    Answers cpu (name ++ "'") (.word (cpu.registers.getWord register .alternate))

theorem Answers.query (answers : cpu.Answers path value) : cpu.query path = some value := by
  cases answers with
  | latch listed =>
    have named : path ∈ latchNames := by
      rw [← map_fst_latches cpu]
      exact List.mem_map_of_mem listed
    rw [query_plain cpu (plainName_of_mem named), lookup_latches_eq_some_iff.mpr listed]
    rfl
  | flag listed =>
    rw [query_flag, Flags.named?_eq_some_iff.mpr ⟨_, _, listed, String.toList_singleton _, rfl⟩]
    rfl
  | byte spells =>
    -- Latches are tried first, and none has the name of a register.
    rw [query_plain cpu (ByteRegister.plainName spells),
      lookup_latches_of_spells ByteRegister.nameTable (by decide) spells,
      (queryByte_eq_some_iff cpu).mpr ⟨_, spells, rfl⟩]
    rfl
  | word spells =>
    -- Byte registers are tried before, and none has a name of a word register.
    have other : cpu.queryByte path .main = none := by
      rw [Option.eq_none_iff_forall_ne_some]
      intro value found
      obtain ⟨register, also, -⟩ := (queryByte_eq_some_iff cpu).mp found
      exact ByteRegister.not_spells_word also spells
    rw [query_plain cpu (WordRegister.plainName spells),
      lookup_latches_of_spells WordRegister.nameTable (by decide) spells, other,
      (queryWord_eq_some_iff cpu).mpr ⟨_, spells, rfl⟩]
    rfl
  | byteAlternate spells single =>
    rw [query_primed cpu (ByteRegister.plainName spells), if_pos single,
      (queryByte_eq_some_iff cpu).mpr ⟨_, spells, rfl⟩]
  | wordAlternate spells =>
    rw [query_primed cpu (WordRegister.plainName spells),
      if_neg (WordRegister.length_ne_one spells),
      (queryWord_eq_some_iff cpu).mpr ⟨_, spells, rfl⟩]

theorem answers_of_query (found : cpu.query path = some value) : cpu.Answers path value := by
  rw [Cpu.query] at found
  -- The cases are the branches of the query: a flag, a register with an apostrophe, and the rest.
  cases flag : flagName? path.toList with
  | some name =>
    rw [flag] at found
    obtain ⟨truth, named, rfl⟩ := Option.map_eq_some_iff.mp found
    obtain ⟨letter, bit, listed, rfl, rfl⟩ := Flags.named?_eq_some_iff.mp named
    have whole : path = "flags." ++ String.singleton letter := by
      rw [← String.toList_inj, flagName?_eq_some_iff.mp flag, String.toList_append,
        String.toList_singleton]
    exact whole ▸ .flag listed
  | none =>
    rw [flag] at found
    cases primed : unprimed? path.toList with
    | some chars =>
      have whole : path = String.ofList chars ++ "'" := by
        rw [← String.toList_inj, unprimed?_eq_some_iff.mp primed, toList_primed,
          String.toList_ofList]
      simp only [primed] at found
      split at found
      · next small =>
        -- The query counts bytes, and for names of registers that is to count characters.
        obtain ⟨register, spells, rfl⟩ := (queryByte_eq_some_iff cpu).mp found
        rw [(ByteRegister.plainName spells).utf8ByteSize] at small
        exact whole ▸ .byteAlternate spells small
      · obtain ⟨register, spells, rfl⟩ := (queryWord_eq_some_iff cpu).mp found
        exact whole ▸ .wordAlternate spells
    | none =>
      simp only [primed] at found
      split at found
      · next latched =>
        cases found
        exact .latch (lookup_latches_eq_some_iff.mp latched)
      · rw [Option.orElse_eq_orElse, Option.orElse_eq_or, Option.or_eq_some_iff] at found
        rcases found with byte | ⟨-, word⟩
        · obtain ⟨register, spells, rfl⟩ := (queryByte_eq_some_iff cpu).mp byte
          exact .byte spells
        · obtain ⟨register, spells, rfl⟩ := (queryWord_eq_some_iff cpu).mp word
          exact .word spells

/-- A query gives the answer that the path is to have, and nothing for any other path. -/
theorem query_eq_some_iff : cpu.query path = some value ↔ cpu.Answers path value :=
  ⟨answers_of_query, Answers.query⟩

/-- The paths that are answered. -/
def IsPath (path : String) : Prop :=
  path ∈ latchNames ∨
    (∃ letter ∈ ['s', 'z', 'y', 'h', 'x', 'p', 'n', 'c'],
      path = "flags." ++ String.singleton letter) ∨
    Spells path ByteRegister.allSpellings ∨ Spells path WordRegister.allSpellings ∨
    ∃ name, path = name ++ "'" ∧
      (name.length = 1 ∧ Spells name ByteRegister.allSpellings ∨
        Spells name WordRegister.allSpellings)

/-- The paths that have an answer are the same for all processors. -/
theorem exists_answers_iff (cpu : Cpu) : (∃ value, cpu.Answers path value) ↔ IsPath path := by
  have byte {text : String} := @ByteRegister.exists_parse_iff text
  have word {text : String} := @WordRegister.exists_parse_iff text
  simp only [ByteRegister.parse_eq_ok_iff, WordRegister.parse_eq_ok_iff] at byte word
  simp only [IsPath, ← byte, ← word]
  constructor
  · rintro ⟨value, answers⟩
    cases answers with
    | latch listed => exact .inl (List.mem_map_of_mem (f := Prod.fst) listed)
    | flag listed => exact .inr (.inl ⟨_, List.mem_map_of_mem (f := Prod.fst) listed, rfl⟩)
    | byte spells => exact .inr (.inr (.inl ⟨_, spells⟩))
    | word spells => exact .inr (.inr (.inr (.inl ⟨_, spells⟩)))
    | byteAlternate spells single =>
      exact .inr (.inr (.inr (.inr ⟨_, rfl, .inl ⟨single, _, spells⟩⟩)))
    | wordAlternate spells => exact .inr (.inr (.inr (.inr ⟨_, rfl, .inr ⟨_, spells⟩⟩)))
  · rintro (latch | ⟨letter, listed, rfl⟩ | ⟨register, spells⟩ | ⟨register, spells⟩ |
      ⟨name, rfl, ⟨single, register, spells⟩ | ⟨register, spells⟩⟩)
    · rw [← map_fst_latches cpu] at latch
      obtain ⟨⟨_, value⟩, listed, rfl⟩ := List.mem_map.mp latch
      exact ⟨value, .latch listed⟩
    · have known : letter ∈ Flags.bits.map Prod.fst := listed
      obtain ⟨⟨_, bit⟩, bits, rfl⟩ := List.mem_map.mp known
      exact ⟨_, .flag bits⟩
    · exact ⟨_, .byte spells⟩
    · exact ⟨_, .word spells⟩
    · exact ⟨_, .byteAlternate spells single⟩
    · exact ⟨_, .wordAlternate spells⟩

theorem isSome_query_iff : (cpu.query path).isSome = true ↔ IsPath path := by
  rw [Option.isSome_iff_exists, ← exists_answers_iff cpu]
  exact exists_congr fun value => query_eq_some_iff

/-- Each path that is listed is answered. -/
theorem isSome_query_queryPaths (cpu : Cpu) :
    (queryPaths.all fun path => (cpu.query path).isSome) = true := rfl

/-- Texts name registers in either letter case: a text names the registers of which it spells a
name, no text names a byte register and a word register, and any other text is reported as it was
given. A query answers the names of latches and counts, the letters of flags and the names of
registers, each by what it names, and no other path. All paths that are listed are answered. -/
theorem names_and_queries :
    (∀ text,
      ((∃ register, ByteRegister.parse text = .ok register) ↔
          Spells text ByteRegister.allSpellings) ∧
        ((∃ register, WordRegister.parse text = .ok register) ↔
          Spells text WordRegister.allSpellings) ∧
        ¬ (Spells text ByteRegister.allSpellings ∧ Spells text WordRegister.allSpellings)) ∧
      (∀ text register,
        ByteRegister.parse text = .ok register ↔ Spells text register.spellings) ∧
      (∀ text register,
        WordRegister.parse text = .ok register ↔ Spells text register.spellings) ∧
      (∀ text error,
        (ByteRegister.parse text = .error error ↔
            error.name = text ∧ ¬ Spells text ByteRegister.allSpellings) ∧
          (WordRegister.parse text = .error error ↔
            error.name = text ∧ ¬ Spells text WordRegister.allSpellings)) ∧
      (∀ register : ByteRegister, ByteRegister.parse register.display = .ok register) ∧
      ∀ cpu : Cpu,
        (∀ path, (cpu.query path).isSome = true ↔ IsPath path) ∧
          (∀ path value, cpu.query path = some value ↔ cpu.Answers path value) ∧
          queryPaths.all fun path => (cpu.query path).isSome := by
  refine ⟨fun text => ⟨ByteRegister.exists_parse_iff, WordRegister.exists_parse_iff,
    not_spells_both text⟩, fun text register => ByteRegister.parse_eq_ok_iff,
    fun text register => WordRegister.parse_eq_ok_iff, fun text error => ?_,
    ByteRegister.parse_display, fun cpu => ?_⟩
  · exact ⟨ByteRegister.parse_eq_error_iff, WordRegister.parse_eq_error_iff⟩
  · exact ⟨fun path => isSome_query_iff, fun path value => query_eq_some_iff,
      cpu.isSome_query_queryPaths⟩

end Cpu

end Z80
