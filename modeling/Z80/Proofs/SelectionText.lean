import Mathlib.Data.List.Nodup
import Mathlib.Data.List.TakeWhile
import Z80.Proofs.Selected

/-!
# Selections as texts

A text that selects parts of the register file is a set of letters: what counts is which letters are
in it, and not their order, how often they come, where the letter T stands or how many blanks are
around them. Any other character, also a blank between letters, makes the text unreadable, and the
first such character is named.

## Main definitions

* `RegisterPart.IsLetter`: the characters that may stand in a selection
* `Selection.Lists`: the letters are those of a selection

## Main results

* `Text.trim_append_blanks`: blanks at the ends do not change what trimming leaves
* `Selection.ofLetters_known`, `Selection.ofLetters_unknown`: what letters are read as
* `Selection.parse_exact`: which selection a text is read as, and which error
-/

namespace Z80

/-! ### Trimming -/

namespace Text

/-- Blanks around a text are trimmed with those that it has itself. -/
theorem trim_append_blanks {leading trailing : List Char}
    (before : ∀ char ∈ leading, isBlank char = true)
    (behind : ∀ char ∈ trailing, isBlank char = true) (chars : List Char) :
    trim (leading ++ chars ++ trailing) = trim chars := by
  have reversed : ∀ char ∈ trailing.reverse, isBlank char = true := fun char member =>
    behind char (List.mem_reverse.mp member)
  rw [trim, trim, List.append_assoc, List.dropWhile_append_of_pos before, List.dropWhile_append]
  -- If nothing but blanks is left, those behind are dropped with them.
  by_cases empty : chars.dropWhile isBlank = []
  · rw [empty, List.dropWhile_eq_nil_iff.mpr behind]
    rfl
  · rw [List.isEmpty_eq_false_iff.mpr empty, if_neg Bool.false_ne_true, List.reverse_append,
      List.dropWhile_append_of_pos reversed]

end Text

/-! ### Letters -/

namespace RegisterPart

/-- The letters of the parts, in the order of their bits. -/
def alphabet : List Char := letters.map Prod.fst

/-- The character may stand in a selection: it is the letter of a part, or it is T. -/
def IsLetter (char : Char) : Prop := char = 'T' ∨ char ∈ alphabet

instance : DecidablePred IsLetter := fun _ => inferInstanceAs (Decidable (_ ∨ _))

theorem nodup_alphabet : alphabet.Nodup := by decide

theorem mem_alphabet {char : Char} : char ∈ alphabet ↔ ∃ part, (char, part) ∈ letters := by
  simp [alphabet]

/-- T is the letter of no part. -/
theorem ne_T {letter : Char} {part : RegisterPart} (listed : (letter, part) ∈ letters) :
    letter ≠ 'T' := by
  rintro rfl
  have : 'T' ∉ alphabet := by decide
  exact this (mem_alphabet.mpr ⟨part, listed⟩)

theorem getElem?_position {letter : Char} {part : RegisterPart}
    (listed : (letter, part) ∈ letters) : letters[part.position]? = some (letter, part) := by
  obtain ⟨position, placed⟩ := List.getElem?_of_mem listed
  rw [position_of_listed placed, placed]

theorem position_lt {letter : Char} {part : RegisterPart} (listed : (letter, part) ∈ letters) :
    part.position < 25 :=
  (List.getElem?_eq_some_iff.mp (getElem?_position listed)).1

/-- Different letters have different bits. -/
theorem position_inj {letter other : Char} {part otherPart : RegisterPart}
    (listed : (letter, part) ∈ letters) (otherListed : (other, otherPart) ∈ letters) :
    part.position = otherPart.position ↔ letter = other := by
  have placed := getElem?_position listed
  have otherPlaced := getElem?_position otherListed
  constructor
  · intro same
    rw [same, otherPlaced] at placed
    injection placed with both
    exact (congrArg Prod.fst both).symm
  · rintro rfl
    have same := List.inj_on_of_nodup_map nodup_alphabet listed otherListed rfl
    exact congrArg (fun entry => entry.2.position) same

/-- A letter is found where the bit of its part is. -/
theorem findIdx?_letter {letter : Char} {part : RegisterPart}
    (listed : (letter, part) ∈ letters) :
    letters.findIdx? (·.1 == letter) = some part.position := by
  obtain ⟨bound, placed⟩ := List.getElem?_eq_some_iff.mp (getElem?_position listed)
  rw [List.findIdx?_eq_some_iff_getElem]
  refine ⟨bound, by simp [placed], fun early lower found => ?_⟩
  -- An earlier place with this letter would hold the letter a second time.
  have inside : part.position < alphabet.length := by simpa [alphabet] using bound
  have same : alphabet.get ⟨early, lower.trans inside⟩ = alphabet.get ⟨part.position, inside⟩ := by
    simpa [alphabet, placed] using found
  exact absurd (Fin.mk.inj (nodup_alphabet.injective_get same)) lower.ne

end RegisterPart

namespace Selection

open RegisterPart

/-- The letters are those of the selection, in any order, with repetitions and with T. -/
structure Lists (chars : List Char) (selection : Selection) : Prop where
  known : ∀ char ∈ chars, IsLetter char
  selects_iff : ∀ letter part, (letter, part) ∈ letters →
    (selection.selects part = true ↔ letter ∈ chars)

/-- A letter is read as the bit of its part, and T as nothing. -/
theorem ofLetter_known {char : Char} (known : IsLetter char) :
    ∃ selection, ofLetter char = .ok selection ∧
      ∀ letter part, (letter, part) ∈ letters →
        (selection.selects part = true ↔ letter = char) := by
  by_cases nothing : char = 'T'
  · refine ⟨empty, if_pos nothing, fun letter part listed => ?_⟩
    simp [selects, holds, empty, nothing, ne_T listed]
  · obtain ⟨own, ownListed⟩ := mem_alphabet.mp (known.resolve_left nothing)
    refine ⟨single own.position, ?_, fun letter part listed => ?_⟩
    · rw [ofLetter, if_neg nothing, findIdx?_letter ownListed]
    · rw [← position_inj listed ownListed]
      simp [selects, holds, single, BitVec.getLsbD_twoPow, position_lt ownListed, eq_comm]

/-- Another character is named in the error. -/
theorem ofLetter_unknown {char : Char} (unknown : ¬ IsLetter char) :
    ofLetter char = .error ⟨String.singleton char⟩ := by
  obtain ⟨notT, unlisted⟩ := not_or.mp unknown
  have missing : letters.findIdx? (·.1 == char) = none := by
    rw [List.findIdx?_eq_none_iff]
    rintro ⟨letter, part⟩ listed
    exact beq_eq_false_iff_ne.mpr fun same =>
      unlisted (mem_alphabet.mpr ⟨part, same ▸ listed⟩)
  rw [ofLetter, if_neg notT, missing]

/-- Letters are read as the selection that they list. -/
theorem ofLetters_known {chars : List Char} (known : ∀ char ∈ chars, IsLetter char) :
    ∃ selection, ofLetters chars = .ok selection ∧ Lists chars selection := by
  induction chars with
  | nil =>
    refine ⟨empty, rfl, known, fun letter part listed => ?_⟩
    simp [selects, holds, empty]
  | cons char rest ih =>
    obtain ⟨first, readFirst, firstSelects⟩ := ofLetter_known (known char List.mem_cons_self)
    obtain ⟨others, readOthers, listed⟩ := ih fun other member =>
      known other (List.mem_cons_of_mem char member)
    refine ⟨union first others, by rw [ofLetters, readFirst, readOthers], known, ?_⟩
    intro letter part letterListed
    rw [selects_union, Bool.or_eq_true, firstSelects letter part letterListed,
      listed.selects_iff letter part letterListed, List.mem_cons]

/-- The first unknown character is named, whatever comes after it. -/
theorem ofLetters_unknown {before : List Char} {char : Char}
    (known : ∀ other ∈ before, IsLetter other) (unknown : ¬ IsLetter char) (rest : List Char) :
    ofLetters (before ++ char :: rest) = .error ⟨String.singleton char⟩ := by
  -- The letters before it are read first and do not fail.
  induction before with
  | nil => rw [List.nil_append, ofLetters, ofLetter_unknown unknown]
  | cons other remaining ih =>
    obtain ⟨first, readFirst, _⟩ := ofLetter_known (known other List.mem_cons_self)
    rw [List.cons_append, ofLetters, readFirst,
      ih fun letter member => known letter (List.mem_cons_of_mem other member)]

/-- A selection is what it holds of the parts with letters. -/
theorem ext_selects {selection other : Selection}
    (same : ∀ letter part, (letter, part) ∈ letters →
      selection.selects part = other.selects part) : selection = other := by
  have bits : selection.bits = other.bits := by
    apply BitVec.eq_of_getLsbD_eq
    intro position bound
    have placed : letters[position]? = some letters[position] := List.getElem?_eq_getElem bound
    have held := same _ _ (List.getElem_mem bound)
    rwa [selects, selects, position_of_listed placed] at held
  exact congrArg Selection.mk bits

/-- Letters list one selection only. -/
theorem Lists.unique {chars : List Char} {selection other : Selection}
    (one : Lists chars selection) (two : Lists chars other) : selection = other :=
  ext_selects fun letter part listed => Bool.eq_iff_iff.mpr
    ((one.selects_iff letter part listed).trans (two.selects_iff letter part listed).symm)

/-- Characters are letters throughout, or there is a first one that is not. -/
theorem known_or_unknown (chars : List Char) :
    (∀ char ∈ chars, IsLetter char) ∨
      ∃ before char rest, chars = before ++ char :: rest ∧ (∀ other ∈ before, IsLetter other) ∧
        ¬ IsLetter char := by
  cases found : chars.find? (fun char => !decide (IsLetter char)) with
  | none =>
    left
    simpa using found
  | some char =>
    right
    obtain ⟨unknown, before, rest, split, known⟩ := List.find?_eq_some_iff_append.mp found
    exact ⟨before, char, rest, split, by simpa using known, by simpa using unknown⟩

section Parse

variable {text : String}

theorem parse_eq_ok_iff {selection : Selection} :
    parse text = .ok selection ↔ Lists (Text.trim text.toList) selection := by
  constructor
  · intro read
    rcases known_or_unknown (Text.trim text.toList) with known | ⟨before, char, rest, split, first⟩
    · obtain ⟨listed, readListed, lists⟩ := ofLetters_known known
      rw [parse, readListed] at read
      cases read
      exact lists
    · rw [parse, split, ofLetters_unknown first.1 first.2] at read
      cases read
  · intro lists
    obtain ⟨listed, read, listsToo⟩ := ofLetters_known lists.known
    rw [parse, read, lists.unique listsToo]

theorem parse_eq_error_iff {error : UnknownRegister} :
    parse text = .error error ↔
      ∃ before char rest, Text.trim text.toList = before ++ char :: rest ∧
        (∀ other ∈ before, IsLetter other) ∧ ¬ IsLetter char ∧
        error = ⟨String.singleton char⟩ := by
  constructor
  · intro read
    rcases known_or_unknown (Text.trim text.toList) with known | ⟨before, char, rest, split, first⟩
    · obtain ⟨listed, readListed, _⟩ := ofLetters_known known
      rw [parse, readListed] at read
      cases read
    · rw [parse, split, ofLetters_unknown first.1 first.2] at read
      cases read
      exact ⟨before, char, rest, split, first.1, first.2, rfl⟩
  · rintro ⟨before, char, rest, split, known, unknown, rfl⟩
    rw [parse, split, ofLetters_unknown known unknown]

theorem parse_append_blanks {leading trailing : String}
    (before : ∀ char ∈ leading.toList, Text.isBlank char = true)
    (behind : ∀ char ∈ trailing.toList, Text.isBlank char = true) :
    parse (leading ++ text ++ trailing) = parse text := by
  rw [parse, parse, String.toList_append, String.toList_append,
    Text.trim_append_blanks before behind]

/-- A text is read as the selection that its letters list, blanks around it aside; if there is
another character in it, the first one is named. So nothing but the set of letters counts. -/
theorem parse_exact (text : String) :
    ((∃ selection, parse text = .ok selection) ↔
        ∀ char ∈ Text.trim text.toList, IsLetter char) ∧
      (∀ selection, parse text = .ok selection ↔ Lists (Text.trim text.toList) selection) ∧
      (∀ error, parse text = .error error ↔
        ∃ before char rest, Text.trim text.toList = before ++ char :: rest ∧
          (∀ other ∈ before, IsLetter other) ∧ ¬ IsLetter char ∧
          error = ⟨String.singleton char⟩) ∧
      (∀ leading trailing : String, (∀ char ∈ leading.toList, Text.isBlank char = true) →
        (∀ char ∈ trailing.toList, Text.isBlank char = true) →
        parse (leading ++ text ++ trailing) = parse text) ∧
      ∀ other : String, (∀ char ∈ Text.trim text.toList, IsLetter char) →
        (∀ char ∈ Text.trim other.toList, IsLetter char) →
        (∀ letter ∈ alphabet, letter ∈ Text.trim text.toList ↔ letter ∈ Text.trim other.toList) →
        parse text = parse other := by
  refine ⟨⟨?_, fun known => ?_⟩, fun _ => parse_eq_ok_iff, fun _ => parse_eq_error_iff,
    fun _ _ => parse_append_blanks, fun other known otherKnown same => ?_⟩
  · rintro ⟨selection, read⟩
    exact (parse_eq_ok_iff.mp read).known
  · obtain ⟨selection, read, _⟩ := ofLetters_known known
    exact ⟨selection, read⟩
  · obtain ⟨selection, read, lists⟩ := ofLetters_known known
    have otherLists : Lists (Text.trim other.toList) selection :=
      ⟨otherKnown, fun letter part listed => (lists.selects_iff letter part listed).trans
        (same letter (mem_alphabet.mpr ⟨part, listed⟩))⟩
    exact (parse_eq_ok_iff.mpr lists).trans (parse_eq_ok_iff.mpr otherLists).symm

end Parse

/-- Blanks around letters, and the same letters again in another order. -/
theorem parse_exact_reordered :
    parse ("\t" ++ "T1a" ++ " ") = parse "T1a" ∧ parse "T1a" = parse "aT11a" := by
  have exactly := parse_exact "T1a"
  refine ⟨exactly.2.2.2.1 "\t" " " ?_ ?_, exactly.2.2.2.2 "aT11a" ?_ ?_ ?_⟩
  all_goals
    rw [← List.forall_iff_forall_mem]
    decide

end Selection

end Z80
