import Mathlib.Tactic.SplitIfs
import Z80.Instruction.Entry

/-!
# What bytes spell

An instruction is spelled by a chain of prefix bytes that leads to its page, its opcode, and its
operands. What the first bytes of a stream spell is unique: the chain ends where a byte selects no
page, and the opcode found there fixes how many bytes are left.

## Main definitions

* `Page.Selects`: a chain of prefix bytes leads from one page to another
* `Page.arrange`: the bytes behind the chain
* `Page.Spells`: bytes spell an instruction
* `Operands.Agree`: two pairs of operand values that an instruction cannot tell apart

## Main results

* `Page.Spells.unique`: a stream begins with the spelling of at most one instruction
* `Page.entry_spells`: the encoding of a table entry spells its instruction
* `Operands.encode_eq_iff`: operands are encoded alike exactly if they agree
-/

namespace Z80

namespace Page

/-- A chain of prefix bytes leads from one page to another. -/
def Selects : Page → List Byte → Page → Prop
  | page, [], target => page = target
  | page, byte :: chain, target =>
    page.role byte = .selector ∧ (page.next byte).Selects chain target

/-- The bytes behind the prefix bytes. On the indexed bit pages the offset comes first. -/
def arrange (page : Page) (opcode : Byte) (operands : List Byte) : List Byte :=
  if page.displacementFirst then operands ++ [opcode] else opcode :: operands

/-- Bytes spell an instruction: a chain leads to its page, and its opcode and operands follow. -/
structure Spells (page : Page) (bytes chain : List Byte) (target : Page) (opcode : Byte)
    (instruction : Instruction) : Prop where
  selects : page.Selects chain target
  role : target.role opcode = .instruction instruction
  arranged : ∃ operands : List Byte, operands.length = instruction.operands.size ∧
    bytes = chain ++ target.arrange opcode operands

variable {page target other : Page} {byte opcode : Byte} {chain more bytes stream : List Byte}
  {instruction : Instruction}

@[simp] theorem length_arrange (operands : List Byte) :
    (page.arrange opcode operands).length = operands.length + 1 := by
  unfold arrange
  split <;> simp

theorem arrange_of_plain (plain : page.displacementFirst = false) (operands : List Byte) :
    page.arrange opcode operands = opcode :: operands := by
  simp [arrange, plain]

theorem arrange_of_displaced (displaced : page.displacementFirst = true) (operands : List Byte) :
    page.arrange opcode operands = operands ++ [opcode] := by
  simp [arrange, displaced]

/-- On the indexed bit pages every opcode is that of an instruction with an offset. -/
theorem role_of_displacementFirst (displaced : page.displacementFirst = true) (opcode : Byte) :
    ∃ index operation copy,
      page.role opcode = .instruction (.indexedBits index operation copy) := by
  cases page with
  | ixBits | iyBits => exact ⟨_, _, _, rfl⟩
  | _ => cases displaced

theorem displacementFirst_of_selector (selector : page.role opcode = .selector) :
    page.displacementFirst = false := by
  cases order : page.displacementFirst with
  | false => rfl
  | true =>
    obtain ⟨_, _, _, role⟩ := role_of_displacementFirst order opcode
    cases selector.symm.trans role

/-! ### Chains -/

theorem Selects.target_eq (first : page.Selects chain target) (second : page.Selects chain other) :
    target = other := by
  induction chain generalizing page with
  | nil => exact first.symm.trans second
  | cons byte chain ih => exact ih first.2 second.2

theorem length_prefixBytes_next (page : Page) (byte : Byte) :
    (page.next byte).prefixBytes.length ≤ page.prefixBytes.length + 1 := by
  unfold next
  cases page <;> split_ifs <;> decide

/-- No chain to a page is shorter than the prefix bytes of the page. -/
theorem Selects.length_prefixBytes_le (selects : page.Selects chain target) :
    target.prefixBytes.length ≤ page.prefixBytes.length + chain.length := by
  induction chain generalizing page with
  | nil => exact selects ▸ Nat.le_refl _
  | cons byte chain ih =>
    have step := length_prefixBytes_next page byte
    have rest := ih selects.2
    rw [List.length_cons]
    omega

theorem main_selects_prefixBytes (page : Page) : Page.main.Selects page.prefixBytes page := by
  cases page <;> simp [prefixBytes, Selects, role, next] <;> decide

/-! ### Spellings -/

theorem Spells.length (spells : page.Spells bytes chain target opcode instruction) :
    bytes.length = chain.length + 1 + instruction.operands.size := by
  obtain ⟨operands, size, rfl⟩ := spells.arranged
  simp [size]
  omega

/-- A prefix byte before a spelling. -/
theorem Spells.cons (spells : (page.next byte).Spells bytes chain target opcode instruction)
    (selector : page.role byte = .selector) :
    page.Spells (byte :: bytes) (byte :: chain) target opcode instruction where
  selects := ⟨selector, spells.selects⟩
  role := spells.role
  arranged := by
    obtain ⟨operands, size, rfl⟩ := spells.arranged
    exact ⟨operands, size, rfl⟩

/-- A chain at the start of a stream does not go beyond the chain of what is spelled there. -/
theorem Spells.chain_prefix (spells : page.Spells bytes chain target opcode instruction)
    (selects : page.Selects more other) (head : bytes <+: stream) (along : more <+: stream) :
    more <+: chain := by
  induction more generalizing page chain bytes stream with
  | nil => exact List.nil_prefix
  | cons byte more ih =>
    obtain ⟨selector, selects⟩ := selects
    obtain ⟨operands, size, rfl⟩ := spells.arranged
    obtain ⟨rest, rfl⟩ := along
    cases chain with
    | nil =>
      -- The byte that selects a page would be the opcode itself.
      have here : page = target := spells.selects
      subst here
      rw [arrange_of_plain (displacementFirst_of_selector selector)] at head
      have found : opcode = byte := (List.cons_prefix_cons.mp head).1
      cases spells.role.symm.trans (found ▸ selector)
    | cons first chain =>
      simp only [List.cons_append, List.cons_prefix_cons] at head
      obtain ⟨rfl, head⟩ := head
      have tail : (page.next first).Spells (chain ++ target.arrange opcode operands) chain target
          opcode instruction := ⟨spells.selects.2, spells.role, operands, size, rfl⟩
      exact List.cons_prefix_cons.mpr ⟨rfl, ih tail selects head ⟨rest, rfl⟩⟩

/-- The opcode of a spelling stands at the same place for the same page. -/
theorem opcode_eq_of_prefix {found : Byte} {meant : Instruction} {operands values rest : List Byte}
    (role : page.role opcode = .instruction instruction)
    (meaning : page.role found = .instruction meant)
    (size : operands.length = instruction.operands.size)
    (width : values.length = meant.operands.size)
    (along : page.arrange found values <+: page.arrange opcode operands ++ rest) :
    opcode = found := by
  cases order : page.displacementFirst with
  | false =>
    rw [arrange_of_plain order, arrange_of_plain order] at along
    exact (List.cons_prefix_cons.mp along).1.symm
  | true =>
    obtain ⟨_, _, _, own⟩ := role_of_displacementFirst order opcode
    obtain ⟨_, _, _, its⟩ := role_of_displacementFirst order found
    cases role.symm.trans own
    cases meaning.symm.trans its
    obtain ⟨offset, rfl⟩ := List.length_eq_one_iff.mp size
    obtain ⟨value, rfl⟩ := List.length_eq_one_iff.mp width
    rw [arrange_of_displaced order, arrange_of_displaced order] at along
    simp only [List.cons_append, List.nil_append, List.cons_prefix_cons] at along
    exact along.2.1.symm

/-- A stream begins with the spelling of at most one instruction. -/
theorem Spells.unique {spelled : List Byte} {found : Byte} {meant : Instruction}
    (first : page.Spells bytes chain target opcode instruction)
    (second : page.Spells spelled more other found meant) (head : bytes <+: stream)
    (also : spelled <+: stream) :
    target = other ∧ opcode = found ∧ bytes = spelled := by
  obtain ⟨operands, size, rfl⟩ := first.arranged
  obtain ⟨values, width, rfl⟩ := second.arranged
  -- Neither chain goes beyond the other, so the opcodes stand in the same page.
  have same : chain = more :=
    (second.chain_prefix first.selects also ((List.prefix_append ..).trans head)).eq_of_length_le
      (first.chain_prefix second.selects head ((List.prefix_append ..).trans also)).length_le
  subst same
  have pages := first.selects.target_eq second.selects
  subst pages
  have opcodes : opcode = found := by
    obtain ⟨rest, rfl⟩ := head
    rw [List.append_assoc, List.prefix_append_right_inj] at also
    exact opcode_eq_of_prefix first.role second.role size width also
  subst opcodes
  cases first.role.symm.trans second.role
  have lengths : (chain ++ target.arrange opcode operands).length =
      (chain ++ target.arrange opcode values).length := by
    simp [size, width]
  have short := List.prefix_of_prefix_length_le head also (Nat.le_of_eq lengths)
  exact ⟨rfl, rfl, short.eq_of_length lengths⟩

end Page

/-! ### The encodings of the table -/

namespace Operands

/-- Two pairs of operand values that agree as far as the operands use them. -/
def Agree (operands : Operands) (displacement other : Byte) (immediate value : Word) : Prop :=
  match operands with
  | .none => True
  | .byte => Word.low immediate = Word.low value
  | .word => immediate = value
  | .relative | .displacement => displacement = other
  | .displacementByte => displacement = other ∧ Word.low immediate = Word.low value

variable (operands : Operands) (displacement other : Byte) (immediate value : Word)

@[simp] theorem length_encode :
    (operands.encode displacement immediate).length = operands.size := by
  cases operands <;> rfl

theorem encode_eq_iff :
    operands.encode displacement immediate = operands.encode other value ↔
      operands.Agree displacement other immediate value := by
  cases operands with
  | word =>
    simp only [encode, Agree, List.cons.injEq, and_true]
    constructor
    · rintro ⟨low, high⟩
      exact Word.ext_bytes high low
    · rintro rfl
      exact ⟨rfl, rfl⟩
  | _ => simp [encode, Agree]

end Operands

namespace Page

variable {page other : Page} {opcode found : Byte} {instruction meant : Instruction}

/-- The encoding of a table entry is its prefix bytes with its opcode and its operands. -/
theorem entry_encode (role : page.role opcode = .instruction instruction) (displacement : Byte)
    (immediate : Word) :
    (page.entry opcode).encode displacement immediate =
      page.prefixBytes ++
        page.arrange opcode (instruction.operands.encode displacement immediate) := by
  cases order : page.displacementFirst with
  | false => simp [Entry.encode, arrange, entry, order, Entry.operands, role]
  | true =>
    obtain ⟨_, _, _, own⟩ := role_of_displacementFirst order opcode
    cases role.symm.trans own
    simp [Entry.encode, arrange, entry, order, Instruction.operands, Operands.encode]

/-- The encoding of a table entry spells its instruction. -/
theorem entry_spells (role : page.role opcode = .instruction instruction) (displacement : Byte)
    (immediate : Word) :
    Page.main.Spells ((page.entry opcode).encode displacement immediate) page.prefixBytes page
      opcode instruction where
  selects := main_selects_prefixBytes page
  role := role
  arranged := ⟨_, Operands.length_encode .., entry_encode role displacement immediate⟩

/-- The encoding of a table entry has the length of the entry. -/
theorem length_entry_encode (role : page.role opcode = .instruction instruction)
    (displacement : Byte) (immediate : Word) :
    ((page.entry opcode).encode displacement immediate).length = (page.entry opcode).length := by
  rw [(entry_spells role displacement immediate).length]
  simp [entry, Entry.length, role]

/-- An encoding that another one begins with is that encoding, of the same entry with operands that
agree. -/
theorem entry_encode_inj (role : page.role opcode = .instruction instruction)
    (meaning : other.role found = .instruction meant) {displacement offset : Byte}
    {immediate value : Word}
    (along : (page.entry opcode).encode displacement immediate <+:
      (other.entry found).encode offset value) :
    page.entry opcode = other.entry found ∧
      instruction.operands.Agree displacement offset immediate value := by
  obtain ⟨pages, opcodes, bytes⟩ := (entry_spells role displacement immediate).unique
    (entry_spells meaning offset value) along (List.prefix_refl _)
  subst pages opcodes
  cases role.symm.trans meaning
  rw [entry_encode role, entry_encode role, List.append_cancel_left_eq] at bytes
  refine ⟨rfl, (Operands.encode_eq_iff ..).mp ?_⟩
  unfold arrange at bytes
  split at bytes
  · exact List.append_cancel_right bytes
  · exact (List.cons.inj bytes).2

end Page

end Z80
