import Z80.Instruction.Operation
import Z80.Instruction.Page

/-!
# The instruction table

Every opcode of every page is either a byte that selects another page or a complete instruction.
An instruction fixes the bytes that follow its opcode, its length and its time. Time is counted in
tacts, the ticks of the clock.

## Main definitions

* `Page.entry`: what an opcode means in a page
* `Entry.operands`, `Entry.length`: the layout of an instruction
* `Entry.tacts`, `Entry.extraTacts`: its time, and the time a taken condition adds
* `Entry.encode`: its bytes
-/

namespace Z80

/-- The bytes that belong to an instruction beside its opcode. -/
inductive Operands where
  | none
  /-- One byte. -/
  | byte
  /-- A word, low byte first. -/
  | word
  /-- A signed offset from the next instruction. -/
  | relative
  /-- A signed offset from an index register. -/
  | displacement
  /-- An offset from an index register, then a byte. -/
  | displacementByte
deriving DecidableEq, Inhabited

namespace Operands

/-- How many bytes the operands take. -/
def size : Operands → Nat
  | .none => 0
  | .byte | .relative | .displacement => 1
  | .word | .displacementByte => 2

/-- The bytes of the operands, made from an offset and an immediate. -/
def encode (operands : Operands) (displacement : Byte) (immediate : Word) : List Byte :=
  match operands with
  | .none => []
  | .byte => [Word.low immediate]
  | .word => [Word.low immediate, Word.high immediate]
  | .relative | .displacement => [displacement]
  | .displacementByte => [displacement, Word.low immediate]

end Operands

namespace Operation

/-- The operation works on the byte that HL points to. -/
def usesMemory : Operation → Bool
  | .increment .memory | .decrement .memory | .loadImmediate .memory => true
  | .loadMemory _ | .storeMemory _ | .accumulate _ .memory => true
  | _ => false

/-- The operands of the operation on the main page. -/
def mainOperands : Operation → Operands
  | .countAndJump | .jumpRelative | .jumpRelativeIf _ => .relative
  | .loadPair _ | .storeIndex | .loadIndex | .storeAccumulator | .loadAccumulator => .word
  | .jumpIf _ | .jump | .callIf _ | .call => .word
  | .loadImmediate _ | .accumulateImmediate _ | .outputImmediate | .inputImmediate => .byte
  | _ => .none

/-- The operands of the operation. A memory operand takes an offset on the index pages. -/
def operands (index : Index) (operation : Operation) : Operands :=
  if index ≠ .hl ∧ operation.usesMemory then
    match operation with
    | .loadImmediate _ => .displacementByte
    | _ => .displacement
  else operation.mainOperands

/-- Tacts of the operation on the main page if no condition makes it longer. -/
def mainTacts : Operation → Nat
  | .countAndJump => 8
  | .jumpRelative => 12
  | .jumpRelativeIf _ => 7
  | .loadPair _ => 10
  | .addPair _ => 11
  | .storeIndirect _ | .loadIndirect _ => 7
  | .storeIndex | .loadIndex => 16
  | .storeAccumulator | .loadAccumulator => 13
  | .incrementPair _ | .decrementPair _ => 6
  | .increment .memory | .decrement .memory => 11
  | .loadImmediate .memory => 10
  | .loadImmediate _ => 7
  | .loadMemory _ | .storeMemory _ | .accumulate _ .memory => 7
  | .accumulateImmediate _ => 7
  | .returnIf _ => 5
  | .pop _ | .ret => 10
  | .loadStackPointer => 6
  | .jumpIf _ | .jump => 10
  | .outputImmediate | .inputImmediate => 11
  | .exchangeStack => 19
  | .callIf _ => 10
  | .push _ => 11
  | .call => 17
  | .restart _ => 11
  | _ => 4

/-- Tacts of the operation. On the index pages the prefix byte costs four more, and a memory
operand eight on top, for the offset and its addition. -/
def tacts (index : Index) (operation : Operation) : Nat :=
  if index = .hl then operation.mainTacts
  else match operation with
    -- The offset is added while the immediate byte is fetched.
    | .loadImmediate .memory => 19
    | _ => operation.mainTacts + if operation.usesMemory then 12 else 4

/-- Tacts that a taken condition adds. -/
def extraTacts : Operation → Nat
  | .countAndJump | .jumpRelativeIf _ => 5
  | .returnIf _ => 6
  | .callIf _ => 7
  | _ => 0

end Operation

/-- Tacts of a bit operation on a register or through HL. -/
def BitOperation.tacts : BitOperation → Place → Nat
  | _, .register _ => 8
  | .test _, .memory => 12
  | _, .memory => 15

/-- Tacts of a bit operation on an indexed byte. -/
def BitOperation.indexedTacts : BitOperation → Nat
  | .test _ => 20
  | _ => 23

namespace ExtendedOperation

/-- The operands of an extended operation. -/
def operands : ExtendedOperation → Operands
  | .storePair _ | .loadPair _ => .word
  | _ => .none

/-- Tacts of an extended operation if it does not repeat. -/
def tacts : ExtendedOperation → Nat
  | .input _ | .output _ => 12
  | .subtractPair _ | .addPair _ => 15
  | .storePair _ | .loadPair _ => 20
  | .returnFromInterrupt _ => 14
  | .storeVectorPage | .storeRefresh | .loadVectorPage | .loadRefresh => 9
  | .rotateDigitsRight | .rotateDigitsLeft => 18
  | .block _ => 16
  | .negate | .setMode _ | .nop | .undefined => 8

/-- Tacts that a repetition adds. -/
def extraTacts : ExtendedOperation → Nat
  | .block operation => if operation.repeats then 5 else 0
  | _ => 0

end ExtendedOperation

/-- A complete instruction. -/
inductive Instruction where
  /-- An operation of the main page or of an index page. -/
  | main (index : Index) (operation : Operation)
  | bits (operation : BitOperation) (place : Place)
  /-- A bit operation on an indexed byte; the result is copied to a register as well. -/
  | indexedBits (index : Index) (operation : BitOperation) (copy : Option Reg)
  | extended (operation : ExtendedOperation)
deriving DecidableEq, Inhabited

namespace Instruction

/-- The bytes that belong to the instruction beside its opcode. -/
def operands : Instruction → Operands
  | .main index operation => operation.operands index
  | .bits _ _ => .none
  | .indexedBits _ _ _ => .displacement
  | .extended operation => operation.operands

/-- Tacts of the instruction, its prefix bytes included, if no condition makes it longer. -/
def tacts : Instruction → Nat
  | .main index operation => operation.tacts index
  | .bits operation place => operation.tacts place
  | .indexedBits _ operation _ => operation.indexedTacts
  | .extended operation => operation.tacts

/-- Tacts that a taken branch or a repetition adds. -/
def extraTacts : Instruction → Nat
  | .main _ operation => operation.extraTacts
  | .extended operation => operation.extraTacts
  | .bits _ _ | .indexedBits _ _ _ => 0

end Instruction

/-- What an opcode does: select another page, or run an instruction. -/
inductive Role where
  | selector
  | instruction (instruction : Instruction)
deriving DecidableEq, Inhabited

/-- An opcode in its page. -/
structure Entry where
  page : Page
  opcode : Byte
  role : Role
deriving DecidableEq

/-- The role of a main opcode with a register in the place of HL. -/
def Role.ofMain (index : Index) (opcode : Byte) : Role :=
  match Operation.ofOpcode? opcode with
  | some operation => .instruction (.main index operation)
  | none => .selector

/-- The role of an opcode that follows an offset from an index register. -/
def Role.ofIndexedBits (index : Index) (opcode : Byte) : Role :=
  let copy := (Place.ofField (Opcode.source opcode)).register?
  .instruction (.indexedBits index (.ofOpcode opcode) copy)

/-- The role of an opcode in a page. -/
def Page.role (page : Page) (opcode : Byte) : Role :=
  match page with
  | .main => .ofMain .hl opcode
  | .ix => .ofMain .ix opcode
  | .iy => .ofMain .iy opcode
  | .bits => .instruction (.bits (.ofOpcode opcode) (.ofField (Opcode.source opcode)))
  | .ixBits => .ofIndexedBits .ix opcode
  | .iyBits => .ofIndexedBits .iy opcode
  | .extended =>
    match ExtendedOperation.ofOpcode? opcode with
    | some operation => .instruction (.extended operation)
    | none => .selector

/-- The table entry of an opcode. -/
def Page.entry (page : Page) (opcode : Byte) : Entry := ⟨page, opcode, page.role opcode⟩

/-- The offset of an indexed bit instruction stands before its opcode. -/
def Page.displacementFirst : Page → Bool
  | .ixBits | .iyBits => true
  | _ => false

namespace Entry

/-- The bytes that belong to the entry beside its opcode. -/
def operands (entry : Entry) : Operands :=
  match entry.role with
  | .selector => .none
  | .instruction instruction => instruction.operands

/-- Length in bytes, prefixes included; a selecting byte counts alone. -/
def length (entry : Entry) : Nat :=
  match entry.role with
  | .selector => 1
  | .instruction instruction =>
    entry.page.prefixBytes.length + 1 + instruction.operands.size

/-- Tacts if no condition makes the instruction longer. -/
def tacts (entry : Entry) : Nat :=
  match entry.role with
  | .selector => 4
  | .instruction instruction => instruction.tacts

/-- Tacts that a taken branch or a repetition adds. -/
def extraTacts (entry : Entry) : Nat :=
  match entry.role with
  | .selector => 0
  | .instruction instruction => instruction.extraTacts

/-- The time depends on a condition. -/
def isConditional (entry : Entry) : Bool := entry.extraTacts != 0

/-- The bytes of the instruction, with an offset and an immediate where it has them. -/
def encode (entry : Entry) (displacement : Byte) (immediate : Word) : List Byte :=
  entry.page.prefixBytes ++
    if entry.page.displacementFirst then [displacement, entry.opcode]
    else entry.opcode :: entry.operands.encode displacement immediate

end Entry

/-- The opcode, taken as one of the main page, works on the byte that HL points to. -/
def Opcode.usesMemory (opcode : Byte) : Bool :=
  (Operation.ofOpcode? opcode).any Operation.usesMemory

end Z80
