import Z80.Bus.Board

/-!
# A board that replaces register values

A board may put other values to work than the registers hold. Rules say what to do with the value
of a register at a kind of question; all rules that match apply one after the other, and the board
records each question with the old and the new value.
-/

namespace Z80

/-- What a rule does to a value. -/
inductive Change where
  | set | add | xor
deriving DecidableEq, Inhabited

/-- The value after a change. -/
def Change.apply (change : Change) (value operand : Word) : Word :=
  match change with
  | .set => operand
  | .add => value + operand
  | .xor => value ^^^ operand

/-- The change with a name. -/
def Change.ofName? (name : String) : Option Change :=
  [("set", Change.set), ("add", .add), ("xor", .xor)].lookup name

/-- What to do with the value of one register at one kind of question. -/
structure Rule where
  hook : Hook
  source : Source
  change : Change
  operand : Word
deriving DecidableEq

namespace Rule

/-- The rule speaks of this register at this kind of question. -/
def applies (rule : Rule) (hook : Hook) (source : Source) : Bool :=
  rule.hook == hook && rule.source == source

/-- The value after all rules that match. -/
def applyAll (rules : List Rule) (hook : Hook) (source : Source) (value : Word) : Word :=
  rules.foldl (fun value rule =>
    if rule.applies hook source then rule.change.apply value rule.operand else value) value

end Rule

namespace Board

/-- Answer a question about a word, and record it. -/
def replaceWord (rules : List Rule) (hook : Hook) (source : Source) (value : Word)
    (board : Board) : Word × Board :=
  let replaced := Rule.applyAll rules hook source value
  (replaced, board.record (.replacedWord hook source value replaced))

/-- Answer a question about a byte, and record it. The rules work on the byte as a word, of which
the low byte counts. -/
def replaceByte (rules : List Rule) (hook : Hook) (source : Source) (value : Byte)
    (board : Board) : Byte × Board :=
  let replaced := Word.low (Rule.applyAll rules hook source (Word.ofBytes 0 value))
  (replaced, board.record (.replacedByte hook source value replaced))

/-- The bus of a board that replaces register values by rules. -/
def substitutingBus (rules : List Rule) : Bus Board :=
  { bus with
    pointer := replaceWord rules .pointer
    byteValue := replaceByte rules .byteValue
    pairValue := replaceWord rules .pairValue
    portAddress := replaceWord rules .portAddress }

end Board

end Z80
