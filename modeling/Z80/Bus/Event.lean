import Z80.Bus.Program
import Z80.Text.Hex

/-!
# Bus events

What a bus can record of the calls it serves, and how a record is written: a short name, then
addresses with four digits and bytes with two.
-/

namespace Z80

/-- A kind of question in which a register value is replaced. -/
inductive Hook where
  | pointer | byteValue | pairValue | portAddress
deriving DecidableEq, Inhabited

/-- A recorded call. -/
inductive Event where
  | read (access : Access) (address : Word) (value : Byte)
  | write (address : Word) (value : Byte)
  | input (port : Word) (value : Byte)
  | output (port : Word) (value : Byte)
  | dataLines (value : Byte)
  | returned
  | acknowledged (kind : Acknowledgement)
  /-- A register value of sixteen bits and what replaces it. -/
  | replacedWord (hook : Hook) (source : Source) (old new : Word)
  /-- A register value of eight bits and what replaces it. -/
  | replacedByte (hook : Hook) (source : Source) (old new : Byte)
deriving DecidableEq

/-- The short name of a kind of memory read. -/
def Access.mark : Access → String
  | .opcode => "M1"
  | .operand => "RO"
  | .data => "RD"

/-- The full name of a kind of memory read. -/
def Access.name : Access → String
  | .opcode => "Opcode"
  | .operand => "Operand"
  | .data => "Data"

/-- The kind of memory read with a name. -/
def Access.ofName? (name : String) : Option Access :=
  [Access.opcode, .operand, .data].find? (·.name == name)

/-- The name of an acknowledgement. -/
def Acknowledgement.text : Acknowledgement → String
  | .nonMaskable => "NMI"
  | .maskable mode => "IM" ++ Text.Decimal.write mode.toNat

/-- The name of a register whose value is put to work. -/
def Source.name : Source → String
  | .a => "A"
  | .b => "B"
  | .i => "I"
  | .bc => "Bc"
  | .de => "De"
  | .hl => "Hl"
  | .ix => "Ix"
  | .iy => "Iy"
  | .sp => "Sp"

/-- The register with a name. -/
def Source.ofName? (name : String) : Option Source :=
  [Source.a, .b, .i, .bc, .de, .hl, .ix, .iy, .sp].find? (·.name == name)

/-- The short name of a hook. -/
def Hook.name : Hook → String
  | .pointer => "ptr"
  | .byteValue => "reg"
  | .pairValue => "pair"
  | .portAddress => "port"

/-- The hook with a short name. -/
def Hook.ofName? (name : String) : Option Hook :=
  [Hook.pointer, .byteValue, .pairValue, .portAddress].find? (·.name == name)

/-- A word and the byte found there. -/
def cellText (address : Word) (value : Byte) : String :=
  Text.Hex.ofWord address ++ "=" ++ Text.Hex.ofByte value

/-- How an event is written. -/
def Event.text : Event → String
  | .read access address value => access.mark ++ " " ++ cellText address value
  | .write address value => "WR " ++ cellText address value
  | .input port value => "IN " ++ cellText port value
  | .output port value => "OUT " ++ cellText port value
  | .dataLines value => "DL " ++ Text.Hex.ofByte value
  | .returned => "RETI"
  | .acknowledged kind => "ACK " ++ kind.text
  | .replacedWord hook source old new =>
    hook.name ++ " " ++ source.name ++ " " ++ Text.Hex.ofWord old ++ ">" ++ Text.Hex.ofWord new
  | .replacedByte hook source old new =>
    hook.name ++ " " ++ source.name ++ " " ++ Text.Hex.ofByte old ++ ">" ++ Text.Hex.ofByte new

end Z80
