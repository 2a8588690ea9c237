import Z80.Bus.Event
import Z80.Memory

/-!
# A flat board

Memory over the whole address space, a fixed byte to be read from every port, a byte on the data
lines, and lists of what was written to ports and of the notices received. A board can also keep a
journal of every call.

## Main definitions

* `Board.bus`: the board as a bus that serves every request
* `Board.bareBus`: the board behind a bus that serves memory and ports only
-/

namespace Z80

/-- The state of a board. Lists hold the newest entry first. -/
structure Board where
  memory : Memory := .filled 0
  ports : Memory := .filled 0xFF
  dataLines : Byte := 0xFF
  /-- The recorded events, if a journal is kept. -/
  journal : Option (List Event) := none
  outputs : List (Word × Byte) := []
  returns : Nat := 0
  acknowledged : List Acknowledgement := []

namespace Board

/-- A board with clear memory and ports that float high. -/
def fresh : Board := {}

/-- Write bytes to memory one after the other, around the top. -/
def load (board : Board) (address : Word) (bytes : List Byte) : Board :=
  { board with memory := board.memory.load address bytes }

/-- The byte at an address. -/
def peek (board : Board) (address : Word) : Byte := board.memory.read address

/-- Write one byte to memory. -/
def poke (board : Board) (address : Word) (value : Byte) : Board :=
  { board with memory := board.memory.write address value }

/-- Set the byte that a port gives. -/
def setPort (board : Board) (port : Word) (value : Byte) : Board :=
  { board with ports := board.ports.write port value }

/-- Set the byte on the data lines. -/
def setDataLines (board : Board) (value : Byte) : Board := { board with dataLines := value }

/-- Start an empty journal. -/
def startJournal (board : Board) : Board := { board with journal := some [] }

/-- The recorded events in order; none if no journal is kept. -/
def events (board : Board) : List Event := (board.journal.getD []).reverse

/-- Empty the journal, and go on keeping it if it was kept. -/
def clearJournal (board : Board) : Board :=
  { board with journal := board.journal.map fun _ => [] }

/-- Add an event to the journal if one is kept. -/
def record (board : Board) (event : Event) : Board :=
  match board.journal with
  | some events => { board with journal := some (event :: events) }
  | none => board

/-- Read memory for the machine. -/
def read (address : Word) (access : Access) (board : Board) : Byte × Board :=
  let value := board.peek address
  (value, board.record (.read access address value))

/-- Write memory for the machine. -/
def write (address : Word) (value : Byte) (board : Board) : Board :=
  (board.poke address value).record (.write address value)

/-- Read a port for the machine. -/
def input (port : Word) (board : Board) : Byte × Board :=
  let value := board.ports.read port
  (value, board.record (.input port value))

/-- Write a port for the machine. -/
def output (port : Word) (value : Byte) (board : Board) : Board :=
  Board.record { board with outputs := (port, value) :: board.outputs } (.output port value)

/-- Give the machine the byte on the data lines. -/
def readDataLines (board : Board) : Byte × Board :=
  (board.dataLines, board.record (.dataLines board.dataLines))

/-- Take the notice that RETI has run. -/
def noteReturn (board : Board) : Board :=
  Board.record { board with returns := board.returns + 1 } .returned

/-- Take the notice of an acknowledgement. -/
def acknowledge (kind : Acknowledgement) (board : Board) : Board :=
  Board.record { board with acknowledged := kind :: board.acknowledged } (.acknowledged kind)

/-- The bus of a board that serves memory and ports only. -/
def bareBus : Bus Board where
  read := read
  write := write
  input := input
  output := output

/-- The bus of a board. Register values stand as they are. -/
def bus : Bus Board :=
  { bareBus with
    dataLines := readDataLines
    returned := noteReturn
    acknowledge := acknowledge }

end Board

end Z80
