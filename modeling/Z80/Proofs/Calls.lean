import Z80.Bus.Program

/-!
# What a list of calls shows

The calls of a computation are read in a few ways: which interrupts were acknowledged, which bytes
were taken from the instruction stream and where, which bytes of data were read, and whether a call
is an access to data or to a port.
-/

namespace Z80

namespace Exchange

/-- What the call acknowledges, if it acknowledges an interrupt. -/
@[simp] def acknowledgement? : Exchange → Option Acknowledgement
  | ⟨.acknowledge kind, _⟩ => some kind
  | _ => none

/-- The address and the byte, if the call reads the instruction stream. -/
@[simp] def streamRead? : Exchange → Option (Word × Byte)
  | ⟨.read address .opcode, byte⟩ => some (address, byte)
  | ⟨.read address .operand, byte⟩ => some (address, byte)
  | _ => none

/-- The byte, if the call reads data. -/
@[simp] def dataRead? : Exchange → Option Byte
  | ⟨.read _ .data, byte⟩ => some byte
  | _ => none

/-- The call is an access to data or to a port. -/
@[simp] def isAccess : Exchange → Bool
  | ⟨.read _ .data, _⟩ | ⟨.write _ _, _⟩ | ⟨.input _, _⟩ | ⟨.output _ _, _⟩ => true
  | _ => false

end Exchange

/-- The interrupts that the calls acknowledge, in order. -/
def acknowledgements (calls : List Exchange) : List Acknowledgement :=
  calls.filterMap Exchange.acknowledgement?

/-- The addresses and bytes that the calls read from the instruction stream, in order. -/
def streamReads (calls : List Exchange) : List (Word × Byte) :=
  calls.filterMap Exchange.streamRead?

/-- The bytes of data that the calls read, in order. -/
def dataReads (calls : List Exchange) : List Byte := calls.filterMap Exchange.dataRead?

/-- The bytes that the calls read from the instruction stream, in order. -/
def streamBytes (calls : List Exchange) : List Byte := (streamReads calls).map Prod.snd

/-- Bytes with the addresses they have when they stand one after the other, from an address upwards
and around the top. -/
@[simp] def placed (origin : Word) : List Byte → List (Word × Byte)
  | [] => []
  | byte :: rest => (origin, byte) :: placed (origin + 1) rest

/-- No call reads the instruction stream after an access to data or to a port. -/
@[simp] def StreamFirst : List Exchange → Prop
  | [] => True
  | call :: later => (call.isAccess = true → streamReads later = []) ∧ StreamFirst later

variable (call : Exchange) (calls more : List Exchange)

@[simp] theorem acknowledgements_nil : acknowledgements [] = [] := rfl

@[simp] theorem acknowledgements_cons :
    acknowledgements (call :: calls) =
      call.acknowledgement?.toList ++ acknowledgements calls := by
  rw [acknowledgements, List.filterMap_cons]
  cases call.acknowledgement? <;> rfl

@[simp] theorem acknowledgements_append :
    acknowledgements (calls ++ more) = acknowledgements calls ++ acknowledgements more :=
  List.filterMap_append

@[simp] theorem streamReads_nil : streamReads [] = [] := rfl

@[simp] theorem streamReads_cons :
    streamReads (call :: calls) = call.streamRead?.toList ++ streamReads calls := by
  rw [streamReads, List.filterMap_cons]
  cases call.streamRead? <;> rfl

@[simp] theorem streamReads_append :
    streamReads (calls ++ more) = streamReads calls ++ streamReads more :=
  List.filterMap_append

theorem streamBytes_cons :
    streamBytes (call :: calls) = call.streamRead?.toList.map Prod.snd ++ streamBytes calls := by
  simp [streamBytes]

@[simp] theorem dataReads_nil : dataReads [] = [] := rfl

@[simp] theorem dataReads_cons :
    dataReads (call :: calls) = call.dataRead?.toList ++ dataReads calls := by
  rw [dataReads, List.filterMap_cons]
  cases call.dataRead? <;> rfl

@[simp] theorem dataReads_append :
    dataReads (calls ++ more) = dataReads calls ++ dataReads more :=
  List.filterMap_append

theorem map_snd_placed (origin : Word) (bytes : List Byte) :
    (placed origin bytes).map Prod.snd = bytes := by
  induction bytes generalizing origin with
  | nil => rfl
  | cons byte bytes ih => rw [placed, List.map_cons, ih]

theorem length_placed (origin : Word) (bytes : List Byte) :
    (placed origin bytes).length = bytes.length := by
  rw [← List.length_map, map_snd_placed]

theorem streamFirst_cons :
    StreamFirst (call :: calls) ↔
      (call.isAccess = true → streamReads calls = []) ∧ StreamFirst calls := Iff.rfl

end Z80
