import Z80.Cpu
import Z80.Document.Registers

/-!
# Snapshots as documents

A snapshot is a record with one field for each latch.
-/

namespace Z80

/-- The variant that names a page. -/
def Page.variant (page : Page) : Variant (names.map Prod.fst) :=
  ⟨page.name, by cases page <;> decide⟩

@[simp] theorem Page.find_variant (page : Page) : page.variant.find = page :=
  Variant.find_of_lookup page.ofName?_name

namespace Snapshot

/-- The fields of a snapshot apart from the registers. -/
def latches : Fields :=
  .ofList
    [("halted", .truth), ("pending_prefix", .optional (.choice (Page.names.map Prod.fst))),
      ("int_blocked", .truth), ("ld_a_ir", .truth), ("q", .byte), ("last_q", .byte),
      ("nmi_pending", .truth), ("in_block_loop", .truth), ("block_loop_before_interrupt", .truth),
      ("last_m1_opcode", .byte), ("last_opcode", .byte), ("total_tacts", .count)]

/-- The fields of a snapshot. -/
def fields : Fields := .cons "registers" (.record Registers.fields) latches

/-- The values of the fields. -/
def toValues (snapshot : Snapshot) : (Shape.record fields).Value :=
  (snapshot.registers.toValues, snapshot.halted, snapshot.pending.map Page.variant,
    snapshot.suppressed, snapshot.enableCopied, snapshot.written.toByte,
    snapshot.writtenBefore.toByte, snapshot.nmiPending, snapshot.looping, snapshot.loopInterrupted,
    snapshot.lastFetched, snapshot.lastOpcode, snapshot.total, ())

/-- The snapshot with these values in its fields. -/
def ofValues : (Shape.record fields).Value → Snapshot
  | (registers, halted, pending, suppressed, enableCopied, written, writtenBefore, nmiPending,
      looping, loopInterrupted, lastFetched, lastOpcode, total, ()) =>
    { registers := .ofValues registers
      halted
      pending := Option.map Variant.find pending
      suppressed, enableCopied
      written := .ofByte written
      writtenBefore := .ofByte writtenBefore
      nmiPending, looping, loopInterrupted, lastFetched, lastOpcode, total }

@[simp] theorem ofValues_toValues (snapshot : Snapshot) :
    ofValues snapshot.toValues = snapshot := by
  have pending : (snapshot.pending.map Page.variant).map Variant.find = snapshot.pending := by
    cases snapshot.pending <;> simp
  simp only [toValues, ofValues, Registers.ofValues_toValues, Flags.ofByte_toByte]
  exact congrArg (fun pending => { snapshot with pending }) pending

variable (codec : Codec)

/-- Write a snapshot. -/
def encode (snapshot : Snapshot) : Document := codec.write (.record fields) snapshot.toValues

/-- Read a snapshot. -/
def decode? (document : Document) : Option Snapshot :=
  (codec.read (.record fields) document).map ofValues

/-- The document of a snapshot. -/
def toDocument (snapshot : Snapshot) : Document := snapshot.encode .plain

/-- The snapshot that a document describes. -/
def ofDocument? (document : Document) : Option Snapshot := decode? .plain document

end Snapshot

end Z80
