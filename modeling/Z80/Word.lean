/-!
# Bytes and words

The machine computes with bytes and with sixteen-bit words, and both wrap. A word is a high byte
followed by a low byte, and in memory the low byte comes first. A byte also serves as a signed
displacement.
-/

namespace Z80

/-- Eight bits, wrapping. -/
abbrev Byte := BitVec 8

/-- Sixteen bits, wrapping: an address, a port or a register pair. -/
abbrev Word := BitVec 16

namespace Word

/-- The word with the given high and low bytes. -/
def ofBytes (high low : Byte) : Word := high ++ low

/-- Bits 8 to 15. -/
def high (word : Word) : Byte := word.extractLsb' 8 8

/-- Bits 0 to 7. -/
def low (word : Word) : Byte := word.extractLsb' 0 8

/-- The word with its high byte replaced. -/
def withHigh (word : Word) (byte : Byte) : Word := ofBytes byte (low word)

/-- The word with its low byte replaced. -/
def withLow (word : Word) (byte : Byte) : Word := ofBytes (high word) byte

/-- The word moved by a signed byte. -/
def displaced (word : Word) (offset : Byte) : Word := word + offset.signExtend 16

theorem toNat_ofBytes (upper lower : Byte) :
    (ofBytes upper lower).toNat = upper.toNat * 256 + lower.toNat := by
  rw [ofBytes, BitVec.toNat_append, ← Nat.shiftLeft_add_eq_or_of_lt lower.isLt, Nat.shiftLeft_eq]

theorem toNat_high (word : Word) : (high word).toNat = word.toNat / 256 := by
  have bound := word.isLt
  simp only [high, BitVec.extractLsb'_toNat, Nat.shiftRight_eq_div_pow]
  omega

theorem toNat_low (word : Word) : (low word).toNat = word.toNat % 256 := by
  simp [low, BitVec.extractLsb'_toNat]

@[simp] theorem high_ofBytes (upper lower : Byte) : high (ofBytes upper lower) = upper := by
  apply BitVec.eq_of_toNat_eq
  have bound := lower.isLt
  rw [toNat_high, toNat_ofBytes]
  omega

@[simp] theorem low_ofBytes (upper lower : Byte) : low (ofBytes upper lower) = lower := by
  apply BitVec.eq_of_toNat_eq
  have bound := lower.isLt
  rw [toNat_low, toNat_ofBytes]
  omega

@[simp] theorem ofBytes_high_low (word : Word) : ofBytes (high word) (low word) = word := by
  apply BitVec.eq_of_toNat_eq
  rw [toNat_ofBytes, toNat_high, toNat_low]
  omega

theorem add_ofNat_succ (word : Word) (count : Nat) :
    word + BitVec.ofNat 16 (count + 1) = word + 1 + BitVec.ofNat 16 count := by
  rw [BitVec.ofNat_add, BitVec.add_comm (BitVec.ofNat 16 count), BitVec.add_assoc]
  rfl

/-- Every address lies some distance behind an origin, around the top. -/
theorem add_ofNat_distance (origin address : Word) :
    origin + BitVec.ofNat 16 (address - origin).toNat = address := by
  rw [BitVec.ofNat_toNat, BitVec.setWidth_eq, BitVec.add_comm, BitVec.sub_add_cancel]

/-- Words with the same two bytes are the same. -/
theorem ext_bytes {word other : Word} (upper : high word = high other)
    (lower : low word = low other) : word = other := by
  rw [← ofBytes_high_low word, upper, lower, ofBytes_high_low]

end Word

end Z80
