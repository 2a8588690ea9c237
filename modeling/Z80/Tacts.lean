import Z80.Text.Decimal

/-!
# Tacts

A tact is one tick of the clock. Counts of tacts have sixty-four bits: they wrap when they grow,
and the time between two readings is never negative.
-/

namespace Z80

/-- A count of tacts. -/
abbrev Tacts := BitVec 64

namespace Tacts

/-- The count after some more tacts. -/
def after (count : Tacts) (tacts : Nat) : Tacts := count + BitVec.ofNat 64 tacts

/-- The tacts from an earlier reading to a later one, or none if the readings are the other way
round. -/
def since (later earlier : Tacts) : Tacts := if earlier ≤ later then later - earlier else 0

/-- The count that a decimal text stands for, if it has one. -/
def ofText? (text : String) : Option Tacts :=
  (Text.Decimal.read? text).bind fun value =>
    if value < UInt64.size then some (BitVec.ofNat 64 value) else none

/-- The decimal text of a count. -/
def text (count : Tacts) : String := Text.Decimal.write count.toNat

theorem ofText?_text (count : Tacts) : ofText? count.text = some count := by
  have held : count.toNat < UInt64.size := count.isLt
  simp [ofText?, text, Text.Decimal.read?_write, held]

end Tacts

end Z80
