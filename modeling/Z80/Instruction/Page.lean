import Z80.Word

/-!
# Opcode pages

Seven pages of 256 opcodes. Prefix bytes select a page, one byte at a time: a later index prefix
replaces an earlier one, and the extended page keeps itself when its own prefix is repeated.
-/

namespace Z80

/-- One of the seven opcode pages. -/
inductive Page where
  | main | bits | ix | iy | extended | ixBits | iyBits
deriving DecidableEq, Inhabited

namespace Page

/-- The shortest run of prefix bytes that selects the page. -/
def prefixBytes : Page → List Byte
  | .main => []
  | .bits => [0xCB]
  | .ix => [0xDD]
  | .iy => [0xFD]
  | .extended => [0xED]
  | .ixBits => [0xDD, 0xCB]
  | .iyBits => [0xFD, 0xCB]

/-- The page selected by a prefix byte fetched in this one. Other bytes leave it as it is. -/
def next (page : Page) (byte : Byte) : Page :=
  if byte = 0xCB then
    match page with
    | .ix => .ixBits
    | .iy => .iyBits
    | _ => .bits
  else if byte = 0xDD then .ix
  else if byte = 0xFD then .iy
  else if byte = 0xED then .extended
  else page

/-- Tacts spent on the shortest run of prefix bytes. -/
def prefixTacts (page : Page) : Nat := 4 * page.prefixBytes.length

/-- The pages, each with its name. -/
def names : List (String × Page) :=
  [("Plain", .main), ("Cb", .bits), ("Dd", .ix), ("Fd", .iy), ("Ed", .extended),
    ("DdCb", .ixBits), ("FdCb", .iyBits)]

/-- The name of a page. -/
def name : Page → String
  | .main => "Plain"
  | .bits => "Cb"
  | .ix => "Dd"
  | .iy => "Fd"
  | .extended => "Ed"
  | .ixBits => "DdCb"
  | .iyBits => "FdCb"

/-- The page with a name. -/
def ofName? (name : String) : Option Page := names.lookup name

theorem ofName?_name (page : Page) : ofName? page.name = some page := by
  cases page <;> rfl

end Page

end Z80
