import Z80.Cpu
import Z80.Registers.Names
import Z80.Value

/-!
# Queries by path

The state of the processor is read by path: the name of a register, with an apostrophe for the
alternate bank, a flag after `flags.`, or one of a few names of latches and counts. The names of
the latches are taken in lower case only.
-/

namespace Z80

namespace Flags

/-- The flag with a one-letter name. -/
def named? (flags : Flags) (name : List Char) : Option Bool :=
  match name with
  | ['s'] => some flags.s
  | ['z'] => some flags.z
  | ['y'] => some flags.y
  | ['h'] => some flags.h
  | ['x'] => some flags.x
  | ['p'] => some flags.p
  | ['n'] => some flags.n
  | ['c'] => some flags.c
  | _ => none

end Flags

namespace Cpu

/-- A byte register of a bank as an answer. -/
def queryByte (cpu : Cpu) (name : String) (bank : Bank) : Option Value :=
  match ByteRegister.parse name with
  | .ok register => some (.byte (cpu.registers.getByte register bank))
  | .error _ => none

/-- A word register of a bank as an answer. -/
def queryWord (cpu : Cpu) (name : String) (bank : Bank) : Option Value :=
  match WordRegister.parse name with
  | .ok register => some (.word (cpu.registers.getWord register bank))
  | .error _ => none

/-- The last prefix byte fetched, or zero. -/
def prefixByte (cpu : Cpu) : Byte :=
  (cpu.pending.bind (·.prefixBytes.getLast?)).getD 0

/-- The latches and counts by name. -/
def latches (cpu : Cpu) : List (String × Value) :=
  [("im", .byte cpu.registers.im.number), ("iff1", .bool cpu.registers.iff1),
    ("iff2", .bool cpu.registers.iff2), ("nmi_pending", .bool cpu.nmiPending),
    ("ei", .bool cpu.suppressed), ("halted", .bool cpu.halted), ("prefix", .byte cpu.prefixByte),
    ("q", .byte cpu.written.toByte), ("p", .bool cpu.enableCopied),
    ("block_loop", .bool cpu.looping), ("tacts", .count cpu.total),
    ("step_tacts", .count (BitVec.ofNat 64 cpu.stepTacts)),
    ("last_opcode", .byte cpu.lastOpcode)]

/-- The name before a closing apostrophe. -/
def unprimed? (path : List Char) : Option (List Char) :=
  match path.getLast? with
  | some '\'' => some path.dropLast
  | _ => none

/-- The rest of a path after the word for the flags and its dot. -/
def flagName? (path : List Char) : Option (List Char) :=
  let stem := "flags.".toList
  if stem.isPrefixOf path then some (path.drop stem.length) else none

/-- The answer to a path. -/
def query (cpu : Cpu) (path : String) : Option Value :=
  match flagName? path.toList with
  | some name => (cpu.registers.f.named? name).map .bool
  | none =>
    match unprimed? path.toList with
    | some name =>
      let name := String.ofList name
      -- A single letter names a byte register of the alternate bank, and a longer name a pair.
      if name.utf8ByteSize = 1 then cpu.queryByte name .alternate
      else cpu.queryWord name .alternate
    | none =>
      match cpu.latches.lookup path with
      | some value => some value
      | none => cpu.queryByte path .main <|> cpu.queryWord path .main

/-- The paths that are listed, in order. -/
def queryPaths : List String :=
  ["a", "f", "b", "c", "d", "e", "h", "l", "af", "bc", "de", "hl",
    "a'", "f'", "b'", "c'", "d'", "e'", "h'", "l'", "af'", "bc'", "de'", "hl'",
    "ix", "iy", "ixh", "ixl", "iyh", "iyl", "sp", "pc", "i", "r", "wz",
    "flags.s", "flags.z", "flags.y", "flags.h", "flags.x", "flags.p", "flags.n", "flags.c",
    "iff1", "iff2", "im", "nmi_pending", "ei",
    "halted", "prefix", "q", "p", "block_loop", "tacts", "step_tacts", "last_opcode"]

end Cpu

end Z80
