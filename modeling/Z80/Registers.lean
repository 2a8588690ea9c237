import Z80.Flags
import Z80.Text.Decimal

/-!
# The register file

The accumulator with its flags and the six general registers each exist in two banks. The index
registers, the stack pointer, the program counter, the address latch WZ and the registers I and R
exist once. Every register can be read and written as a byte or as a pair, and a pair is nothing
but its two bytes.
-/

namespace Z80

/-- How a maskable interrupt is answered. -/
inductive InterruptMode where
  /-- Execute the instruction on the data lines. -/
  | injected
  /-- Restart at a fixed address. -/
  | restart
  /-- Jump through the table that I and the data lines select. -/
  | vectored
deriving DecidableEq, Inhabited

/-- The number that names a mode. -/
def InterruptMode.number : InterruptMode → Byte
  | .injected => 0
  | .restart => 1
  | .vectored => 2

/-- The modes, each with its name. -/
def InterruptMode.names : List (String × InterruptMode) :=
  [("Im0", .injected), ("Im1", .restart), ("Im2", .vectored)]

/-- The name of a mode. -/
def InterruptMode.name : InterruptMode → String
  | .injected => "Im0"
  | .restart => "Im1"
  | .vectored => "Im2"

/-- The mode with a name. -/
def InterruptMode.ofName? (name : String) : Option InterruptMode := names.lookup name

theorem InterruptMode.ofName?_name (mode : InterruptMode) : ofName? mode.name = some mode := by
  cases mode <;> rfl

/-- A number that names no interrupt mode. -/
structure InvalidInterruptMode where
  number : Byte
deriving DecidableEq

/-- The wording of the error. -/
def InvalidInterruptMode.message (error : InvalidInterruptMode) : String :=
  "invalid interrupt mode " ++ Text.Decimal.write error.number.toNat ++ " (expected 0, 1 or 2)"

/-- The mode named by a number. -/
def InterruptMode.ofNumber (number : Byte) : Except InvalidInterruptMode InterruptMode :=
  if number = 0 then .ok .injected
  else if number = 1 then .ok .restart
  else if number = 2 then .ok .vectored
  else .error ⟨number⟩

/-- The two banks of the accumulator and of the general registers. -/
inductive Bank where
  | main | alternate
deriving DecidableEq, Inhabited

/-- The bank that is not this one. -/
def Bank.other : Bank → Bank
  | .main => .alternate
  | .alternate => .main

/-- A register of eight bits, or half of one of sixteen. -/
inductive ByteRegister where
  | a | f | b | c | d | e | h | l | ixh | ixl | iyh | iyl | i | r
deriving DecidableEq, Inhabited

/-- A register or pair of sixteen bits. -/
inductive WordRegister where
  | af | bc | de | hl | ix | iy | sp | pc | wz
deriving DecidableEq, Inhabited

/-- The accumulator and its flags. -/
structure Accumulator where
  a : Byte := 0
  f : Flags := {}
deriving DecidableEq, Inhabited

/-- The six general registers. -/
structure General where
  b : Byte := 0
  c : Byte := 0
  d : Byte := 0
  e : Byte := 0
  h : Byte := 0
  l : Byte := 0
deriving DecidableEq, Inhabited

/-- All registers, the interrupt enables and the interrupt mode. -/
structure Registers where
  accumulator : Accumulator := {}
  accumulatorAlternate : Accumulator := {}
  general : General := {}
  generalAlternate : General := {}
  ix : Word := 0
  iy : Word := 0
  sp : Word := 0
  pc : Word := 0
  /-- Page of the interrupt vector table. -/
  i : Byte := 0
  /-- Refresh counter; its top bit only changes when R is written. -/
  r : Byte := 0
  /-- Internal address latch, seen in the undocumented flags of a bit test on memory. -/
  wz : Word := 0
  /-- Maskable interrupts are accepted. -/
  iff1 : Bool := false
  /-- Copy of the enable that a non-maskable interrupt leaves alone. -/
  iff2 : Bool := false
  im : InterruptMode := .injected
deriving DecidableEq, Inhabited

namespace Accumulator

/-- The pair AF. -/
def af (regs : Accumulator) : Word := Word.ofBytes regs.a regs.f.toByte

/-- The accumulator and flags held by a word. -/
def ofWord (word : Word) : Accumulator := ⟨Word.high word, Flags.ofByte (Word.low word)⟩

end Accumulator

namespace General

/-- The pair BC. -/
def bc (regs : General) : Word := Word.ofBytes regs.b regs.c

/-- The pair DE. -/
def de (regs : General) : Word := Word.ofBytes regs.d regs.e

/-- The pair HL. -/
def hl (regs : General) : Word := Word.ofBytes regs.h regs.l

/-- Write the pair BC. -/
def setBC (regs : General) (word : Word) : General :=
  { regs with b := Word.high word, c := Word.low word }

/-- Write the pair DE. -/
def setDE (regs : General) (word : Word) : General :=
  { regs with d := Word.high word, e := Word.low word }

/-- Write the pair HL. -/
def setHL (regs : General) (word : Word) : General :=
  { regs with h := Word.high word, l := Word.low word }

end General

namespace Registers

/-- The main accumulator. -/
abbrev a (regs : Registers) : Byte := regs.accumulator.a

/-- The main flags. -/
abbrev f (regs : Registers) : Flags := regs.accumulator.f

/-- The main pair AF. -/
abbrev af (regs : Registers) : Word := regs.accumulator.af

/-- The main pair BC. -/
abbrev bc (regs : Registers) : Word := regs.general.bc

/-- The main pair DE. -/
abbrev de (regs : Registers) : Word := regs.general.de

/-- The main pair HL. -/
abbrev hl (regs : Registers) : Word := regs.general.hl

/-- Write the main accumulator. -/
def setA (regs : Registers) (byte : Byte) : Registers :=
  { regs with accumulator := { regs.accumulator with a := byte } }

/-- Write the main flags. -/
def setF (regs : Registers) (flags : Flags) : Registers :=
  { regs with accumulator := { regs.accumulator with f := flags } }

/-- Write the main pair AF. -/
def setAF (regs : Registers) (word : Word) : Registers :=
  { regs with accumulator := .ofWord word }

/-- Write the main pair BC. -/
def setBC (regs : Registers) (word : Word) : Registers :=
  { regs with general := regs.general.setBC word }

/-- Write the main pair DE. -/
def setDE (regs : Registers) (word : Word) : Registers :=
  { regs with general := regs.general.setDE word }

/-- Write the main pair HL. -/
def setHL (regs : Registers) (word : Word) : Registers :=
  { regs with general := regs.general.setHL word }

/-- The accumulator and flags of a bank. -/
def accumulatorOf (regs : Registers) : Bank → Accumulator
  | .main => regs.accumulator
  | .alternate => regs.accumulatorAlternate

/-- The general registers of a bank. -/
def generalOf (regs : Registers) : Bank → General
  | .main => regs.general
  | .alternate => regs.generalAlternate

/-- Change the accumulator and flags of a bank. -/
def updateAccumulator (regs : Registers) (bank : Bank) (change : Accumulator → Accumulator) :
    Registers :=
  match bank with
  | .main => { regs with accumulator := change regs.accumulator }
  | .alternate => { regs with accumulatorAlternate := change regs.accumulatorAlternate }

/-- Change the general registers of a bank. -/
def updateGeneral (regs : Registers) (bank : Bank) (change : General → General) : Registers :=
  match bank with
  | .main => { regs with general := change regs.general }
  | .alternate => { regs with generalAlternate := change regs.generalAlternate }

/-- Read a byte register. Only the accumulator, the flags and the general registers heed the
bank. -/
def getByte (regs : Registers) (register : ByteRegister) (bank : Bank) : Byte :=
  match register with
  | .a => (regs.accumulatorOf bank).a
  | .f => (regs.accumulatorOf bank).f.toByte
  | .b => (regs.generalOf bank).b
  | .c => (regs.generalOf bank).c
  | .d => (regs.generalOf bank).d
  | .e => (regs.generalOf bank).e
  | .h => (regs.generalOf bank).h
  | .l => (regs.generalOf bank).l
  | .ixh => Word.high regs.ix
  | .ixl => Word.low regs.ix
  | .iyh => Word.high regs.iy
  | .iyl => Word.low regs.iy
  | .i => regs.i
  | .r => regs.r

/-- Write a byte register. -/
def setByte (regs : Registers) (register : ByteRegister) (bank : Bank) (byte : Byte) :
    Registers :=
  match register with
  | .a => regs.updateAccumulator bank ({ · with a := byte })
  | .f => regs.updateAccumulator bank ({ · with f := .ofByte byte })
  | .b => regs.updateGeneral bank ({ · with b := byte })
  | .c => regs.updateGeneral bank ({ · with c := byte })
  | .d => regs.updateGeneral bank ({ · with d := byte })
  | .e => regs.updateGeneral bank ({ · with e := byte })
  | .h => regs.updateGeneral bank ({ · with h := byte })
  | .l => regs.updateGeneral bank ({ · with l := byte })
  | .ixh => { regs with ix := Word.withHigh regs.ix byte }
  | .ixl => { regs with ix := Word.withLow regs.ix byte }
  | .iyh => { regs with iy := Word.withHigh regs.iy byte }
  | .iyl => { regs with iy := Word.withLow regs.iy byte }
  | .i => { regs with i := byte }
  | .r => { regs with r := byte }

/-- Read a word register. Only AF, BC, DE and HL heed the bank. -/
def getWord (regs : Registers) (register : WordRegister) (bank : Bank) : Word :=
  match register with
  | .af => (regs.accumulatorOf bank).af
  | .bc => (regs.generalOf bank).bc
  | .de => (regs.generalOf bank).de
  | .hl => (regs.generalOf bank).hl
  | .ix => regs.ix
  | .iy => regs.iy
  | .sp => regs.sp
  | .pc => regs.pc
  | .wz => regs.wz

/-- Write a word register. -/
def setWord (regs : Registers) (register : WordRegister) (bank : Bank) (word : Word) :
    Registers :=
  match register with
  | .af => regs.updateAccumulator bank fun _ => .ofWord word
  | .bc => regs.updateGeneral bank (·.setBC word)
  | .de => regs.updateGeneral bank (·.setDE word)
  | .hl => regs.updateGeneral bank (·.setHL word)
  | .ix => { regs with ix := word }
  | .iy => { regs with iy := word }
  | .sp => { regs with sp := word }
  | .pc => { regs with pc := word }
  | .wz => { regs with wz := word }

/-- Exchange the two banks of AF. -/
def swapAccumulator (regs : Registers) : Registers :=
  { regs with
    accumulator := regs.accumulatorAlternate
    accumulatorAlternate := regs.accumulator }

/-- Exchange the two banks of BC, DE and HL. -/
def swapGeneral (regs : Registers) : Registers :=
  { regs with
    general := regs.generalAlternate
    generalAlternate := regs.general }

/-- Count the refresh register up by one. Its top bit stays. -/
def refresh (regs : Registers) : Registers :=
  { regs with r := (regs.r &&& 0x80) ||| ((regs.r + 1) &&& 0x7F) }

end Registers

end Z80
