import Z80.Cpu.Display
import Z80.Cpu.Step

/-!
# The log

Resets, accepted interrupts and halts are logged for debugging. A full trace also has one line for
each step, with its time and the state it leaves.
-/

namespace Z80

/-- How much is logged. -/
inductive LogLevel where
  | debug | trace
deriving DecidableEq

/-- Something that is logged. -/
inductive LogRecord where
  | reset
  | nonMaskable
  | maskable (mode : InterruptMode)
  | halt (address : Word)
  | step (tacts : Nat) (state : String)
deriving DecidableEq

namespace LogRecord

/-- The least level at which the record is logged. -/
def level : LogRecord → LogLevel
  | .step _ _ => .trace
  | _ => .debug

/-- The wording of the record. -/
def message : LogRecord → String
  | .reset => "Z80 reset"
  | .nonMaskable => "NMI accepted"
  | .maskable mode => "INT accepted in IM " ++ Text.Decimal.write mode.number.toNat
  | .halt address => "HALT at " ++ Text.Hex.ofWord address
  | .step tacts state =>
    (if tacts < 10 then " " else "") ++ Text.Decimal.write tacts ++ "T " ++ state

/-- The record with its level in front. -/
def text (record : LogRecord) : String :=
  (match record.level with
    | .debug => "DEBUG "
    | .trace => "TRACE ") ++ record.message

end LogRecord

/-- The record is logged at the level. -/
def LogLevel.admits (level : LogLevel) (record : LogRecord) : Bool :=
  level == .trace || record.level == .debug

/-- What a step logs, given the processor after it. -/
def Segment.records (segment : Segment) (cpu : Cpu) : List LogRecord :=
  let events : List LogRecord :=
    match segment with
    | .reset => [.reset]
    | .nonMaskable => [.nonMaskable]
    | .injectedSelector _ | .injected _ _ => [.maskable .injected]
    | .restarted => [.maskable .restart]
    | .vectored => [.maskable .vectored]
    | .instruction page _ _ =>
      if cpu.halted && !page.displacementFirst then [.halt (cpu.registers.pc - 1)] else []
    | .stalled | .idle | .selector _ _ => []
  events ++ [.step segment.tacts cpu.stateText]

/-- The lines that a step adds to a log of the given level. -/
def Segment.logLines (level : LogLevel) (segment : Segment) (cpu : Cpu) : List String :=
  ((segment.records cpu).filter level.admits).map LogRecord.text

end Z80
