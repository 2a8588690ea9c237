import Z80.Proofs.Alignment
import Z80.Proofs.Suppression

/-!
# Reset

A reset makes the processor a fresh one but for the general registers of both banks, the index
registers, WZ, the time and the opcodes that were seen last. Nothing else of what went on before
comes through it: no latch, no output and no tact that is still owed. RESET on an instruction
boundary does the same in three tacts and without a call to the bus, whatever the other lines are.

## Main definitions

* `Retained`: the parts of a processor that a reset leaves alone
* `Retained.renewed`: a fresh processor with these parts put into it
* `Cpu.Resets`: the next step resets the processor

## Main results

* `Cpu.reset_eq`, `Cpu.reset_eq_reset_iff`: what a reset leaves depends on the retained parts alone
* `Exec.step_of_resets`: RESET on a boundary
* `Exec.reset_erases_history`: behind a reset, processors with the same retained parts are the same
* `Exec.reset_inStep`: to the program only the retained registers make a difference
-/

namespace Z80

/-! ### What a reset retains -/

/-- The parts of a processor that a reset leaves alone. -/
structure Retained where
  general : General
  generalAlternate : General
  ix : Word
  iy : Word
  wz : Word
  total : Tacts
  lastFetched : Byte
  lastOpcode : Byte
deriving DecidableEq

/-- The parts of the processor that a reset leaves alone. -/
def Cpu.retained (cpu : Cpu) : Retained where
  general := cpu.registers.general
  generalAlternate := cpu.registers.generalAlternate
  ix := cpu.registers.ix
  iy := cpu.registers.iy
  wz := cpu.registers.wz
  total := cpu.total
  lastFetched := cpu.lastFetched
  lastOpcode := cpu.lastOpcode

/-- A fresh processor with the retained parts put into it. -/
def Retained.renewed (retained : Retained) : Cpu :=
  { Cpu.fresh with
    registers :=
      { Cpu.fresh.registers with
        general := retained.general
        generalAlternate := retained.generalAlternate
        ix := retained.ix
        iy := retained.iy
        wz := retained.wz }
    total := retained.total
    lastFetched := retained.lastFetched
    lastOpcode := retained.lastOpcode }

namespace Cpu

variable {cpu other : Cpu} {lines : Lines}

/-- A reset makes a fresh processor out of the retained parts. -/
theorem reset_eq (cpu : Cpu) : cpu.reset = cpu.retained.renewed := rfl

theorem retained_reset (cpu : Cpu) : cpu.reset.retained = cpu.retained := rfl

/-- Two processors are the same after a reset exactly if they had the same parts retained. -/
theorem reset_eq_reset_iff : cpu.reset = other.reset ↔ cpu.retained = other.retained := by
  constructor
  · intro same
    rw [← retained_reset cpu, same, retained_reset]
  · intro agree
    rw [reset_eq, agree, ← reset_eq]

/-! ### The line -/

/-- The next step resets the processor: RESET is asserted on a boundary and WAIT is not. -/
structure Resets (cpu : Cpu) (lines : Lines) : Prop where
  asserted : lines.reset = true
  running : lines.wait = false
  boundary : cpu.pending = none

theorem Resets.turn (resets : cpu.Resets lines) : (cpu.ready lines).turn lines = .reset :=
  turn_eq_reset_iff.mpr ⟨resets.running, resets.boundary, resets.asserted⟩

/-- The processor after a reset by the line, which takes three tacts. -/
def restarted (cpu : Cpu) : Cpu :=
  { cpu.reset with stepTacts := 3, total := cpu.total.after 3 }

/-- Reset by the line, two processors are the same if they had the same parts retained. -/
theorem restarted_eq (agree : cpu.retained = other.retained) :
    cpu.restarted = other.restarted := by
  have time : cpu.total = other.total := congrArg Retained.total agree
  rw [restarted, restarted, reset_eq_reset_iff.mpr agree, time]

end Cpu

namespace Exec

variable {σ α : Type} {cpu other : Cpu} {lines : Lines}

/-- A step that resets the processor makes no call. NMI in the same step is forgotten, and so is
all that the step notes before it looks at RESET. -/
theorem step_of_resets (resets : cpu.Resets lines) :
    step lines cpu = .done (.reset, cpu.restarted) := by
  rw [step_apply, resets.turn]
  rfl

/-- Two processors that agree in the general registers of both banks, the index registers, WZ, the
time and the opcodes seen last, and differ in anything else, are brought to the same state by a
reset, with these parts unchanged. RESET on a boundary makes no call to the bus and leaves what a
reset leaves, three tacts later. From there on whatever is run does the same from both. -/
theorem reset_erases_history (bus : Bus σ) (device : σ) {cpu other : Cpu}
    (agree : cpu.retained = other.retained) (later : List (Exec α)) :
    cpu.reset = other.reset ∧ cpu.reset.retained = cpu.retained ∧
      watch bus later cpu.reset device = watch bus later other.reset device ∧
      ∀ lines others, cpu.Resets lines → other.Resets others →
        let stepped := runOn (step lines) bus cpu device
        let otherwise := runOn (step others) bus other device
        callsOn (step lines) bus cpu device = [] ∧
          stepped =
            ⟨.reset, { cpu.reset with stepTacts := 3, total := cpu.total.after 3 }, device⟩ ∧
          watch bus later stepped.cpu stepped.device =
            watch bus later otherwise.cpu otherwise.device := by
  have same := Cpu.reset_eq_reset_iff.mpr agree
  refine ⟨same, cpu.retained_reset, by rw [same], ?_⟩
  intro lines others resets otherResets stepped otherwise
  have here : stepped = ⟨.reset, cpu.restarted, device⟩ := by
    simp only [stepped, runOn, step_of_resets resets]
    rfl
  have there : otherwise = ⟨.reset, other.restarted, device⟩ := by
    simp only [otherwise, runOn, step_of_resets otherResets]
    rfl
  refine ⟨?_, here, ?_⟩
  · rw [callsOn, step_of_resets resets]
    rfl
  · rw [here, there, Cpu.restarted_eq agree]

/-- A halted processor in the middle of a tick, with a block instruction behind it and NMI both
noted and asserted, against a fresh one: reset by the line they are the same, and so is the NOP that
each of them runs next. -/
theorem reset_erases_halt :
    let halted : Cpu :=
      { Cpu.fresh with
        registers := { Cpu.fresh.registers with pc := 0x1234, sp := 0x8000, r := 0x7F, iff1 := true }
        halted := true
        enableCopied := true
        written := { s := true }
        nmiPending := true
        looping := true
        loopInterrupted := true
        outputs := { m1 := true, halt := true }
        stepTacts := 11
        backlog := 7 }
    let stepped := runOn (step { reset := true, nmi := true }) Board.bus halted Board.fresh
    let otherwise := runOn (step { reset := true }) Board.bus Cpu.fresh Board.fresh
    halted.retained = Cpu.fresh.retained ∧ halted.Resets { reset := true, nmi := true } ∧
      Cpu.fresh.Resets { reset := true } ∧ halted.reset = Cpu.fresh.reset ∧
      stepped.cpu.stepTacts = 3 ∧ stepped.cpu.total = 3 ∧ stepped.cpu.nmiPending = false ∧
      watch Board.bus [step {}] stepped.cpu stepped.device =
        watch Board.bus [step {}] otherwise.cpu otherwise.device := by
  intro halted stepped otherwise
  have agree : halted.retained = Cpu.fresh.retained := rfl
  have resets : halted.Resets { reset := true, nmi := true } := ⟨rfl, rfl, rfl⟩
  have otherResets : Cpu.fresh.Resets { reset := true } := ⟨rfl, rfl, rfl⟩
  obtain ⟨same, -, -, behind⟩ := reset_erases_history Board.bus Board.fresh agree [step {}]
  obtain ⟨-, after, run⟩ := behind _ _ resets otherResets
  have left : stepped.cpu = { halted.reset with stepTacts := 3, total := halted.total.after 3 } :=
    congrArg Result.cpu after
  exact ⟨agree, resets, otherResets, same, by rw [left], by rw [left]; rfl, by rw [left]; rfl, run⟩

/-- To a program the time and the opcodes seen last make no difference: processors whose registers
are the same after a reset run in step from there. -/
theorem reset_inStep (bus : Bus σ) (device : σ)
    (agree : cpu.reset.registers = other.reset.registers) (all : List Lines) :
    InStep bus cpu.reset other.reset device all := by
  apply inStep_of_notes
  rw [Cpu.amend, Cpu.amend, agree]
  rfl

end Exec

end Z80
