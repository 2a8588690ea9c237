import Z80.Bus.Board
import Z80.Proofs.Runs
import Z80.Proofs.Step

/-!
# Interrupts that are accepted

A step tells the bus of an interrupt exactly if it accepts one, and it accepts one exactly if the
lines and latches say so. Maskable interrupts are barred from a reset, an acceptance or DI up to the
end of the next EI, RETN or RETI, whatever drives the machine: as long as they are barred, the
enable of maskable interrupts is clear.

## Main definitions

* `Barred`: maskable interrupts are barred at the end of a trace
* `Respected`: a trace accepts no maskable interrupt while they are barred
* `Cpu.Guarded`: the enable is clear as long as they are barred

## Main results

* `Exec.step_guarded`, `Exec.traceAll_guarded`: what a step and a run keep
* `Exec.acceptance_exact`: interrupts are accepted exactly when they are to be
-/

namespace Z80

/-! ### Traces -/

/-- Maskable interrupts are barred at the end of a trace: since it began, or since a segment that
masks them, no segment has completed EI, RETN or RETI. -/
def Barred (trace : List Segment) : Prop :=
  ∃ early late, trace = early ++ late ∧
    (early = [] ∨ ∃ last ∈ early.getLast?, last.masks = true ∧ last.unmasks = false) ∧
    ∀ segment ∈ late, segment.unmasks = false

/-- No segment of a trace accepts a maskable interrupt while they are barred. -/
def Respected (trace : List Segment) : Prop :=
  ∀ early accepted late, trace = early ++ accepted :: late → Barred early →
    ∀ mode, accepted.acknowledgement? ≠ some (.maskable mode)

variable {trace : List Segment} {segment : Segment}

/-- After one more segment, interrupts are barred only if it masks them or they were barred. -/
theorem Barred.of_concat (barred : Barred (trace ++ [segment])) :
    segment.unmasks = false ∧ (segment.masks = true ∨ Barred trace) := by
  obtain ⟨early, late, split, since, quiet⟩ := barred
  -- The last segment either ends the early part itself, or it is the end of the late part.
  rcases List.eq_nil_or_concat late with rfl | ⟨late, last, rfl⟩
  · rw [List.append_nil] at split
    subst split
    rcases since with empty | ⟨last, isLast, masks, silent⟩
    · simp at empty
    · simp only [List.getLast?_concat, Option.mem_some_iff] at isLast
      subst isLast
      exact ⟨silent, .inl masks⟩
  · rw [List.concat_eq_append, ← List.append_assoc] at split
    obtain ⟨rfl, same⟩ := List.append_inj' split rfl
    cases same
    refine ⟨quiet _ (by simp), .inr ⟨early, late, rfl, since, ?_⟩⟩
    intro segment among
    exact quiet segment (by simp [among])

theorem respected_nil : Respected [] := by
  intro early accepted late split
  simp at split

/-- A trace goes on being respected if the next segment accepts nothing that is barred. -/
theorem Respected.concat (respected : Respected trace)
    (fair : Barred trace → ∀ mode, segment.acknowledgement? ≠ some (.maskable mode)) :
    Respected (trace ++ [segment]) := by
  intro early accepted late split barred
  rcases List.eq_nil_or_concat late with rfl | ⟨late, last, rfl⟩
  · obtain ⟨rfl, same⟩ := List.append_inj' split rfl
    cases same
    exact fair barred
  · have shifted :
        early ++ accepted :: late.concat last = (early ++ accepted :: late) ++ [last] := by
      simp
    rw [shifted] at split
    exact respected early accepted late (List.append_inj' split rfl).1 barred

/-- The trace so far is respected, and the enable is clear as long as interrupts are barred. -/
structure Cpu.Guarded (cpu : Cpu) (trace : List Segment) : Prop where
  respected : Respected trace
  closed : Barred trace → cpu.registers.iff1 = false

theorem Cpu.reset_guarded (cpu : Cpu) : cpu.reset.Guarded [] := ⟨respected_nil, fun _ => rfl⟩

theorem Cpu.Guarded.of_registers {cpu after : Cpu} (guarded : cpu.Guarded trace)
    (kept : after.registers = cpu.registers) : after.Guarded (trace ++ []) := by
  rw [List.append_nil]
  exact ⟨guarded.respected, fun barred => kept ▸ guarded.closed barred⟩

/-! ### Steps and runs -/

namespace Exec

variable (cpu : Cpu)

/-- A step accepts no interrupt that is barred, and opens the enable only with EI, RETN or RETI. -/
theorem step_guarded (lines : Lines) (guarded : cpu.Guarded trace) :
    (step lines).Always cpu fun calls segment after =>
      after.Guarded (trace ++ [segment]) ∧
        acknowledgements calls = [segment].filterMap Segment.acknowledgement? := by
  refine (step_settles cpu lines).mono ?_
  intro calls segment after settles
  have respected : Respected (trace ++ [segment]) := by
    apply guarded.respected.concat
    intro barred mode accepts
    have closed : cpu.registers.iff1 = false := guarded.closed barred
    -- Only a turn that found the enable set acknowledges a maskable interrupt.
    cases turn : (cpu.ready lines).turn lines with
    | maskable =>
      have enabled : cpu.registers.iff1 = true := (Cpu.turn_eq_maskable_iff.mp turn).2.2.2.2.2.1
      cases closed.symm.trans enabled
    | _ => cases accepts.symm.trans (settles.accepted.trans (by rw [turn]))
  have closed : Barred (trace ++ [segment]) → after.registers.iff1 = false := by
    intro barred
    obtain ⟨silent, masks | barred⟩ := barred.of_concat
    · simp [settles.iff1 silent, masks]
    · have closed : (cpu.ready lines).registers.iff1 = false := guarded.closed barred
      simp [settles.iff1 silent, closed]
  refine ⟨⟨respected, closed⟩, ?_⟩
  rw [settles.quiet]
  cases kind : segment.acknowledgement? <;> simp [kind]

/-- What a step keeps adds up over a run, whatever was traced before it. -/
theorem guarded_accrues : Accrues fun cpu calls run after => ∀ trace, cpu.Guarded trace →
    after.Guarded (trace ++ run) ∧
      acknowledgements calls = run.filterMap Segment.acknowledgement? where
  nil cpu trace guarded := ⟨guarded.of_registers rfl, rfl⟩
  step cpu lines := always_forall fun _ => always_forall fun guarded =>
    step_guarded cpu lines guarded
  append first second trace guarded := by
    obtain ⟨between, noted⟩ := first trace guarded
    obtain ⟨after, later⟩ := second _ between
    exact ⟨by simpa using after, by simp [noted, later]⟩
  of_registers kept same trace guarded := by
    obtain ⟨after, noted⟩ := kept trace guarded
    exact ⟨by simpa using after.of_registers same, noted⟩

theorem traceAll_guarded (commands : List Command) (guarded : cpu.Guarded trace) :
    (traceAll commands).Always cpu fun calls run after =>
      after.Guarded (trace ++ run) ∧
        acknowledgements calls = run.filterMap Segment.acknowledgement? :=
  (guarded_accrues.traceAll commands cpu).mono fun _ _ _ keeps => keeps trace guarded

/-- What a step acknowledges is what its turn is to acknowledge. -/
theorem acknowledgements_step {σ : Type} (bus : Bus σ) (device : σ) (lines : Lines) :
    acknowledgements (callsOn (step lines) bus cpu device) =
      (((cpu.ready lines).turn lines).acknowledgement? cpu.registers.im).toList := by
  have settles := (step_settles cpu lines).onBus bus device
  exact settles.quiet.trans (congrArg Option.toList settles.accepted)

/-- A step tells the bus of the non-maskable interrupt exactly if it is not held, no prefix is
pending, there is no reset, interrupts are not suppressed, and NMI is asserted or was noted. It
tells the bus of a maskable interrupt, in the mode that is set, exactly if all this holds without
NMI, and the enable is set and INT is asserted. It tells the bus of nothing else. From a reset on, a
run by any commands tells the bus of what its segments accept, and accepts no maskable interrupt
while they are barred. -/
theorem acceptance_exact {σ : Type} (bus : Bus σ) (cpu : Cpu) (device : σ) :
    (∀ lines : Lines,
      let noted := acknowledgements (callsOn (step lines) bus cpu device)
      noted.length ≤ 1 ∧
        (.nonMaskable ∈ noted ↔
          lines.wait = false ∧ cpu.pending = none ∧ lines.reset = false ∧
            cpu.suppressed = false ∧ (cpu.nmiPending = true ∨ lines.nmi = true)) ∧
        ∀ mode, .maskable mode ∈ noted ↔
          mode = cpu.registers.im.number ∧
            lines.wait = false ∧ cpu.pending = none ∧ lines.reset = false ∧
            cpu.suppressed = false ∧ (cpu.nmiPending = false ∧ lines.nmi = false) ∧
            cpu.registers.iff1 = true ∧ lines.int = true) ∧
    ∀ commands : List Command,
      let trace := (runOn (traceAll commands) bus cpu.reset device).value
      acknowledgements (callsOn (runAll commands) bus cpu.reset device) =
          trace.filterMap Segment.acknowledgement? ∧
        Respected trace := by
  constructor
  · intro lines noted
    have all : noted = _ := acknowledgements_step cpu bus device lines
    rw [all]
    refine ⟨?_, ?_, ?_⟩
    · cases ((cpu.ready lines).turn lines).acknowledgement? cpu.registers.im <;> simp
    · -- The step has sampled NMI by the time its turn is decided.
      rw [Option.mem_toList, Turn.acknowledgement?_eq_nonMaskable_iff,
        Cpu.turn_eq_nonMaskable_iff]
      simp [Cpu.ready, Cpu.beginStep, Cpu.sampleNmi]
    · intro mode
      rw [Option.mem_toList, Turn.acknowledgement?_eq_maskable_iff, Cpu.turn_eq_maskable_iff]
      simp [Cpu.ready, Cpu.beginStep, Cpu.sampleNmi]
  · intro commands trace
    have guarded := (traceAll_guarded cpu.reset commands cpu.reset_guarded).onBus bus device
    have respected : Respected trace := by simpa using guarded.1.respected
    refine ⟨?_, respected⟩
    rw [runAll_eq]
    simpa using guarded.2

-- INT is held from EI on, and accepted after one more instruction.
example : (runOn (traceAll [.next { int := true }, .tick { int := true }, .next { int := true }])
      Board.bus Cpu.fresh (Board.fresh.load 0 [0xFB])).value =
    [.instruction .main 0xFB false, .instruction .main 0x00 false, .injected 0xFF false] := by
  rfl

end Exec

end Z80
