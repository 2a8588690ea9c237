import Z80.Bus.Board
import Z80.Proofs.Ticks
import Z80.Proofs.Unread

/-!
# The non-maskable interrupt is not lost

NMI may be asserted at a moment when it cannot be taken: while the machine is held by WAIT, in the
middle of an instruction, in the tacts that a step has still to spend, or on a boundary where
interrupts are suppressed. Its note then stays until the interrupt is acknowledged or a reset is
performed, and keeps all maskable interrupts out as long as it stays.

## Main definitions

* `Beat`: a call that drives the machine by a step or by a tact
* `Moment`, `Exec.moments`: what a call finds, does and leaves, and all calls of a run
* `Owed`: NMI was asserted, and neither acknowledged nor reset since

## Main results

* `Exec.step_nmiPending`: what a step does to the note of NMI
* `Beat.run_holdsNmi`: every call holds NMI
* `Exec.moments_of_invariant`: what calls keep holds all through a run
* `Exec.nmi_not_lost`: every run holds NMI until it is acknowledged or reset
-/

namespace Z80

/-- A call that drives the machine by a step or by a tact. -/
inductive Beat where
  | step (lines : Lines)
  | tick (lines : Lines)

/-- The lines of the call. -/
def Beat.lines : Beat → Lines
  | .step lines => lines
  | .tick lines => lines

/-- Make the call, and give the segment of the step that begins with it. -/
def Beat.run : Beat → Exec (Option Segment)
  | .step lines => some <$> Exec.step lines
  | .tick lines => Tick.started <$> Exec.tick lines

/-- What a call finds, does and leaves. -/
structure Moment where
  beat : Beat
  before : Cpu
  /-- The step that began with the call, if one did. -/
  started : Option Segment
  calls : List Exchange
  after : Cpu

namespace Moment

/-- The call performs a reset or acknowledges NMI. -/
def Serves (moment : Moment) : Prop :=
  moment.started = some .reset ∨ .nonMaskable ∈ acknowledgements moment.calls

instance : DecidablePred Serves := fun _ => inferInstanceAs (Decidable (_ ∨ _))

/-- The call makes a step without WAIT and RESET, with no prefix pending and interrupts not
suppressed. -/
@[mk_iff]
structure Samples (moment : Moment) : Prop where
  steps : moment.started.isSome = true
  running : moment.beat.lines.wait = false
  unreset : moment.beat.lines.reset = false
  boundary : moment.before.pending = none
  open_ : moment.before.suppressed = false

instance : DecidablePred Samples := fun moment => decidable_of_iff' _ (samples_iff moment)

/-- NMI is held: it stays noted unless it is served, no maskable interrupt is acknowledged, and a
call that samples it acknowledges it. -/
structure HoldsNmi (moment : Moment) : Prop where
  latched : ¬ moment.Serves → moment.after.nmiPending = true
  masked : ∀ mode, .maskable mode ∉ acknowledgements moment.calls
  acknowledged : moment.Samples → acknowledgements moment.calls = [.nonMaskable]

end Moment

/-- Make calls one after the other on a bus, and keep what each of them finds, does and leaves. -/
def Exec.moments {σ : Type} (bus : Bus σ) : List Beat → Cpu → σ → List Moment
  | [], _, _ => []
  | beat :: later, cpu, device =>
    let run := runOn beat.run bus cpu device
    { beat
      before := cpu
      started := run.value
      calls := callsOn beat.run bus cpu device
      after := run.cpu } :: moments bus later run.cpu run.device

/-- What holds of a step, and also with the rest of its time left to pay, holds of a call that
begins it. A call that pays for the step before changes no more than the time and the note of
NMI. -/
theorem Beat.always_run (beat : Beat) {cpu : Cpu}
    {post : List Exchange → Option Segment → Cpu → Prop}
    (stepped : (Exec.step beat.lines).Always cpu fun calls segment after =>
      ∀ backlog, post calls (some segment) { after with backlog })
    (spent : ∀ total backlog, post [] none { cpu.sampleNmi beat.lines with total, backlog }) :
    beat.run.Always cpu post := by
  cases beat with
  | step lines =>
    simp only [run, Exec.always_map]
    exact stepped.mono fun _ _ after holds => holds after.backlog
  | tick lines =>
    simp only [run, Exec.tick, Exec.spend, Exec.always_map, Exec.always_bind, Exec.always_get,
      Exec.always_ite, Exec.always_modify, Exec.always_pure]
    refine ⟨fun _ => ⟨fun _ => spent _ _, fun _ => spent _ _⟩, fun _ => ?_⟩
    refine stepped.mono ?_
    intro calls segment after holds
    simpa using holds (after.stepTacts - 1)

/-- NMI was asserted in some call, and from that call on neither acknowledged nor reset. -/
def Owed (trace : List Moment) : Prop :=
  ∃ early asserting late, trace = early ++ asserting :: late ∧
    asserting.beat.lines.nmi = true ∧ ∀ moment ∈ asserting :: late, ¬ moment.Serves

/-- NMI is owed after one more call only if the call does not serve it, and asserts it or follows a
trace that owes it. -/
theorem Owed.of_concat {trace : List Moment} {moment : Moment}
    (owed : Owed (trace ++ [moment])) :
    ¬ moment.Serves ∧ (Owed trace ∨ moment.beat.lines.nmi = true) := by
  obtain ⟨early, asserting, late, split, asserts, unserved⟩ := owed
  -- The call that asserted NMI is the last one, or the trace before the last one owes it already.
  rcases List.eq_nil_or_concat late with rfl | ⟨late, last, rfl⟩
  · obtain ⟨rfl, same⟩ := List.append_inj' split rfl
    cases same
    exact ⟨unserved _ (List.mem_cons_self ..), .inr asserts⟩
  · have shifted :
        early ++ asserting :: late.concat last = (early ++ asserting :: late) ++ [last] := by
      simp
    rw [shifted] at split
    obtain ⟨rfl, same⟩ := List.append_inj' split rfl
    cases same
    refine ⟨unserved _ (by simp), .inl ⟨early, asserting, late, rfl, asserts, ?_⟩⟩
    intro moment among
    refine unserved moment ?_
    rw [List.concat_eq_append, ← List.cons_append]
    exact List.mem_append_left _ among

namespace Exec

variable {α σ : Type} (cpu : Cpu)

/-- The note of NMI set or cleared. -/
def setNmi (noted : Bool) : Cpu.Amendment where
  nmiPending _ := noted

theorem setNmi_lasting (noted : Bool) : (setNmi noted).Lasting := ⟨rfl, rfl, rfl, fun _ => rfl⟩

/-- A computation that carries the note of NMI through, set or clear, leaves it as it is. -/
theorem always_nmiPending {program : Exec α} (carries : ∀ noted, Carries (setNmi noted) program) :
    program.Always cpu fun _ _ after => after.nmiPending = cpu.nmiPending := by
  -- To set the note to what it is changes nothing before the computation, and so nothing after it.
  have same : program cpu =
      (fun result => (result.1, result.2.amend (setNmi cpu.nmiPending))) <$> program cpu :=
    carries cpu.nmiPending cpu
  unfold Always
  rw [same, map_eq_pure_bind, Program.always_bind]
  exact (Program.always_true _).mono fun _ _ _ => rfl

/-- Only a reset and the acknowledgement of NMI touch its note. -/
theorem perform_nmiPending (looping : Bool) {turn : Turn} (other : turn ≠ .reset)
    (unserved : turn ≠ .nonMaskable) :
    (perform looping turn).Always cpu fun _ _ after => after.nmiPending = cpu.nmiPending :=
  always_nmiPending cpu fun noted =>
    perform_carries (setNmi_lasting noted) looping other fun serves => absurd serves unserved

/-- A step notes NMI, and keeps the note unless it acknowledges NMI or is a reset. -/
theorem step_nmiPending (lines : Lines) :
    (step lines).Always cpu fun calls segment after =>
      segment ≠ .reset → .nonMaskable ∉ acknowledgements calls →
        after.nmiPending = (cpu.nmiPending || lines.nmi) := by
  by_cases reset : (cpu.ready lines).turn lines = .reset
  · rw [always_step, reset]
    exact fun unreset => absurd rfl unreset
  by_cases serves : (cpu.ready lines).turn lines = .nonMaskable
  · -- The turn of NMI does acknowledge it.
    refine (step_settles cpu lines).mono ?_
    intro calls segment after settles _ unserved
    rw [serves] at settles
    rw [settles.quiet, settles.accepted] at unserved
    exact absurd (List.mem_singleton.mpr rfl) unserved
  · rw [always_step]
    exact (perform_nmiPending _ _ reset serves).mono fun _ _ _ kept _ _ => kept

/-- A step that finds NMI noted or asserted holds it, made by itself or with its first tact. -/
theorem step_holdsNmi (beat : Beat) (noted : cpu.nmiPending = true ∨ beat.lines.nmi = true) :
    (step beat.lines).Always cpu fun calls segment after =>
      ∀ last : Cpu, last.nmiPending = after.nmiPending →
        Moment.HoldsNmi ⟨beat, cpu, some segment, calls, last⟩ := by
  have ready : (cpu.ready beat.lines).nmiPending = true := Bool.or_eq_true_iff.mpr noted
  have unmasked : (cpu.ready beat.lines).turn beat.lines ≠ .maskable := by
    simp [Cpu.turn_eq_maskable_iff, ready]
  refine ((step_settles cpu beat.lines).and (step_nmiPending cpu beat.lines)).mono ?_
  rintro calls segment after ⟨settles, kept⟩ last same
  have quiet := settles.quiet.trans (congrArg Option.toList settles.accepted)
  refine ⟨?_, ?_, ?_⟩
  · intro unserved
    obtain ⟨unreset, unacknowledged⟩ := not_or.mp unserved
    rw [same, kept (fun reset => unreset (congrArg some reset)) unacknowledged]
    exact Bool.or_eq_true_iff.mpr noted
  · intro mode accepted
    rw [quiet, Option.mem_toList, Turn.acknowledgement?_eq_maskable_iff] at accepted
    exact unmasked accepted.2
  · intro samples
    have taken : (cpu.ready beat.lines).turn beat.lines = .nonMaskable :=
      Cpu.turn_eq_nonMaskable_iff.mpr
        ⟨samples.running, samples.boundary, samples.unreset, samples.open_, ready⟩
    rw [quiet, taken]
    rfl

/-- A tact that pays for the step before holds NMI: it makes no call and begins no step. -/
theorem spend_holdsNmi (beat : Beat) (noted : cpu.nmiPending = true ∨ beat.lines.nmi = true) :
    (spend beat.lines).Always cpu fun calls tick after =>
      Moment.HoldsNmi ⟨beat, cpu, tick.started, calls, after⟩ := by
  have kept : (cpu.nmiPending || beat.lines.nmi) = true := Bool.or_eq_true_iff.mpr noted
  have held (after : Cpu) (same : after.nmiPending = (cpu.nmiPending || beat.lines.nmi)) :
      Moment.HoldsNmi ⟨beat, cpu, none, [], after⟩ :=
    { latched := fun _ => same.trans kept
      masked := nofun
      acknowledged := fun samples => absurd samples.steps nofun }
  simp only [spend, always_bind, always_modify, always_ite, always_pure, always_get]
  exact ⟨fun _ => held _ rfl, fun _ => held _ rfl⟩

end Exec

/-- Every call that finds NMI noted or asserted holds it. -/
theorem Beat.run_holdsNmi (beat : Beat) (cpu : Cpu)
    (noted : cpu.nmiPending = true ∨ beat.lines.nmi = true) :
    beat.run.Always cpu fun calls started after =>
      Moment.HoldsNmi ⟨beat, cpu, started, calls, after⟩ := by
  have stepped := Exec.step_holdsNmi cpu beat noted
  have spent := Exec.spend_holdsNmi cpu beat noted
  cases beat with
  | step lines =>
    simp only [run, Exec.always_map]
    exact stepped.mono fun _ _ after held => held after rfl
  | tick lines =>
    simp only [run, Exec.tick, Exec.always_map, Exec.always_bind, Exec.always_get,
      Exec.always_ite]
    refine ⟨fun _ => spent, fun _ => stepped.mono fun calls segment after held => ?_⟩
    simpa using held { after with backlog := after.stepTacts - 1 } rfl

namespace Exec

variable {σ : Type}

/-- A single call with what it finds, does and leaves. -/
def momentOn (bus : Bus σ) (beat : Beat) (cpu : Cpu) (device : σ) : Moment where
  beat
  before := cpu
  started := (runOn beat.run bus cpu device).value
  calls := callsOn beat.run bus cpu device
  after := (runOn beat.run bus cpu device).cpu

/-- If every call keeps an invariant of the trace so far and of the processor, and something holds
of a call wherever the invariant does, then it holds all through a run. -/
theorem moments_of_invariant (bus : Bus σ) (invariant : List Moment → Cpu → Prop)
    (holds : List Moment → Moment → Prop)
    (keeps : ∀ past beat cpu device, invariant past cpu →
      holds past (momentOn bus beat cpu device) ∧
        invariant (past ++ [momentOn bus beat cpu device]) (momentOn bus beat cpu device).after)
    {beats : List Beat} {cpu : Cpu} {device : σ} {past early : List Moment} {moment : Moment}
    {late : List Moment} (initial : invariant past cpu)
    (split : moments bus beats cpu device = early ++ moment :: late) :
    holds (past ++ early) moment := by
  -- The trace of what was made so far grows with each call.
  induction beats generalizing cpu device past early with
  | nil => simp [moments] at split
  | cons beat later ih =>
    obtain ⟨here, next⟩ := keeps past beat cpu device initial
    cases early with
    | nil =>
      obtain ⟨rfl, -⟩ := List.cons.inj split
      rw [List.append_nil]
      exact here
    | cons first early =>
      obtain ⟨rfl, rest⟩ := List.cons.inj split
      have there := ih next rest
      rw [List.append_assoc] at there
      exact there

/-- So it does from the start of a trace. -/
theorem moments_of_initial (bus : Bus σ) (invariant : List Moment → Cpu → Prop)
    (holds : List Moment → Moment → Prop)
    (keeps : ∀ past beat cpu device, invariant past cpu →
      holds past (momentOn bus beat cpu device) ∧
        invariant (past ++ [momentOn bus beat cpu device]) (momentOn bus beat cpu device).after)
    {beats : List Beat} {cpu : Cpu} {device : σ} {early : List Moment} {moment : Moment}
    {late : List Moment} (initial : invariant [] cpu)
    (split : moments bus beats cpu device = early ++ moment :: late) : holds early moment := by
  have found := moments_of_invariant bus invariant holds keeps initial split
  rw [List.nil_append] at found
  exact found

/-- A run that follows a trace holds NMI in each call after which or in which it is asserted, if
the processor has the NMI noted that the trace owes. -/
theorem moments_holdNmi (bus : Bus σ) (beats : List Beat) (cpu : Cpu) (device : σ)
    (past early : List Moment) (moment : Moment) (late : List Moment)
    (noted : Owed past → cpu.nmiPending = true)
    (split : moments bus beats cpu device = early ++ moment :: late)
    (owed : Owed (past ++ early) ∨ moment.beat.lines.nmi = true) : moment.HoldsNmi := by
  refine moments_of_invariant bus (fun past cpu => Owed past → cpu.nmiPending = true)
    (fun past moment => Owed past ∨ moment.beat.lines.nmi = true → moment.HoldsNmi)
    ?_ noted split owed
  intro past beat cpu device noted
  have holds (found : cpu.nmiPending = true ∨ beat.lines.nmi = true) :
      (momentOn bus beat cpu device).HoldsNmi :=
    (beat.run_holdsNmi cpu found).onBus bus device
  refine ⟨fun owed => holds (owed.imp_left noted), ?_⟩
  intro owes
  obtain ⟨unserved, before⟩ := owes.of_concat
  exact (holds (before.imp_left noted)).latched unserved

/-- NMI is not lost. In every run of steps and ticks, from any processor and on any bus, once NMI is
asserted its note stays until a reset or the acknowledgement of NMI. Until then no maskable
interrupt is acknowledged, and the first step without WAIT and RESET on a boundary where interrupts
are not suppressed acknowledges NMI. -/
theorem nmi_not_lost (bus : Bus σ) (cpu : Cpu) (device : σ) (beats : List Beat)
    (early : List Moment) (moment : Moment) (late : List Moment)
    (split : moments bus beats cpu device = early ++ moment :: late)
    (owed : Owed early ∨ moment.beat.lines.nmi = true) :
    (¬ moment.Serves → moment.after.nmiPending = true) ∧
      (∀ mode, .maskable mode ∉ acknowledgements moment.calls) ∧
      (moment.Samples → acknowledgements moment.calls = [.nonMaskable]) := by
  have unowed : Owed [] → cpu.nmiPending = true := by simp [Owed]
  have held := moments_holdNmi bus beats cpu device [] early moment late unowed split owed
  exact ⟨held.latched, held.masked, held.acknowledged⟩

/-- NMI pulses while WAIT holds the machine behind EI. It stays noted through the instruction after
EI, and is then acknowledged before INT. -/
theorem nmi_waits_behind_ei :
    let board := Board.fresh.load 0x0000 [0xFB, 0x00]
    let beats : List Beat :=
      [.step {}, .step { nmi := true, wait := true }, .step { int := true }, .step { int := true }]
    ∃ early moment, moments Board.bus beats Cpu.fresh board = early ++ [moment] ∧ Owed early ∧
      moment.Samples ∧ acknowledgements moment.calls = [.nonMaskable] := by
  intro board beats
  have asserted : (moments Board.bus beats Cpu.fresh board).map (·.beat.lines.nmi) =
      [false, true, false, false] := rfl
  have served : (moments Board.bus beats Cpu.fresh board).map (decide ·.Serves) =
      [false, false, false, true] := by decide +kernel
  have sampled : (moments Board.bus beats Cpu.fresh board).map (decide ·.Samples) =
      [true, false, false, true] := by decide +kernel
  obtain ⟨ei, held, nop, taken, made⟩ :
      ∃ ei held nop taken, moments Board.bus beats Cpu.fresh board = [ei, held, nop, taken] :=
    ⟨_, _, _, _, rfl⟩
  simp only [made, List.map_cons, List.map_nil, List.cons.injEq, decide_eq_true_eq,
    decide_eq_false_iff_not, and_true] at asserted served sampled
  have owed : Owed [ei, held, nop] := by
    refine ⟨[ei], held, [nop], rfl, asserted.2.1, ?_⟩
    simp [served]
  obtain ⟨-, -, acknowledged⟩ :=
    nmi_not_lost Board.bus Cpu.fresh board beats [ei, held, nop] taken [] made (.inl owed)
  exact ⟨_, taken, made, owed, sampled.2.2.2, acknowledged sampled.2.2.2⟩

end Exec

end Z80
