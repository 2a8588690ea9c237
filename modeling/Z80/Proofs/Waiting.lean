import Z80.Proofs.Coherence
import Z80.Proofs.Unsplit

/-!
# WAIT is transparent

A call with WAIT asserted costs a tact and notes NMI, and that is all of it that lasts: what else it
clears, the next call that is not held clears too. A run of calls into which such calls are inserted
therefore says the same and makes the same calls to the bus, and ends later by as many tacts. An NMI
that an inserted call sees counts as seen by the call after it.

## Main definitions

* `Pace`, `Pace.call`: driving by steps or by ticks
* `Cpu.postpone`: some tacts more on the count
* `Pace.Agree`: processors that the next call cannot tell apart
* `Postponed`: a call and the calls inserted before it
* `Exec.runEach`: computations one after the other, with what each of them says

## Main results

* `Pace.Agree.call_held`: a call with WAIT asserted waits, and the next call cannot tell more
* `Pace.Agree.call_waited`: a call after some waiting does what it would do without it
* `Exec.runEach_postponed`: so do all calls of a run
* `Exec.wait_transparent`: inserted calls with WAIT asserted only take time
-/

namespace Z80

open Exec

/-! ### Calls -/

/-- What one call goes on by. -/
inductive Pace where
  | step
  | tick
deriving DecidableEq

/-- One call, which tells whether the machine is in the middle of an instruction. -/
def Pace.call : Pace → Lines → Exec Bool
  | .step, lines => Segment.busy <$> Exec.step lines
  | .tick, lines => tickBusy lines

namespace Lines

/-- The lines with WAIT asserted. -/
def held (lines : Lines) : Lines := { lines with wait := true }

/-- The lines, with NMI asserted if it was seen. -/
def noting (lines : Lines) (seen : Bool) : Lines := { lines with nmi := lines.nmi || seen }

end Lines

namespace Cpu

/-- The processor with some tacts more on its count. -/
def postpone (count : Nat) : Amendment where
  total total := total.after count

theorem postpone_lasting (count : Nat) : (postpone count).Lasting := ⟨rfl, rfl, rfl, fun _ => rfl⟩

/-- Waiting notes non-maskable interrupts and takes time. -/
theorem foldl_wait (cpu : Cpu) (held : List Lines) :
    held.foldl wait cpu =
      (cpu.amend (noteNmi (held.any Lines.nmi))).amend (postpone held.length) := by
  induction held generalizing cpu with
  | nil => simp [amend, noteNmi, postpone, Tacts.after]
  | cons lines held ih =>
    rw [List.foldl_cons, ih]
    simp [amend, noteNmi, postpone, wait, sampleNmi, Bool.or_assoc, Tacts.after_after,
      Nat.add_comm]

theorem amend_postpone (cpu : Cpu) (first second : Nat) :
    (cpu.amend (postpone first)).amend (postpone second) =
      cpu.amend (postpone (first + second)) := by
  simp [amend, postpone, Tacts.after_after]

end Cpu

/-! ### Time that has passed -/

namespace Exec

/-- Nothing that a step does looks at the count of tacts. -/
theorem perform_postpone (count : Nat) (looping : Bool) (turn : Turn) :
    Carries (Cpu.postpone count) (perform looping turn) := by
  by_cases reset : turn = .reset
  · -- A reset keeps the count.
    subst reset
    exact fun _ => rfl
  · exact perform_carries (Cpu.postpone_lasting count) looping reset fun _ => rfl

theorem step_postpone (count : Nat) (lines : Lines) :
    Carries (Cpu.postpone count) (step lines) := by
  intro cpu
  have carries := perform_postpone count cpu.looping ((cpu.ready lines).turn lines)
    (cpu.ready lines)
  -- The time of the step is added before the tacts in question or after them.
  have ends (after : Cpu) (tacts : Nat) :
      (after.amend (Cpu.postpone count)).endStep tacts =
        (after.endStep tacts).amend (Cpu.postpone count) := by
    simp [Cpu.amend, Cpu.postpone, Cpu.endStep, Tacts.after_after, Nat.add_comm]
  have opened : step lines (cpu.amend (Cpu.postpone count)) =
      (fun result => (result.1, result.2.endStep result.1.tacts)) <$>
        perform cpu.looping ((cpu.ready lines).turn lines)
          ((cpu.ready lines).amend (Cpu.postpone count)) := step_apply _ lines
  unfold CarriesAt at carries ⊢
  rw [opened, step_apply, carries, Functor.map_map, Functor.map_map]
  simp only [ends]

theorem tick_postpone (count : Nat) (lines : Lines) :
    Carries (Cpu.postpone count) (tick lines) := by
  intro cpu
  have same : (cpu.amend (Cpu.postpone count)).backlog = cpu.backlog := rfl
  have steps := step_postpone count lines cpu
  unfold CarriesAt at steps ⊢
  rw [tick_apply, tick_apply, same, steps]
  split
  · -- The tact is paid or waited for with more on the count.
    have waits : (cpu.amend (Cpu.postpone count)).wait lines =
        (cpu.wait lines).amend (Cpu.postpone count) := by
      simp [Cpu.wait, Cpu.sampleNmi, Cpu.amend, Cpu.postpone, Tacts.after_after, Nat.add_comm]
    rw [spend_apply, spend_apply, waits]
    cases lines.wait <;> rfl
  · rw [Functor.map_map, Functor.map_map]
    rfl

/-- A call that comes later does the same. -/
theorem call_postpone (pace : Pace) (count : Nat) (lines : Lines) :
    Carries (Cpu.postpone count) (pace.call lines) := by
  intro cpu
  cases pace with
  | step => exact (step_postpone count lines cpu).map _
  | tick => exact (tick_postpone count lines cpu).map _

end Exec

/-! ### NMI that was seen -/

/-- Whether NMI is sampled with the lines or was noted before makes no difference. -/
theorem Cpu.sampleNmi_noteNmi (cpu : Cpu) (lines : Lines) (seen : Bool) :
    (cpu.amend (noteNmi seen)).sampleNmi lines = cpu.sampleNmi (lines.noting seen) := by
  simp [sampleNmi, amend, noteNmi, Lines.noting, Bool.or_assoc, Bool.or_comm seen]

namespace Exec

theorem step_noteNmi (cpu : Cpu) (lines : Lines) (seen : Bool) :
    step lines (cpu.amend (Cpu.noteNmi seen)) = step (lines.noting seen) cpu := by
  have ready : (cpu.amend (Cpu.noteNmi seen)).ready lines = cpu.ready (lines.noting seen) := by
    unfold Cpu.ready Cpu.beginStep
    rw [Cpu.sampleNmi_noteNmi]
    rfl
  rw [step_apply, step_apply, ready]
  rfl

theorem tick_noteNmi (cpu : Cpu) (lines : Lines) (seen : Bool) :
    tick lines (cpu.amend (Cpu.noteNmi seen)) = tick (lines.noting seen) cpu := by
  have waits : (cpu.amend (Cpu.noteNmi seen)).wait lines = cpu.wait (lines.noting seen) := by
    unfold Cpu.wait
    rw [Cpu.sampleNmi_noteNmi]
    rfl
  have pays : (cpu.amend (Cpu.noteNmi seen)).pay lines = cpu.pay (lines.noting seen) := by
    unfold Cpu.pay
    rw [Cpu.sampleNmi_noteNmi]
    rfl
  rw [tick_apply, tick_apply, step_noteNmi, spend_apply, spend_apply, waits, pays]
  rfl

/-- Whether a call sees NMI itself or finds it noted makes no difference. -/
theorem call_noteNmi (pace : Pace) (cpu : Cpu) (lines : Lines) (seen : Bool) :
    pace.call lines (cpu.amend (Cpu.noteNmi seen)) = pace.call (lines.noting seen) cpu := by
  cases pace with
  | step => simp only [Pace.call, map_apply, step_noteNmi]
  | tick => simp only [Pace.call, tickBusy, map_apply, tick_noteNmi]

end Exec

/-! ### Waiting -/

/-- The processor after a step that WAIT holds. -/
def Cpu.stall (cpu : Cpu) (lines : Lines) : Cpu :=
  { cpu.wait lines with outputs := { halt := cpu.halted }, stepTacts := 1, backlog := 0 }

namespace Exec

theorem step_held (cpu : Cpu) (lines : Lines) :
    step lines.held cpu = .done (.stalled, cpu.stall lines) := by
  have turn : (cpu.ready lines.held).turn lines.held = .stall := Cpu.turn_eq_stall_iff.mpr rfl
  have stalled : (cpu.ready lines.held).endStep Segment.stalled.tacts = cpu.stall lines := by
    simp [Cpu.ready, Cpu.beginStep, Cpu.sampleNmi, Cpu.endStep, Cpu.stall, Cpu.wait, Lines.held,
      Segment.tacts]
  rw [step_apply, turn, ← stalled]
  rfl

end Exec

namespace Pace

variable {pace : Pace} {cpu other : Cpu}

/-- The next call cannot tell the processors apart. They differ in what a step clears before it
begins, and not even in that as long as ticks have to pay for a step. -/
structure Agree (pace : Pace) (cpu other : Cpu) : Prop where
  snapshot : cpu.snapshot = other.snapshot
  halt : cpu.outputs.halt = other.outputs.halt
  paid : other.backlog = 0 → cpu.backlog = 0
  owed : pace = .tick → 0 < other.backlog → cpu = other

theorem Agree.refl (pace : Pace) (cpu : Cpu) : pace.Agree cpu cpu := ⟨rfl, rfl, id, fun _ _ => rfl⟩

/-- Where steps leave nothing to pay, the processors differ in M1 and in the time of the last step
only. -/
theorem Agree.eq_of_settled (agree : pace.Agree cpu other)
    (settled : pace = .step → other.backlog = 0) :
    cpu = { other with
      stepTacts := cpu.stepTacts
      outputs := { other.outputs with m1 := cpu.outputs.m1 } } := by
  have backlog : cpu.backlog = other.backlog := by
    rcases Nat.eq_zero_or_pos other.backlog with paid | owed
    · rw [paid, agree.paid paid]
    · cases pace with
      | step => exact absurd (settled rfl) (Nat.ne_of_gt owed)
      | tick => rw [agree.owed rfl owed]
  -- What is left to compare are the fields one by one.
  obtain ⟨snapshot, halt, -, -⟩ := agree
  obtain ⟨_, ⟨_, _⟩, _, _⟩ := cpu
  obtain ⟨_, ⟨_, _⟩, _, _⟩ := other
  cases snapshot
  cases halt
  cases backlog
  rfl

theorem Agree.call_eq (agree : pace.Agree cpu other) (lines : Lines) :
    pace.call lines cpu = pace.call lines other := by
  cases pace with
  | step => simp only [call, map_apply, step_eq_of_snapshot_eq agree.snapshot]
  | tick =>
    rcases Nat.eq_zero_or_pos other.backlog with paid | owed
    · simp only [call, tickBusy, map_apply,
        tick_eq_of_snapshot_eq agree.snapshot (agree.paid paid) paid]
    · rw [agree.owed rfl owed]

/-- The next call cannot tell a step that was held from a tact of waiting. -/
theorem Agree.stall (agree : pace.Agree cpu other) (halt : other.outputs.halt = other.halted)
    (paid : pace = .tick → other.backlog = 0) (lines : Lines) :
    pace.Agree (cpu.stall lines) (other.wait lines) where
  snapshot := by
    have same : cpu.toSnapshot = other.toSnapshot := agree.snapshot
    simp [Cpu.snapshot, Cpu.stall, Cpu.wait, Cpu.sampleNmi, same]
  halt := (congrArg Snapshot.halted agree.snapshot).trans halt.symm
  paid _ := rfl
  owed ticking owed := absurd (paid ticking) (Nat.ne_of_gt owed)

/-- A call with WAIT asserted tells that the machine is busy and makes no call to the bus. It waits
for a tact, and the next call cannot tell what else it has cleared. -/
theorem Agree.call_held (agree : pace.Agree cpu other) (halt : other.outputs.halt = other.halted)
    (lines : Lines) :
    ∃ after, pace.Agree after (other.wait lines) ∧
      pace.call lines.held cpu = .done (true, after) := by
  cases pace with
  | step =>
    refine ⟨cpu.stall lines, agree.stall halt nofun lines, ?_⟩
    rw [call, map_apply, step_held]
    rfl
  | tick =>
    rcases Nat.eq_zero_or_pos other.backlog with paid | owed
    · -- The step that is held takes one tact, which is this tick.
      refine ⟨cpu.stall lines, agree.stall halt (fun _ => paid) lines, ?_⟩
      rw [call, tickBusy, map_apply, tick_apply, agree.paid paid, step_held]
      rfl
    · rw [agree.owed rfl owed]
      refine ⟨other.wait lines, .refl .tick _, ?_⟩
      rw [call, tickBusy, map_apply, tick_apply, if_pos owed, spend_apply]
      rfl

/-- A call after some waiting does what it does without it under lines on which NMI is asserted if
it was seen, and ends later by as many tacts. -/
theorem Agree.call_waited (held : List Lines) (agree : pace.Agree cpu (held.foldl Cpu.wait other))
    (lines : Lines) :
    pace.call lines cpu =
      (fun result => (result.1, result.2.amend (Cpu.postpone held.length))) <$>
        pace.call (lines.noting (held.any Lines.nmi)) other := by
  rw [agree.call_eq, Cpu.foldl_wait]
  have later := call_postpone pace held.length lines
    (other.amend (Cpu.noteNmi (held.any Lines.nmi)))
  unfold CarriesAt at later
  rw [later, call_noteNmi]

end Pace

/-! ### Runs of calls -/

namespace Exec

variable {α σ : Type}

/-- Run computations one after the other. The values come back with the calls made for each. -/
def runEach (bus : Bus σ) : List (Exec α) → Cpu → σ → Result σ (List (α × List Exchange))
  | [], cpu, device => ⟨[], cpu, device⟩
  | program :: rest, cpu, device =>
    let result := runOn program bus cpu device
    let more := runEach bus rest result.cpu result.device
    { more with value := (result.value, callsOn program bus cpu device) :: more.value }

theorem runEach_append (bus : Bus σ) (first second : List (Exec α)) (cpu : Cpu) (device : σ) :
    runEach bus (first ++ second) cpu device =
      let before := runEach bus first cpu device
      let after := runEach bus second before.cpu before.device
      { after with value := before.value ++ after.value } := by
  induction first generalizing cpu device with
  | nil => rfl
  | cons program first ih => simp only [List.cons_append, runEach, ih]

end Exec

/-- A call, and the lines of calls with WAIT asserted that are inserted before it. -/
structure Postponed where
  held : List Lines
  lines : Lines

namespace Postponed

/-- The inserted calls and the call itself. -/
def calls (pace : Pace) (each : Postponed) : List (Exec Bool) :=
  each.held.map (fun lines => pace.call lines.held) ++ [pace.call each.lines]

/-- The lines of the call, with NMI asserted if an inserted call sees it. -/
def merged (each : Postponed) : Lines := each.lines.noting (each.held.any Lines.nmi)

/-- What the inserted calls and the call say, where the call itself says the given. -/
def said (each : Postponed) (own : Bool × List Exchange) : List (Bool × List Exchange) :=
  List.replicate each.held.length (true, []) ++ [own]

/-- How many calls are inserted. -/
def inserted (run : List Postponed) : Nat := (run.map fun each => each.held.length).sum

end Postponed

section Runs

variable (pace : Pace) {cpu : Cpu} {σ : Type} (bus : Bus σ) (device : σ)

/-- Calls with WAIT asserted, one after the other. -/
theorem Pace.Agree.runEach_held {pace : Pace} {other : Cpu} (agree : pace.Agree cpu other)
    (halt : other.outputs.halt = other.halted) (held : List Lines) :
    ∃ after, pace.Agree after (held.foldl Cpu.wait other) ∧
      runEach bus (held.map fun lines => pace.call lines.held) cpu device =
        ⟨List.replicate held.length (true, []), after, device⟩ := by
  induction held generalizing cpu other with
  | nil => exact ⟨cpu, agree, rfl⟩
  | cons lines held ih =>
    obtain ⟨waited, agree, call⟩ := agree.call_held halt lines
    obtain ⟨after, agree, rest⟩ := ih agree halt
    refine ⟨after, agree, ?_⟩
    have run : runOn (pace.call lines.held) bus cpu device = ⟨true, waited, device⟩ := by
      simp [runOn, call]
    have quiet : callsOn (pace.call lines.held) bus cpu device = [] := by
      simp [callsOn, call]
    simp only [List.map_cons, runEach, run, quiet, rest, List.length_cons, List.replicate_succ]

/-- A call behind inserted ones does what it does on its own, and ends later. -/
theorem Postponed.runEach_calls (each : Postponed) (halt : cpu.outputs.halt = cpu.halted)
    (count : Nat) :
    let own := runOn (pace.call each.merged) bus cpu device
    runEach bus (each.calls pace) (cpu.amend (Cpu.postpone count)) device =
      ⟨each.said (own.value, callsOn (pace.call each.merged) bus cpu device),
        own.cpu.amend (Cpu.postpone (count + each.held.length)), own.device⟩ := by
  intro own
  obtain ⟨after, agree, inserted⟩ :=
    (Pace.Agree.refl pace (cpu.amend (Cpu.postpone count))).runEach_held bus device halt each.held
  -- The tacts waited for here come on top of those waited for before.
  have later : pace.call each.lines after =
      (fun result => (result.1,
        result.2.amend (Cpu.postpone (count + each.held.length)))) <$>
        pace.call each.merged cpu := by
    have postponed := call_postpone pace count each.merged cpu
    unfold CarriesAt at postponed
    rw [agree.call_waited, ← merged, postponed, Functor.map_map]
    simp only [Cpu.amend_postpone]
  obtain ⟨run, calls⟩ := runOn_of_amended bus device later
  simp only [Postponed.calls, runEach_append, inserted, runEach, run, calls]
  rfl

theorem call_coherent (lines : Lines) (coherent : cpu.Coherent) :
    (pace.call lines).Always cpu fun _ _ after => after.Coherent := by
  cases pace with
  | step => exact (always_map ..).mpr (step_coherent lines coherent)
  | tick => exact (always_map ..).mpr (tick_coherent lines coherent)

/-- So do the calls of a run, and every call comes later by the calls inserted before it. -/
theorem runEach_postponed (run : List Postponed) (coherent : cpu.Coherent) (count : Nat) :
    let bare := runEach bus (run.map fun each => pace.call each.merged) cpu device
    runEach bus (run.flatMap (Postponed.calls pace)) (cpu.amend (Cpu.postpone count)) device =
        ⟨(List.zipWith Postponed.said run bare.value).flatten,
          bare.cpu.amend (Cpu.postpone (count + Postponed.inserted run)), bare.device⟩ ∧
      bare.cpu.Coherent := by
  -- The induction is on the run, and the count carries the calls inserted so far.
  induction run generalizing cpu device count with
  | nil => exact ⟨rfl, coherent⟩
  | cons each run ih =>
    have kept := (call_coherent pace each.merged coherent).onBus bus device
    have first := each.runEach_calls pace bus device coherent.halt count
    obtain ⟨rest, last⟩ := ih (runOn (pace.call each.merged) bus cpu device).device kept
      (count + each.held.length)
    refine ⟨?_, last⟩
    simp only [List.flatMap_cons, runEach_append, first, rest, List.map_cons, runEach,
      List.zipWith_cons_cons, List.flatten_cons, Postponed.inserted, List.sum_cons, Nat.add_assoc]

/-- Steps leave nothing to pay. -/
theorem backlog_runEach_step (cpu : Cpu) {all : List Lines} (nonempty : all ≠ []) :
    (runEach bus (all.map Pace.step.call) cpu device).cpu.backlog = 0 := by
  obtain empty | ⟨earlier, last, rfl⟩ := all.eq_nil_or_concat
  · exact absurd empty nonempty
  rw [List.concat_eq_append, List.map_append, runEach_append]
  generalize runEach bus (earlier.map Pace.step.call) cpu device = before
  have settles := (step_settles before.cpu last).onBus bus before.device
  simpa [runEach, Pace.call] using settles.backlog

end Runs

/-- WAIT is transparent. Into a run of steps or of ticks from a processor that a reset leads to, any
calls with WAIT asserted are inserted anywhere. The inserted calls tell that the machine is busy and
make no call to the bus; all other calls say the same and make the same calls to the bus as without
them, where NMI counts as asserted on a call if an inserted call just before it sees it. The bus
ends the same, and so does the processor, but for the time, for a note of NMI seen behind the last
call and, if the last call is an inserted one, for M1 and the time of the last step. -/
theorem Exec.wait_transparent {σ : Type} (bus : Bus σ) {cpu : Cpu} (device : σ) (pace : Pace)
    (reached : cpu.Reached) (run : List Postponed) (nonempty : run ≠ []) (behind : List Lines) :
    let bare := runEach bus (run.map fun each => pace.call each.merged) cpu device
    let late := runEach bus
      (run.flatMap (Postponed.calls pace) ++ behind.map fun lines => pace.call lines.held)
      cpu device
    let tacts := Postponed.inserted run + behind.length
    late.value = (List.zipWith Postponed.said run bare.value).flatten ++
        List.replicate behind.length (true, []) ∧
      late.device = bare.device ∧
      late.cpu = { bare.cpu with
        total := bare.cpu.total.after tacts
        nmiPending := bare.cpu.nmiPending || behind.any Lines.nmi
        stepTacts := late.cpu.stepTacts
        outputs := { bare.cpu.outputs with m1 := late.cpu.outputs.m1 } } ∧
      (behind = [] → late.cpu = { bare.cpu with total := bare.cpu.total.after tacts }) ∧
      ((∀ each ∈ run, each.held.any Lines.nmi = false) →
        run.map Postponed.merged = run.map Postponed.lines) := by
  intro bare late tacts
  have coherent := reached.coherent
  have start : cpu.amend (Cpu.postpone 0) = cpu := by simp [Cpu.amend, Cpu.postpone, Tacts.after]
  obtain ⟨before, kept⟩ := runEach_postponed pace bus device run coherent 0
  rw [start, Nat.zero_add] at before
  -- Behind the last call of the run the processor is what it would be without the inserted ones.
  obtain ⟨after, agree, rest⟩ :=
    (Pace.Agree.refl pace (bare.cpu.amend (Cpu.postpone (Postponed.inserted run)))).runEach_held
      bus bare.device kept.halt behind
  have whole : late = ⟨(List.zipWith Postponed.said run bare.value).flatten ++
      List.replicate behind.length (true, []), after, bare.device⟩ := by
    simp only [late, runEach_append, before]
    rw [rest]
  have waited : behind.foldl Cpu.wait (bare.cpu.amend (Cpu.postpone (Postponed.inserted run))) =
      { bare.cpu with
        total := bare.cpu.total.after tacts
        nmiPending := bare.cpu.nmiPending || behind.any Lines.nmi } := by
    rw [Cpu.foldl_wait]
    simp [Cpu.amend, Cpu.postpone, Cpu.noteNmi, Tacts.after_after, tacts]
  rw [waited] at agree
  have settled : pace = .step → bare.cpu.backlog = 0 := by
    rintro rfl
    have called : run.map Postponed.merged ≠ [] := by simpa using nonempty
    have paid := backlog_runEach_step bus device cpu called
    rwa [List.map_map] at paid
  rw [whole]
  refine ⟨rfl, rfl, agree.eq_of_settled settled, ?_, ?_⟩
  · -- Nothing was inserted behind the last call.
    rintro rfl
    cases rest
    simp [Cpu.amend, Cpu.postpone, tacts]
  · intro quiet
    refine List.map_congr_left fun each among => ?_
    rw [Postponed.merged, quiet each among, Lines.noting, Bool.or_false]

/-- LD IX is held between its prefix and its opcode, where NMI is seen as well: the interrupt is
acknowledged with the call after the instruction. -/
theorem Exec.transparent_inside_prefix :
    let board := Board.fresh.load 0x0000 [0xDD, 0x21, 0x34, 0x12]
    let run : List Postponed :=
      [⟨[{ int := true }], {}⟩, ⟨[{ nmi := true }, { reset := true }], {}⟩, ⟨[], {}⟩]
    let bare := runEach Board.bus (run.map fun each => Pace.step.call each.merged) Cpu.fresh board
    let behind : List Lines := [{}]
    let late := runEach Board.bus
      (run.flatMap (Postponed.calls .step) ++ behind.map fun lines => Pace.step.call lines.held)
      Cpu.fresh board
    bare.value.map Prod.fst = [true, false, false] ∧
      late.value.map Prod.fst = [true, true, true, true, false, false, true] ∧
      bare.cpu.registers.pc = 0x0066 ∧
      late.cpu = { bare.cpu with
        total := bare.cpu.total.after 4
        nmiPending := bare.cpu.nmiPending || behind.any Lines.nmi
        stepTacts := late.cpu.stepTacts
        outputs := { bare.cpu.outputs with m1 := late.cpu.outputs.m1 } } := by
  intro board run bare behind late
  have transparent :=
    Exec.wait_transparent Board.bus board .step Cpu.fresh_reached run (List.cons_ne_nil _ _) behind
  have own : bare.value.map Prod.fst = [true, false, false] := by decide +kernel
  have pc : bare.cpu.registers.pc = 0x0066 := by decide +kernel
  have said : late.value.map Prod.fst = [true, true, true, true, false, false, true] := by
    decide +kernel
  have tacts : Postponed.inserted run + behind.length = 4 := rfl
  have same := transparent.2.2.1
  rw [tacts] at same
  refine ⟨own, said, pc, ?_⟩
  -- The two runs are written out, so that they are compared and not carried out.
  dsimp only [bare, late] at same ⊢
  exact same

end Z80
