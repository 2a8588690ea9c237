import Z80.Bus.Board
import Z80.Proofs.Ticks
import Z80.Proofs.Unread

/-!
# Replaying a snapshot

A step clears its share of the outputs and the counts before it looks at anything, so a processor
that is put back from a snapshot goes on by whole steps exactly as the processor that the snapshot
was taken of. A tick looks at the tacts that are still owed, and these are in no snapshot: put back
in the middle of a step, a processor begins the next step at once.

## Main definitions

* `Exec.watch`: computations one after the other, each with its calls and what it leaves
* `Advance`: what drives the machine by whole steps

## Main results

* `Exec.step_eq_of_snapshot_eq`: a step depends on nothing that is not in a snapshot
* `Exec.advances_replay`: runs by whole steps are replayed from a snapshot
* `Exec.ticks_replay_iff`: runs by ticks are replayed exactly if no tact is owed
-/

namespace Z80

@[simp] theorem Cpu.snapshot_ofSnapshot (snapshot : Snapshot) :
    (ofSnapshot snapshot).snapshot = snapshot := rfl

/-- A result with the calls that were made for it. -/
structure Watched (σ α : Type) extends Result σ α where
  calls : List Exchange

/-- What an onlooker sees who cannot tell the outputs and the time of the last step: the value, the
calls and the snapshot. -/
def Watched.shown {σ α : Type} (watched : Watched σ α) : α × List Exchange × Snapshot :=
  (watched.value, watched.calls, watched.cpu.snapshot)

/-- What drives the machine by whole steps. -/
inductive Advance where
  | step (lines : Lines)
  /-- Go on up to the next instruction boundary. -/
  | next (lines : Lines)
  /-- Go on up to the next boundary outside a repeating block instruction. -/
  | nextUnlooped (lines : Lines)

/-- What the machine gives back: whether it is in the middle of an instruction, or the tacts spent,
if a boundary was reached. -/
inductive Reply where
  | busy (goes : Bool)
  | spent (tacts : Option Nat)
deriving DecidableEq

/-- Go on by whole steps. -/
def Advance.run : Advance → Exec Reply
  | .step lines => do return .busy (← Exec.step lines).busy
  | .next lines => do return .spent (← Exec.nextInstruction lines)
  | .nextUnlooped lines => do return .spent (← Exec.nextUnlooped lines)

namespace Exec

variable {σ α ε : Type}

/-- Run computations one after the other and watch each of them. -/
def watch (bus : Bus σ) : List (Exec α) → Cpu → σ → List (Watched σ α)
  | [], _, _ => []
  | program :: rest, cpu, device =>
    let result := runOn program bus cpu device
    { result with calls := callsOn program bus cpu device } ::
      watch bus rest result.cpu result.device

/-- One tick, of which only the answer is given back. -/
def tickBusy (lines : Lines) : Exec Bool := Tick.busy <$> tick lines

/-! ### Whole steps -/

/-- The HALT output at a level. -/
def haltLevel (level : Bool) : Cpu.Amendment where
  outputs outputs := { outputs with halt := level }

theorem haltLevel_lasting (level : Bool) : (haltLevel level).Lasting :=
  ⟨rfl, rfl, rfl, fun _ => rfl⟩

/-- The end of a step settles the HALT output, whatever it was before. -/
theorem perform_haltLevel (level looping : Bool) (turn : Turn) (cpu : Cpu) :
    (fun result => (result.1, result.2.endStep result.1.tacts)) <$>
        perform looping turn (cpu.amend (haltLevel level)) =
      (fun result => (result.1, result.2.endStep result.1.tacts)) <$> perform looping turn cpu := by
  by_cases reset : turn = .reset
  · -- A reset clears the outputs.
    subst reset
    rfl
  · have carries := perform_carries (haltLevel_lasting level) looping reset (fun _ => rfl) cpu
    unfold CarriesAt at carries
    rw [carries, Functor.map_map]
    rfl

/-- A step depends on nothing that is not in a snapshot. -/
theorem step_eq_of_snapshot_eq {cpu other : Cpu} (same : cpu.snapshot = other.snapshot)
    (lines : Lines) : step lines cpu = step lines other := by
  obtain ⟨snapshot, outputs, _, _⟩ := cpu
  obtain ⟨_, others, _, _⟩ := other
  cases same
  rw [step_apply, step_apply, ← perform_haltLevel others.halt]
  rfl

/-- Neither does a run of steps, as long as it makes one. -/
theorem drive_eq_of_snapshot_eq {cpu other : Cpu} (same : cpu.snapshot = other.snapshot)
    (ends : Segment → Cpu → Bool) (later : Lines → Lines) (observe : ε → Segment → Cpu → ε)
    (fuel : Nat) (lines : Lines) (seen : ε) :
    drive ends later observe (fuel + 1) lines seen cpu =
      drive ends later observe (fuel + 1) lines seen other := by
  have first := step_eq_of_snapshot_eq same lines
  simp only [drive]
  change (step lines cpu >>= _) = (step lines other >>= _)
  rw [first]

/-- What drives the machine by whole steps depends on nothing that is not in a snapshot. -/
theorem advance_eq_of_snapshot_eq {cpu other : Cpu} (same : cpu.snapshot = other.snapshot)
    (advance : Advance) : advance.run cpu = advance.run other := by
  -- A run up to a boundary makes a step at least.
  obtain ⟨fuel, limit⟩ : ∃ fuel, stepLimit = fuel + 1 := ⟨2 ^ 32 - 1, rfl⟩
  have continued {α β : Type} {program : Exec α} (agree : program cpu = program other)
      (next : α → Exec β) : (program >>= next) cpu = (program >>= next) other :=
    congrArg (· >>= _) agree
  cases advance with
  | step lines => exact continued (step_eq_of_snapshot_eq same lines) _
  | next lines =>
    refine continued ?_ _
    rw [nextInstruction, observeInstruction, limit, map_eq_pure_bind]
    exact continued (drive_eq_of_snapshot_eq same ..) _
  | nextUnlooped lines =>
    refine continued ?_ _
    rw [nextUnlooped, observeUnlooped, limit, map_eq_pure_bind]
    exact continued (drive_eq_of_snapshot_eq same ..) _

/-- If the first computation does the same from two processors, nothing differs from there on. -/
theorem watch_congr (bus : Bus σ) {programs : List (Exec α)} {cpu other : Cpu} (device : σ)
    (agree : ∀ program ∈ programs, program cpu = program other) :
    watch bus programs cpu device = watch bus programs other device := by
  cases programs with
  | nil => rfl
  | cons program rest =>
    have first := agree program (List.mem_cons_self ..)
    simp only [watch, runOn, callsOn, first]

/-- A processor put back from a snapshot goes on by whole steps as the one that the snapshot was
taken of: it makes the same calls, gives the same values back and leaves the same processor each
time, whatever the lines. What is put back is what the snapshot holds. -/
theorem advances_replay (bus : Bus σ) (cpu other : Cpu) (device : σ) (advances : List Advance) :
    let programs := advances.map Advance.run
    watch bus programs (other.restore cpu.snapshot) device = watch bus programs cpu device ∧
      watch bus programs (.ofSnapshot cpu.snapshot) device = watch bus programs cpu device ∧
      ∀ snapshot, (other.restore snapshot).snapshot = snapshot := by
  have replay : ∀ program ∈ advances.map Advance.run,
      program (.ofSnapshot cpu.snapshot) = program cpu := by
    intro program among
    obtain ⟨advance, -, rfl⟩ := List.mem_map.mp among
    exact advance_eq_of_snapshot_eq (Cpu.snapshot_ofSnapshot _) advance
  exact ⟨watch_congr bus device replay, watch_congr bus device replay, Cpu.snapshot_ofSnapshot⟩

/-! ### Ticks -/

/-- A tick on a processor that owes nothing depends on nothing that is not in a snapshot. -/
theorem tick_eq_of_snapshot_eq {cpu other : Cpu} (same : cpu.snapshot = other.snapshot)
    (paid : cpu.backlog = 0) (otherPaid : other.backlog = 0) (lines : Lines) :
    tick lines cpu = tick lines other := by
  rw [tick_apply, tick_apply, if_neg (by simp [paid]), if_neg (by simp [otherPaid]),
    step_eq_of_snapshot_eq same]

/-- The time goes on with the tick that begins a step. -/
theorem total_tick_of_paid (bus : Bus σ) (cpu : Cpu) (device : σ) (lines : Lines)
    (paid : cpu.backlog = 0) :
    (runOn (tick lines) bus cpu device).cpu.total ≠ cpu.total := by
  have settles := (step_settles cpu lines).onBus bus device
  have time : (runOn (tick lines) bus cpu device).cpu.total =
      (runOn (step lines) bus cpu device).cpu.total := by
    rw [(tick_of_paid bus cpu device lines paid).1]
  have least := settles.positive
  have most := (runOn (step lines) bus cpu device).value.tacts_le
  rw [time, settles.total]
  -- A step takes less time than the count holds, so the count cannot come round.
  change (cpu.ready lines).total + _ ≠ (cpu.ready lines).total
  bv_omega

/-- A processor put back from a snapshot goes on by ticks as the one that the snapshot was taken of
if that one owed no tact, and only then: the tacts that are owed are not in the snapshot. -/
theorem ticks_replay_iff (bus : Bus σ) (cpu : Cpu) (device : σ) :
    (∀ lines : List Lines,
      (watch bus (lines.map tickBusy) (.ofSnapshot cpu.snapshot) device).map Watched.shown =
        (watch bus (lines.map tickBusy) cpu device).map Watched.shown) ↔
      cpu.backlog = 0 := by
  constructor
  · intro replay
    apply Classical.byContradiction
    intro owed
    -- The tick that pays a tact books no time, and the copy makes a step.
    have pays := (tick_of_owed bus cpu device {} (Nat.pos_of_ne_zero owed) rfl).1
    have begins := total_tick_of_paid bus (.ofSnapshot cpu.snapshot) device {} rfl
    have same := replay [{}]
    simp only [List.map_cons, List.map_nil, watch, Watched.shown, tickBusy, runOn_map, pays,
      List.cons.injEq, Prod.mk.injEq, Cpu.snapshot] at same
    have time : _ = (cpu.pay {}).total := congrArg Snapshot.total same.1.2.2
    exact begins time
  · intro paid lines
    have replay : ∀ program ∈ lines.map tickBusy,
        program (.ofSnapshot cpu.snapshot) = program cpu := by
      intro program among
      obtain ⟨each, -, rfl⟩ := List.mem_map.mp among
      have first := tick_eq_of_snapshot_eq (Cpu.snapshot_ofSnapshot _) rfl paid each
      rw [tickBusy, map_apply, map_apply, first]
    rw [watch_congr bus device replay]

/-- In the middle of a NOP three tacts are owed, and a processor put back from there is not
replayed: with the next tick it begins the next NOP. -/
theorem ticks_replay_fails :
    ¬ ∀ earlier later : List Lines,
      let reached := runOn (ticks earlier) Board.bus Cpu.fresh Board.fresh
      (watch Board.bus (later.map tickBusy) (.ofSnapshot reached.cpu.snapshot)
          reached.device).map Watched.shown =
        (watch Board.bus (later.map tickBusy) reached.cpu reached.device).map Watched.shown := by
  intro replay
  have times := congrArg (List.map fun shown => shown.2.2.total) (replay [{}] [{}])
  have differ : [(8 : Tacts)] = [4] := times
  exact absurd differ (by decide)

end Exec

end Z80
