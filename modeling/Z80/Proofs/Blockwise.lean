import Z80.Bus.Board
import Z80.Proofs.Replay
import Z80.Proofs.Unsplit

/-!
# Runs over block instructions, instruction by instruction

A run up to a boundary outside a repeating block instruction offers INT and RESET to its first step,
while a loop that runs one instruction after the other offers them to the whole first instruction.
It makes no difference: behind its first step an instruction does not look at these lines. So both
end at the same time, and then they have spent the same time, made the same calls and left the same
machine.

Neither run has to end. The relations below have no bound on the steps, and the drivers follow them
as far as their bounds go.

## Main definitions

* `Exec.unloopedWithin`, `Exec.nextWithin`: the drivers, with any bound on the steps
* `Exec.instructionwise`: one instruction, and the next as long as a block instruction repeats
* `Exec.Returns`: a computation comes to an end with an outcome
* `Exec.Drives`: a run of steps, of any length
* `Exec.Instructionwise`: a run of instructions, of any number and length

## Main results

* `Exec.returns_drive_iff`: the drivers follow the steps
* `Exec.Drives.instructionwise`, `Exec.Instructionwise.drives`: steps up to the boundary are
  instructions up to it
* `Exec.unlooped_instructionwise`: the driver of steps does what the loop of instructions does
-/

namespace Z80

/-- The lines with INT and RESET withdrawn. -/
def Lines.withdrawn (lines : Lines) : Lines := { lines with int := false, reset := false }

namespace Watched

variable {σ : Type}

/-- A step by its time. -/
def timed (watched : Watched σ Segment) : Watched σ Nat :=
  { watched with value := watched.value.tacts }

/-- What two runs come to, one after the other. -/
def followed (first rest : Watched σ Nat) : Watched σ Nat :=
  { rest with value := first.value + rest.value, calls := first.calls ++ rest.calls }

theorem followed_assoc (first second third : Watched σ Nat) :
    (first.followed second).followed third = first.followed (second.followed third) := by
  simp [followed, Nat.add_assoc]

end Watched

namespace Exec

variable {α σ : Type}

/-- Run up to the next instruction boundary, if it is reached within a number of steps. -/
def nextWithin (limit : Nat) (lines : Lines) : Exec (Option Nat) :=
  drive (fun segment _ => !segment.busy) id addTacts limit (unheld lines) 0

/-- Run up to the next boundary outside a repeating block instruction, if it is reached within a
number of steps. -/
def unloopedWithin (limit : Nat) (lines : Lines) : Exec (Option Nat) :=
  drive (fun segment cpu => !segment.busy && !cpu.looping) Lines.withdrawn addTacts limit
    (unheld lines) 0

/-- Run an instruction, and then, as long as a block instruction repeats, another one with INT and
RESET withdrawn. The time of all of them is added up. -/
def instructionwise (next : Lines → Exec (Option Nat)) : Nat → Lines → Exec (Option Nat)
  | 0, _ => return none
  | rounds + 1, lines => do
    match ← next lines with
    | none => return none
    | some tacts =>
      if (← get).looping then Option.map (tacts + ·) <$> instructionwise next rounds lines.withdrawn
      else return some tacts

/-- Started on a processor and a device, the computation comes to an end: it gives the tacts, makes
the calls and leaves the processor and the device of the outcome. -/
def Returns (program : Exec (Option Nat)) (bus : Bus σ) (cpu : Cpu) (device : σ)
    (outcome : Watched σ Nat) : Prop :=
  runOn program bus cpu device = ⟨some outcome.value, outcome.cpu, outcome.device⟩ ∧
    callsOn program bus cpu device = outcome.calls

/-- A step with the calls that it makes. -/
def stepped (bus : Bus σ) (lines : Lines) (cpu : Cpu) (device : σ) : Watched σ Segment :=
  { runOn (step lines) bus cpu device with calls := callsOn (step lines) bus cpu device }

/-- A run of so many steps comes to an end with the outcome. -/
inductive Drives (bus : Bus σ) (ends : Segment → Cpu → Bool) (later : Lines → Lines) :
    Nat → Lines → Cpu → σ → Watched σ Nat → Prop where
  | last {lines : Lines} {cpu : Cpu} {device : σ}
      (stops :
        ends (stepped bus lines cpu device).value (stepped bus lines cpu device).cpu = true) :
      Drives bus ends later 1 lines cpu device (stepped bus lines cpu device).timed
  | cons {steps : Nat} {lines : Lines} {cpu : Cpu} {device : σ} {rest : Watched σ Nat}
      (goes : ends (stepped bus lines cpu device).value (stepped bus lines cpu device).cpu = false)
      (drives : Drives bus ends later steps (later lines) (stepped bus lines cpu device).cpu
        (stepped bus lines cpu device).device rest) :
      Drives bus ends later (steps + 1) lines cpu device
        ((stepped bus lines cpu device).timed.followed rest)

/-! ### The drivers and the steps -/

section Returning

variable {program : Exec (Option Nat)} {bus : Bus σ} {cpu : Cpu} {device : σ}
  {outcome : Watched σ Nat}

theorem returns_some_iff {value : Nat} :
    Returns (pure (some value)) bus cpu device outcome ↔
      outcome = { value, cpu, device, calls := [] } := by
  constructor
  · rintro ⟨run, calls⟩
    obtain ⟨⟨value, left, last⟩, made⟩ := outcome
    cases run
    cases calls
    rfl
  · rintro rfl
    exact ⟨rfl, rfl⟩

theorem not_returns_none : ¬ Returns (pure none) bus cpu device outcome := by
  rintro ⟨run, -⟩
  cases congrArg Result.value run

theorem returns_bind_iff {first : Exec α} {next : α → Exec (Option Nat)} :
    Returns (first >>= next) bus cpu device outcome ↔
      let begun := runOn first bus cpu device
      ∃ rest, Returns (next begun.value) bus begun.cpu begun.device rest ∧
        outcome = { rest with calls := callsOn first bus cpu device ++ rest.calls } := by
  simp only [Returns, runOn_bind, callsOn_bind]
  constructor
  · rintro ⟨run, calls⟩
    let begun := runOn first bus cpu device
    let later := callsOn (next begun.value) bus begun.cpu begun.device
    refine ⟨⟨outcome.toResult, later⟩, ⟨run, rfl⟩, ?_⟩
    rw [calls]
  · rintro ⟨rest, ⟨run, calls⟩, rfl⟩
    exact ⟨run, congrArg _ calls⟩

theorem returns_match_iff {next : Nat → Exec (Option Nat)} :
    Returns (do
        match ← program with
        | none => return none
        | some tacts => next tacts) bus cpu device outcome ↔
      ∃ first, Returns program bus cpu device first ∧
        ∃ rest, Returns (next first.value) bus first.cpu first.device rest ∧
          outcome = { rest with calls := first.calls ++ rest.calls } := by
  rw [returns_bind_iff]
  constructor
  · rintro ⟨rest, returns, rfl⟩
    cases given : (runOn program bus cpu device).value with
    | none =>
      rw [given] at returns
      exact absurd returns not_returns_none
    | some tacts =>
      rw [given] at returns
      exact ⟨⟨⟨tacts, _, _⟩, _⟩, ⟨by rw [← given], rfl⟩, rest, returns, rfl⟩
  · rintro ⟨first, ⟨run, calls⟩, rest, returns, rfl⟩
    rw [run, calls]
    exact ⟨rest, returns, rfl⟩

theorem returns_map_iff {spent : Nat} :
    Returns (Option.map (spent + ·) <$> program) bus cpu device outcome ↔
      ∃ rest, Returns program bus cpu device rest ∧
        outcome = { rest with value := spent + rest.value } := by
  simp only [Returns, runOn_map, callsOn_map]
  constructor
  · rintro ⟨run, calls⟩
    obtain ⟨⟨value, left, last⟩, made⟩ := outcome
    simp only [Result.mk.injEq, Option.map_eq_some_iff] at run
    obtain ⟨⟨tacts, given, rfl⟩, rfl, rfl⟩ := run
    exact ⟨⟨⟨tacts, _, _⟩, made⟩, ⟨by rw [← given], calls⟩, rfl⟩
  · rintro ⟨rest, ⟨run, calls⟩, rfl⟩
    exact ⟨by rw [run]; rfl, calls⟩

/-- A count comes back exactly if it holds the sum that would. -/
theorem returns_counted_iff :
    Returns ((·.bind counted) <$> program) bus cpu device outcome ↔
      outcome.value < 2 ^ 32 ∧ Returns program bus cpu device outcome := by
  simp only [Returns, runOn_map, callsOn_map]
  constructor
  · rintro ⟨run, calls⟩
    obtain ⟨⟨value, left, last⟩, made⟩ := outcome
    simp only [Result.mk.injEq, Option.bind_eq_some_iff, counted_eq_some_iff] at run
    obtain ⟨⟨tacts, given, fits, rfl⟩, rfl, rfl⟩ := run
    exact ⟨fits, by rw [← given], calls⟩
  · rintro ⟨fits, run, calls⟩
    simp only [run, Option.bind_some, counted_of_lt fits]
    exact ⟨trivial, calls⟩

end Returning

section Counting

variable {bus : Bus σ} {cpu : Cpu} {device : σ} {outcome : Watched σ Nat} {lines : Lines}

theorem returns_nextInstruction_iff :
    Returns (nextInstruction lines) bus cpu device outcome ↔
      outcome.value < 2 ^ 32 ∧ Returns (nextWithin stepLimit lines) bus cpu device outcome :=
  returns_counted_iff

theorem returns_nextUnlooped_iff :
    Returns (nextUnlooped lines) bus cpu device outcome ↔
      outcome.value < 2 ^ 32 ∧ Returns (unloopedWithin stepLimit lines) bus cpu device outcome :=
  returns_counted_iff

end Counting

/-- The time spent before does not matter for how a driver goes on. -/
theorem drive_spent (ends : Segment → Cpu → Bool) (later : Lines → Lines) (limit : Nat)
    (lines : Lines) (spent : Nat) :
    drive ends later addTacts limit lines spent =
      Option.map (spent + ·) <$> drive ends later addTacts limit lines 0 := by
  induction limit generalizing lines spent with
  | zero => rfl
  | succ limit ih =>
    simp only [drive, map_bind]
    apply congrArg (step lines >>= ·)
    funext segment
    apply congrArg (get >>= ·)
    funext cpu
    split
    · simp [addTacts]
    · rw [ih, ih _ (addTacts 0 segment cpu), Functor.map_map]
      simp [addTacts, Function.comp_def, Nat.add_assoc]

section Driver

variable {ends : Segment → Cpu → Bool} {later : Lines → Lines} {limit : Nat} {lines : Lines}
  {bus : Bus σ} {cpu : Cpu} {device : σ} {outcome : Watched σ Nat}

theorem returns_drive_of_stops
    (stops : ends (stepped bus lines cpu device).value (stepped bus lines cpu device).cpu = true) :
    Returns (drive ends later addTacts (limit + 1) lines 0) bus cpu device outcome ↔
      outcome = (stepped bus lines cpu device).timed := by
  have ended : ends (runOn (step lines) bus cpu device).value
      (runOn (step lines) bus cpu device).cpu = true := stops
  simp only [drive, returns_bind_iff, runOn_get, callsOn_get, List.nil_append, ended, if_true,
    returns_some_iff]
  simp [Watched.timed, stepped, addTacts]

theorem returns_drive_of_goes
    (goes : ends (stepped bus lines cpu device).value (stepped bus lines cpu device).cpu = false) :
    Returns (drive ends later addTacts (limit + 1) lines 0) bus cpu device outcome ↔
      ∃ rest, Returns (drive ends later addTacts limit (later lines) 0) bus
          (stepped bus lines cpu device).cpu (stepped bus lines cpu device).device rest ∧
        outcome = (stepped bus lines cpu device).timed.followed rest := by
  have underway : ends (runOn (step lines) bus cpu device).value
      (runOn (step lines) bus cpu device).cpu = false := goes
  simp only [drive, returns_bind_iff, runOn_get, callsOn_get, List.nil_append, underway,
    Bool.false_eq_true, if_false]
  rw [drive_spent]
  simp only [returns_map_iff, addTacts, Nat.zero_add]
  constructor
  · rintro ⟨_, ⟨_, ⟨rest, returns, rfl⟩, rfl⟩, rfl⟩
    exact ⟨rest, returns, rfl⟩
  · rintro ⟨rest, returns, rfl⟩
    exact ⟨_, ⟨_, ⟨rest, returns, rfl⟩, rfl⟩, rfl⟩

end Driver

/-- The driver comes to an end exactly if the steps do so within its bound. -/
theorem returns_drive_iff (bus : Bus σ) (ends : Segment → Cpu → Bool) (later : Lines → Lines)
    (limit : Nat) (lines : Lines) (cpu : Cpu) (device : σ) (outcome : Watched σ Nat) :
    Returns (drive ends later addTacts limit lines 0) bus cpu device outcome ↔
      ∃ steps ≤ limit, Drives bus ends later steps lines cpu device outcome := by
  induction limit generalizing lines cpu device outcome with
  | zero =>
    constructor
    · exact fun returns => absurd returns not_returns_none
    · rintro ⟨steps, within, drives⟩
      cases drives <;> omega
  | succ limit ih =>
    cases stops : ends (stepped bus lines cpu device).value (stepped bus lines cpu device).cpu with
    | true =>
      rw [returns_drive_of_stops stops]
      constructor
      · rintro rfl
        exact ⟨1, by omega, .last stops⟩
      · rintro ⟨steps, within, drives⟩
        cases drives with
        | last _ => rfl
        | cons goes _ => cases stops.symm.trans goes
    | false =>
      rw [returns_drive_of_goes stops]
      constructor
      · rintro ⟨rest, returns, rfl⟩
        obtain ⟨steps, within, drives⟩ := (ih ..).mp returns
        exact ⟨steps + 1, by omega, .cons stops drives⟩
      · rintro ⟨steps, within, drives⟩
        cases drives with
        | last stopped => cases stops.symm.trans stopped
        | @cons steps _ _ _ rest _ drives =>
          exact ⟨rest, (ih ..).mpr ⟨steps, by omega, drives⟩, rfl⟩

/-! ### Steps and instructions -/

/-- A run of so many steps up to the next boundary. -/
abbrev DrivesNext (bus : Bus σ) : Nat → Lines → Cpu → σ → Watched σ Nat → Prop :=
  Drives bus (fun segment _ => !segment.busy) id

/-- A run of so many steps up to a boundary outside a repeating block instruction. -/
abbrev DrivesUnlooped (bus : Bus σ) : Nat → Lines → Cpu → σ → Watched σ Nat → Prop :=
  Drives bus (fun segment cpu => !segment.busy && !cpu.looping) Lines.withdrawn

/-- Instructions up to a boundary outside a repeating block instruction. -/
inductive Instructionwise (bus : Bus σ) : Lines → Cpu → σ → Watched σ Nat → Prop where
  | last {steps : Nat} {lines : Lines} {cpu : Cpu} {device : σ} {first : Watched σ Nat}
      (drives : DrivesNext bus steps lines cpu device first) (ends : first.cpu.looping = false) :
      Instructionwise bus lines cpu device first
  | cons {steps : Nat} {lines : Lines} {cpu : Cpu} {device : σ} {first rest : Watched σ Nat}
      (drives : DrivesNext bus steps lines cpu device first) (repeats : first.cpu.looping = true)
      (goes : Instructionwise bus lines.withdrawn first.cpu first.device rest) :
      Instructionwise bus lines cpu device (first.followed rest)

section Lines

variable {bus : Bus σ} {cpu : Cpu} {device : σ} {lines other : Lines} {steps : Nat}
  {outcome : Watched σ Nat}

/-- Two settings of the lines, neither with WAIT, that agree on NMI. -/
structure SameNmi (lines other : Lines) : Prop where
  running : lines.wait = false
  free : other.wait = false
  nmi : lines.nmi = other.nmi

/-- Inside an instruction a step does not tell such lines apart. -/
theorem stepped_congr (same : SameNmi lines other) (pending : cpu.pending.isSome = true) :
    stepped bus lines cpu device = stepped bus other cpu device := by
  obtain ⟨page, selected⟩ := Option.isSome_iff_exists.mp pending
  have step : step lines cpu = step other cpu := by
    rw [step_of_pending selected same.running, step_of_pending selected same.free, same.nmi]
  simp only [stepped, runOn, callsOn, step]

/-- A step without WAIT is busy exactly if it leaves a prefix pending. -/
theorem busy_stepped (running : lines.wait = false) :
    (stepped bus lines cpu device).value.busy =
      (stepped bus lines cpu device).cpu.pending.isSome := by
  have delimits := (step_delimits cpu lines).onBus bus device
  rw [running, Bool.false_or] at delimits
  exact delimits.1

/-- Inside an instruction the run to its end does not tell them apart. -/
theorem Drives.next_congr (drives : DrivesNext bus steps lines cpu device outcome)
    (same : SameNmi lines other) (pending : cpu.pending.isSome = true) :
    DrivesNext bus steps other cpu device outcome := by
  induction drives with
  | last stops =>
    rw [stepped_congr same pending] at stops ⊢
    exact .last stops
  | cons goes drives ih =>
    have next := ih same (by
      rw [← busy_stepped same.running]
      simpa using goes)
    rw [stepped_congr same pending] at goes next ⊢
    exact .cons goes next

theorem Drives.unlooped_congr (drives : DrivesUnlooped bus steps lines cpu device outcome)
    (same : SameNmi lines other) (pending : cpu.pending.isSome = true) :
    DrivesUnlooped bus steps other cpu device outcome := by
  have withdrawn : lines.withdrawn = other.withdrawn := by
    simp [Lines.withdrawn, same.running, same.free, same.nmi]
  cases drives with
  | last stops =>
    rw [stepped_congr same pending] at stops ⊢
    exact .last stops
  | cons goes drives =>
    rw [stepped_congr same pending] at goes drives ⊢
    exact .cons goes (withdrawn ▸ drives)

end Lines

/-! ### Steps up to the boundary are instructions up to it -/

section Boundary

variable {bus : Bus σ} {cpu : Cpu} {device : σ} {lines : Lines} {steps : Nat}
  {outcome first rest : Watched σ Nat}

theorem sameNmi_withdrawn (running : lines.wait = false) : SameNmi lines.withdrawn lines :=
  ⟨running, running, rfl⟩

/-- A step inside an instruction comes before the instructions that follow it. -/
theorem Instructionwise.of_busy (running : lines.wait = false)
    (busy : (stepped bus lines cpu device).value.busy = true)
    (later : Instructionwise bus lines.withdrawn (stepped bus lines cpu device).cpu
      (stepped bus lines cpu device).device rest) :
    Instructionwise bus lines cpu device ((stepped bus lines cpu device).timed.followed rest) := by
  have pending : (stepped bus lines cpu device).cpu.pending.isSome = true :=
    busy_stepped running ▸ busy
  have same := sameNmi_withdrawn running
  -- The rest of the instruction runs as it would have with INT and RESET.
  cases later with
  | last drives ends =>
    exact .last (.cons (by simpa using busy) (drives.next_congr same pending)) ends
  | cons drives repeats goes =>
    rw [← Watched.followed_assoc]
    exact .cons (.cons (by simpa using busy) (drives.next_congr same pending)) repeats goes

/-- Steps up to the boundary are instructions. -/
theorem Drives.instructionwise (drives : DrivesUnlooped bus steps lines cpu device outcome)
    (running : lines.wait = false) : Instructionwise bus lines cpu device outcome := by
  induction drives with
  | @last lines cpu device stops =>
    have ends : (stepped bus lines cpu device).value.busy = false ∧
        (stepped bus lines cpu device).cpu.looping = false := by simpa using stops
    exact .last (.last (by simp [ends.1])) ends.2
  | @cons steps lines cpu device rest goes drives ih =>
    have later := ih running
    cases busy : (stepped bus lines cpu device).value.busy with
    | true => exact .of_busy running busy later
    | false =>
      have repeats : (stepped bus lines cpu device).cpu.looping = true := by
        simpa [busy] using goes
      exact .cons (.last (by simp [busy])) repeats later

/-- A step inside an instruction comes before the steps that follow it. -/
theorem Drives.unlooped_of_busy (running : lines.wait = false)
    (busy : (stepped bus lines cpu device).value.busy = true)
    (later : DrivesUnlooped bus steps lines (stepped bus lines cpu device).cpu
      (stepped bus lines cpu device).device rest) :
    DrivesUnlooped bus (steps + 1) lines cpu device
      ((stepped bus lines cpu device).timed.followed rest) := by
  have pending : (stepped bus lines cpu device).cpu.pending.isSome = true :=
    busy_stepped running ▸ busy
  exact .cons (by simp [busy]) (later.unlooped_congr ⟨running, running, rfl⟩ pending)

/-- An instruction after which no block instruction repeats ends the run. -/
theorem Drives.unlooped_of_ends (drives : DrivesNext bus steps lines cpu device first)
    (running : lines.wait = false) (ends : first.cpu.looping = false) :
    DrivesUnlooped bus steps lines cpu device first := by
  induction drives with
  | @last lines cpu device stops =>
    have closed : (stepped bus lines cpu device).value.busy = false := by simpa using stops
    have left : (stepped bus lines cpu device).cpu.looping = false := ends
    exact .last (by simp [closed, left])
  | cons goes drives ih => exact unlooped_of_busy running (by simpa using goes) (ih running ends)

/-- Behind an instruction that repeats, the run goes on. -/
theorem Drives.unlooped_of_repeats (drives : DrivesNext bus steps lines cpu device first)
    (running : lines.wait = false) (repeats : first.cpu.looping = true) {more : Nat}
    (later : DrivesUnlooped bus more lines.withdrawn first.cpu first.device rest) :
    DrivesUnlooped bus (steps + more) lines cpu device (first.followed rest) := by
  induction drives with
  | @last lines cpu device stops =>
    have goes : (stepped bus lines cpu device).cpu.looping = true := repeats
    rw [Nat.add_comm]
    exact .cons (by simp [goes]) later
  | cons goes drives ih =>
    rw [Watched.followed_assoc, Nat.add_right_comm]
    exact unlooped_of_busy running (by simpa using goes) (ih running repeats later)

/-- Instructions are steps up to the boundary. -/
theorem Instructionwise.drives (instructions : Instructionwise bus lines cpu device outcome)
    (running : lines.wait = false) :
    ∃ steps, DrivesUnlooped bus steps lines cpu device outcome := by
  induction instructions with
  | last drives ends => exact ⟨_, drives.unlooped_of_ends running ends⟩
  | cons drives repeats _ ih =>
    obtain ⟨steps, later⟩ := ih running
    exact ⟨_, drives.unlooped_of_repeats running repeats later⟩

/-- Every step takes a tact at least. -/
theorem Drives.steps_le {ends : Segment → Cpu → Bool} {later : Lines → Lines}
    (drives : Drives bus ends later steps lines cpu device outcome) : steps ≤ outcome.value := by
  have positive (lines : Lines) (cpu : Cpu) (device : σ) :
      0 < (stepped bus lines cpu device).timed.value :=
    ((step_settles cpu lines).onBus bus device).positive
  induction drives with
  | last _ => exact positive ..
  | @cons _ lines cpu device rest _ _ ih =>
    have first := positive lines cpu device
    simp only [Watched.followed]
    omega

end Boundary

/-! ### The loop of instructions -/

/-- Once the first instruction has come to an end, the loop goes on if a block instruction
repeats. -/
theorem returns_instructionwise_succ_iff {bus : Bus σ} {cpu : Cpu} {device : σ}
    {outcome : Watched σ Nat} {next : Lines → Exec (Option Nat)} {rounds : Nat} {lines : Lines} :
    Returns (instructionwise next (rounds + 1) lines) bus cpu device outcome ↔
      ∃ first, Returns (next lines) bus cpu device first ∧
        (first.cpu.looping = false ∧ outcome = first ∨
          first.cpu.looping = true ∧ ∃ rest,
            Returns (instructionwise next rounds lines.withdrawn) bus first.cpu first.device rest ∧
              outcome = first.followed rest) := by
  rw [instructionwise, returns_match_iff]
  refine exists_congr fun first => and_congr_right fun _ => ?_
  simp only [returns_bind_iff, runOn_get, callsOn_get, List.nil_append]
  by_cases repeats : first.cpu.looping = true
  · simp only [repeats, if_true, returns_map_iff, true_and, Bool.true_eq_false, false_and, false_or]
    constructor
    · rintro ⟨_, ⟨_, ⟨rest, returns, rfl⟩, rfl⟩, rfl⟩
      exact ⟨rest, returns, rfl⟩
    · rintro ⟨rest, returns, rfl⟩
      exact ⟨_, ⟨_, ⟨rest, returns, rfl⟩, rfl⟩, rfl⟩
  · simp only [repeats, Bool.false_eq_true, if_false, returns_some_iff, false_and, or_false,
      true_and]
    constructor
    · rintro ⟨_, ⟨_, rfl, rfl⟩, rfl⟩
      simp
    · rintro rfl
      exact ⟨_, ⟨_, rfl, rfl⟩, by simp⟩

/-- What the loop gives, instructions come to. -/
theorem Returns.instructions {limit rounds : Nat} {lines : Lines} {bus : Bus σ} {cpu : Cpu}
    {device : σ} {outcome : Watched σ Nat}
    (returns : Returns (instructionwise (nextWithin limit) rounds lines) bus cpu device outcome) :
    Instructionwise bus (unheld lines) cpu device outcome := by
  induction rounds generalizing lines cpu device outcome with
  | zero => exact absurd returns not_returns_none
  | succ rounds ih =>
    obtain ⟨first, begun, ⟨ends, rfl⟩ | ⟨repeats, rest, later, rfl⟩⟩ :=
      returns_instructionwise_succ_iff.mp returns
    · obtain ⟨steps, -, drives⟩ := (returns_drive_iff ..).mp begun
      exact .last drives ends
    · obtain ⟨steps, -, drives⟩ := (returns_drive_iff ..).mp begun
      exact .cons drives repeats (ih later)

/-- What instructions come to, the loop gives once it has rounds enough, if no instruction has more
steps than the bound on their time allows. -/
theorem Instructionwise.returns {lines : Lines} {bus : Bus σ} {cpu : Cpu} {device : σ}
    {outcome : Watched σ Nat}
    (instructions : Instructionwise bus (unheld lines) cpu device outcome) :
    ∃ rounds, ∀ limit, outcome.value ≤ limit →
      Returns (instructionwise (nextWithin limit) rounds lines) bus cpu device outcome := by
  generalize held : unheld lines = running at instructions
  induction instructions generalizing lines with
  | last drives ends =>
    subst held
    refine ⟨1, fun limit within => returns_instructionwise_succ_iff.mpr ?_⟩
    have begun := (returns_drive_iff ..).mpr ⟨_, Nat.le_trans drives.steps_le within, drives⟩
    exact ⟨_, begun, .inl ⟨ends, rfl⟩⟩
  | @cons _ _ _ _ first rest drives repeats _ ih =>
    subst held
    have withdrawn : unheld lines.withdrawn = (unheld lines).withdrawn := rfl
    obtain ⟨rounds, later⟩ := ih withdrawn
    refine ⟨rounds + 1, fun limit within => returns_instructionwise_succ_iff.mpr ?_⟩
    have total : first.value + rest.value ≤ limit := within
    have enough : first.value ≤ limit := by omega
    have begun := (returns_drive_iff ..).mpr ⟨_, Nat.le_trans drives.steps_le enough, drives⟩
    exact ⟨_, begun, .inr ⟨repeats, _, later limit (by omega), rfl⟩⟩

/-- A count that holds the time of all instructions holds the time of each. -/
theorem returns_instructionwise_iff {rounds : Nat} {lines : Lines} {bus : Bus σ} {cpu : Cpu}
    {device : σ} {outcome : Watched σ Nat} (fits : outcome.value < 2 ^ 32) :
    Returns (instructionwise nextInstruction rounds lines) bus cpu device outcome ↔
      Returns (instructionwise (nextWithin stepLimit) rounds lines) bus cpu device outcome := by
  induction rounds generalizing lines cpu device outcome with
  | zero => rfl
  | succ rounds ih =>
    rw [returns_instructionwise_succ_iff, returns_instructionwise_succ_iff]
    constructor
    · rintro ⟨first, begun, ⟨ends, rfl⟩ | ⟨repeats, rest, later, rfl⟩⟩
      · exact ⟨_, (returns_nextInstruction_iff.mp begun).2, .inl ⟨ends, rfl⟩⟩
      · have held : rest.value < 2 ^ 32 := Nat.lt_of_le_of_lt (Nat.le_add_left ..) fits
        exact ⟨_, (returns_nextInstruction_iff.mp begun).2,
          .inr ⟨repeats, _, (ih held).mp later, rfl⟩⟩
    · rintro ⟨first, begun, ⟨ends, rfl⟩ | ⟨repeats, rest, later, rfl⟩⟩
      · exact ⟨_, returns_nextInstruction_iff.mpr ⟨fits, begun⟩, .inl ⟨ends, rfl⟩⟩
      · have held : rest.value < 2 ^ 32 := Nat.lt_of_le_of_lt (Nat.le_add_left ..) fits
        have short : first.value < 2 ^ 32 := Nat.lt_of_le_of_lt (Nat.le_add_right ..) fits
        exact ⟨_, returns_nextInstruction_iff.mpr ⟨short, begun⟩,
          .inr ⟨repeats, _, (ih held).mpr later, rfl⟩⟩

/-- Without a bound on their steps, a run up to a boundary outside a repeating block instruction
comes to an end exactly if the loop does that runs one instruction under the same lines and then, as
long as a block instruction repeats, another one with INT and RESET withdrawn. Both then give the
same tacts, make the same calls and leave the same processor and device. With the bound that a count
of tacts has, it is the same for all outcomes that such a count holds. -/
theorem unlooped_instructionwise (bus : Bus σ) (cpu : Cpu) (device : σ) (lines : Lines)
    (outcome : Watched σ Nat) :
    ((∃ limit, Returns (unloopedWithin limit lines) bus cpu device outcome) ↔
        ∃ limit rounds,
          Returns (instructionwise (nextWithin limit) rounds lines) bus cpu device outcome) ∧
      (outcome.value < 2 ^ 32 →
        (Returns (nextUnlooped lines) bus cpu device outcome ↔
          ∃ rounds,
            Returns (instructionwise nextInstruction rounds lines) bus cpu device outcome)) := by
  refine ⟨⟨?_, ?_⟩, fun counted => ?_⟩
  · rintro ⟨limit, returns⟩
    obtain ⟨steps, -, drives⟩ := (returns_drive_iff ..).mp returns
    obtain ⟨rounds, loop⟩ := (drives.instructionwise rfl).returns
    exact ⟨outcome.value, rounds, loop _ (Nat.le_refl _)⟩
  · rintro ⟨limit, rounds, returns⟩
    obtain ⟨steps, drives⟩ := returns.instructions.drives rfl
    exact ⟨steps, (returns_drive_iff ..).mpr ⟨steps, Nat.le_refl _, drives⟩⟩
  · -- No run has more steps than tacts, so the bound on the steps is no further restriction.
    simp only [returns_nextUnlooped_iff, returns_instructionwise_iff counted, counted, true_and]
    constructor
    · intro returns
      obtain ⟨steps, -, drives⟩ := (returns_drive_iff ..).mp returns
      obtain ⟨rounds, loop⟩ := (drives.instructionwise rfl).returns
      exact ⟨rounds, loop stepLimit (Nat.le_of_lt counted)⟩
    · rintro ⟨rounds, returns⟩
      obtain ⟨steps, drives⟩ := returns.instructions.drives rfl
      have enough : steps ≤ stepLimit := Nat.le_trans drives.steps_le (Nat.le_of_lt counted)
      exact (returns_drive_iff ..).mpr ⟨steps, enough, drives⟩

/-- INT is held behind EI while LDIR copies two bytes, and nothing accepts it before both are
copied. -/
theorem ldir_instructionwise_behind_ei :
    let registers := (({ Cpu.fresh.registers with iff1 := true }).setBC 2).setDE 0x5000
    let cpu : Cpu := { Cpu.fresh with registers, suppressed := true }
    let board := Board.fresh.load 0x0000 [0xED, 0xB0]
    let lines : Lines := { int := true }
    let outcome : Watched Board Nat :=
      { runOn (nextUnlooped lines) Board.bus cpu board with
        value := 37
        calls := callsOn (nextUnlooped lines) Board.bus cpu board }
    acknowledgements outcome.calls = [] ∧ outcome.cpu.registers.pc = 2 ∧
      ∃ rounds,
        Returns (instructionwise nextInstruction rounds lines) Board.bus cpu board outcome := by
  intro registers cpu board lines outcome
  have value : (runOn (nextUnlooped lines) Board.bus cpu board).value = some 37 := by
    decide +kernel
  have returns : Returns (nextUnlooped lines) Board.bus cpu board outcome :=
    ⟨by rw [← value], rfl⟩
  have loop := ((unlooped_instructionwise Board.bus cpu board lines outcome).2 (by decide)).mp
    returns
  exact ⟨by decide +kernel, by decide +kernel, loop⟩

end Exec

end Z80
