import Z80.Bus.Board
import Z80.Cpu.Run
import Z80.Proofs.Step

/-!
# Ticks and steps

A tick that begins a step makes all of its accesses, and the ticks after it pay the rest of its time
without touching the bus. As many ticks as a step takes tacts therefore do what the step does. The
time of a step is booked when it begins, so the count of tacts runs ahead by what is still owed, and
less that it goes on by one with every tick.

## Main definitions

* `Cpu.pay`: the processor after it has paid a tact of its step
* `Cpu.wait`: the processor after a tact of waiting
* `Cpu.elapsed`: the tacts that have gone by
* `Exec.ticks`: one tick after the other

## Main results

* `Exec.tick_apply`: a tick, opened
* `Exec.ticks_of_owed`: the ticks that pay the rest of a step
* `Exec.ticks_refine_step`: the ticks of a step do what the step does
* `Exec.ticks_elapse`: every tick is one tact
-/

namespace Z80

/-- The processor after it has paid a tact of its step. -/
def Cpu.pay (cpu : Cpu) (lines : Lines) : Cpu :=
  { cpu.sampleNmi lines with backlog := cpu.backlog - 1 }

/-- The processor after a tact of waiting. -/
def Cpu.wait (cpu : Cpu) (lines : Lines) : Cpu :=
  { cpu.sampleNmi lines with total := cpu.total.after 1 }

/-- The tacts that have gone by: those booked so far, less those still owed. -/
def Cpu.elapsed (cpu : Cpu) : Tacts := cpu.total - BitVec.ofNat 64 cpu.backlog

/-- Paying tacts changes what is owed and notes non-maskable interrupts. -/
theorem Cpu.foldl_pay (cpu : Cpu) (later : List Lines) :
    later.foldl pay cpu =
      { cpu with
        backlog := cpu.backlog - later.length
        nmiPending := cpu.nmiPending || later.any Lines.nmi } := by
  induction later generalizing cpu with
  | nil => simp
  | cons lines later ih =>
    rw [List.foldl_cons, ih]
    simp [pay, sampleNmi, Bool.or_assoc, Nat.sub_sub, Nat.add_comm]

namespace Exec

variable {σ : Type}

/-- One tick under each of the given lines. -/
def ticks : List Lines → Exec (List Tick)
  | [] => return []
  | lines :: later => do
    let first ← tick lines
    let more ← ticks later
    return first :: more

/-- While a tact is owed, a tick makes no call: it pays the tact, or it waits. -/
theorem spend_apply (lines : Lines) (cpu : Cpu) :
    spend lines cpu =
      .done (if lines.wait then ({ busy := true }, cpu.wait lines)
        else ({ busy := decide (0 < cpu.backlog - 1) || cpu.prefixPending }, cpu.pay lines)) := by
  cases held : lines.wait <;> simp only [spend, held] <;> rfl

/-- A tick spends a tact that is owed, or makes a step and leaves the rest of its time to pay. -/
theorem tick_apply (lines : Lines) (cpu : Cpu) :
    tick lines cpu =
      if 0 < cpu.backlog then spend lines cpu
      else (fun result =>
        ({ busy := result.1.busy || decide (0 < result.2.stepTacts - 1), started := some result.1 },
          { result.2 with backlog := result.2.stepTacts - 1 })) <$> step lines cpu := by
  change (if 0 < cpu.backlog then _ else _ : Exec Tick) cpu = _
  rw [map_eq_pure_bind]
  split <;> rfl

variable (bus : Bus σ) (cpu : Cpu) (device : σ)

/-- A tick on a processor that owes a tact waits under WAIT. -/
theorem tick_of_held (lines : Lines) (owed : 0 < cpu.backlog) (held : lines.wait = true) :
    runOn (tick lines) bus cpu device = ⟨{ busy := true }, cpu.wait lines, device⟩ ∧
      callsOn (tick lines) bus cpu device = [] := by
  simp [runOn, callsOn, tick_apply, spend_apply, owed, held]

/-- A tick on a processor that owes a tact pays it, if WAIT is not asserted. -/
theorem tick_of_owed (lines : Lines) (owed : 0 < cpu.backlog) (running : lines.wait = false) :
    runOn (tick lines) bus cpu device =
        ⟨{ busy := decide (1 < cpu.backlog) || cpu.prefixPending }, cpu.pay lines, device⟩ ∧
      callsOn (tick lines) bus cpu device = [] := by
  have left : 0 < cpu.backlog - 1 ↔ 1 < cpu.backlog := by omega
  simp [tick, owed, spend, running, Cpu.pay, Cpu.sampleNmi, Cpu.prefixPending, left]

/-- A tick on a processor that owes nothing makes a step and leaves the rest of its time to pay. -/
theorem tick_of_paid (lines : Lines) (paid : cpu.backlog = 0) :
    let stepped := runOn (step lines) bus cpu device
    runOn (tick lines) bus cpu device =
        ⟨{ busy := stepped.value.busy || decide (1 < stepped.cpu.stepTacts)
           started := some stepped.value },
          { stepped.cpu with backlog := stepped.cpu.stepTacts - 1 }, stepped.device⟩ ∧
      callsOn (tick lines) bus cpu device = callsOn (step lines) bus cpu device := by
  have left (tacts : Nat) : 0 < tacts - 1 ↔ 1 < tacts := by omega
  simp [tick, paid, left]

/-- The ticks that pay what a processor owes do not touch the bus, and the last of them is busy
exactly if a prefix is pending. -/
theorem ticks_of_owed (lines : Lines) (later : List Lines)
    (owed : cpu.backlog = later.length + 1)
    (running : ∀ each ∈ lines :: later, each.wait = false) :
    (runOn (ticks (lines :: later)) bus cpu device).value.map Tick.busy =
        List.replicate later.length true ++ [cpu.prefixPending] ∧
      (runOn (ticks (lines :: later)) bus cpu device).cpu = (lines :: later).foldl Cpu.pay cpu ∧
      (runOn (ticks (lines :: later)) bus cpu device).device = device ∧
      callsOn (ticks (lines :: later)) bus cpu device = [] := by
  induction later generalizing lines cpu with
  | nil =>
    obtain ⟨run, calls⟩ := tick_of_owed bus cpu device lines (by simp [owed]) (running _ (by simp))
    simp [ticks, run, calls, owed]
  | cons next later ih =>
    obtain ⟨run, calls⟩ := tick_of_owed bus cpu device lines (by simp [owed]) (running _ (by simp))
    have left : (cpu.pay lines).backlog = later.length + 1 := by simp [Cpu.pay, owed]
    have kept : (cpu.pay lines).prefixPending = cpu.prefixPending := rfl
    obtain ⟨busy, after, same, silent⟩ := ih (cpu.pay lines) next left fun each member =>
      running each (List.mem_cons_of_mem _ member)
    rw [ticks]
    simp [run, calls, busy, after, same, silent, kept, owed, List.replicate_succ]

/-- As many ticks as a step takes tacts do what the step does: the first tick makes all of its
calls, all ticks but the last are busy, and the last is busy exactly if the step is. WAIT must not
be asserted on the ticks after the first, and a non-maskable interrupt seen on them stays noted. -/
theorem ticks_refine_step (lines : Lines) (later : List Lines) (paid : cpu.backlog = 0)
    (running : ∀ each ∈ later, each.wait = false)
    (length : later.length = (runOn (step lines) bus cpu device).cpu.stepTacts - 1) :
    let stepped := runOn (step lines) bus cpu device
    let ticked := runOn (ticks (lines :: later)) bus cpu device
    0 < stepped.cpu.stepTacts ∧
      callsOn (ticks (lines :: later)) bus cpu device = callsOn (step lines) bus cpu device ∧
      callsOn (tick lines) bus cpu device = callsOn (step lines) bus cpu device ∧
      ticked.value.map Tick.busy = List.replicate later.length true ++ [stepped.value.busy] ∧
      ticked.device = stepped.device ∧ ticked.cpu.backlog = 0 ∧
      (later.any Lines.nmi = false → ticked.cpu = stepped.cpu) ∧
      (later.any Lines.nmi = true → ticked.cpu = { stepped.cpu with nmiPending := true }) := by
  have settles := (step_settles cpu lines).onBus bus device
  obtain ⟨run, calls⟩ := tick_of_paid bus cpu device lines paid
  generalize runOn (step lines) bus cpu device = stepped at *
  have positive : 0 < stepped.cpu.stepTacts := settles.stepTacts ▸ settles.positive
  have rest : { stepped.cpu with backlog := 0 } = stepped.cpu := by rw [← settles.backlog]
  -- A step of one tact is over with its first tick, and its segment alone says if it is busy.
  cases later with
  | nil =>
    have last : stepped.cpu.stepTacts - 1 = 0 := length.symm
    have single : ¬ 1 < stepped.cpu.stepTacts := Nat.not_lt.mpr (Nat.sub_eq_zero_iff_le.mp last)
    simp [ticks, run, calls, last, single, positive, rest, settles.backlog]
  | cons next later =>
    have more : 1 < stepped.cpu.stepTacts := by
      rw [List.length_cons] at length
      omega
    have several : 1 < stepped.value.tacts := settles.stepTacts ▸ more
    obtain ⟨busy, after, same, silent⟩ := ticks_of_owed bus
      { stepped.cpu with backlog := stepped.cpu.stepTacts - 1 } stepped.device next later
      length.symm running
    have owed : stepped.cpu.stepTacts - 1 - (next :: later).length = stepped.cpu.backlog := by
      rw [settles.backlog]
      omega
    rw [Cpu.foldl_pay, owed] at after
    have pending : stepped.cpu.pending.isSome = stepped.value.busy := (settles.busy several).symm
    rw [ticks]
    refine ⟨positive, ?_, calls, ?_, ?_, ?_, ?_, ?_⟩
    · simp [run, calls, silent]
    · simp [run, busy, more, Cpu.prefixPending, pending, List.replicate_succ]
    · simp [run, same]
    · simp [run, after, settles.backlog]
    · intro quiet
      simp [run, after, quiet]
    · intro noted
      simp [run, after, noted]

/-- A NOP takes four tacts. With NMI on the third, it stays noted and nothing else differs. -/
theorem ticks_of_nop :
    let stepped := runOn (step {}) Board.bus Cpu.fresh Board.fresh
    let ticked := runOn (ticks [{}, {}, { nmi := true }, {}]) Board.bus Cpu.fresh Board.fresh
    stepped.cpu.stepTacts = 4 ∧ ticked.value.map Tick.busy = [true, true, true, false] ∧
      ticked.cpu = { stepped.cpu with nmiPending := true } := by
  have refined := ticks_refine_step Board.bus Cpu.fresh Board.fresh {}
    [{}, { nmi := true }, {}] rfl (by decide) rfl
  exact ⟨rfl, refined.2.2.2.1, refined.2.2.2.2.2.2.2 rfl⟩

end Exec

/-! ### Time that goes by -/

namespace Cpu

variable (cpu : Cpu) (lines : Lines)

theorem elapsed_of_paid (paid : cpu.backlog = 0) : cpu.elapsed = cpu.total := by
  simp [elapsed, paid]

theorem elapsed_wait : (cpu.wait lines).elapsed = cpu.elapsed.after 1 := by
  simp only [elapsed, wait, sampleNmi, Tacts.after]
  bv_omega

theorem elapsed_pay (owed : 0 < cpu.backlog) : (cpu.pay lines).elapsed = cpu.elapsed.after 1 := by
  obtain ⟨left, more⟩ := Nat.exists_eq_succ_of_ne_zero (Nat.ne_of_gt owed)
  simp only [elapsed, pay, sampleNmi, more, Nat.succ_sub_one, Tacts.after, BitVec.ofNat_add,
    Nat.succ_eq_add_one]
  bv_omega

end Cpu

namespace Exec

variable {σ : Type} (bus : Bus σ) (cpu : Cpu) (device : σ)

/-- Whatever a tick does, one tact goes by, and it calls the bus only if nothing is owed. -/
theorem tick_elapses (lines : Lines) :
    (runOn (tick lines) bus cpu device).cpu.elapsed = cpu.elapsed.after 1 ∧
      (callsOn (tick lines) bus cpu device ≠ [] → cpu.backlog = 0) := by
  rcases Nat.eq_zero_or_pos cpu.backlog with paid | owed
  · refine ⟨?_, fun _ => paid⟩
    have settles := (step_settles cpu lines).onBus bus device
    rw [(tick_of_paid bus cpu device lines paid).1]
    generalize runOn (step lines) bus cpu device = stepped at settles
    -- The step books all of its time, a tact at least, and this tick is the first of it.
    obtain ⟨left, more⟩ := Nat.exists_eq_succ_of_ne_zero (Nat.ne_of_gt settles.positive)
    have total : stepped.cpu.total = cpu.total.after stepped.value.tacts := settles.total
    simp only [Cpu.elapsed, total, settles.stepTacts, more, paid, Nat.succ_sub_one, Tacts.after,
      Nat.succ_eq_add_one, BitVec.ofNat_add]
    bv_omega
  · cases held : lines.wait with
    | true =>
      obtain ⟨run, calls⟩ := tick_of_held bus cpu device lines owed held
      rw [run, calls]
      exact ⟨cpu.elapsed_wait lines, fun called => absurd rfl called⟩
    | false =>
      obtain ⟨run, calls⟩ := tick_of_owed bus cpu device lines owed held
      rw [run, calls]
      exact ⟨cpu.elapsed_pay lines owed, fun called => absurd rfl called⟩

/-- As many tacts go by as there are ticks. -/
theorem elapsed_ticks (all : List Lines) :
    (runOn (ticks all) bus cpu device).cpu.elapsed = cpu.elapsed.after all.length := by
  induction all generalizing cpu device with
  | nil => simp [ticks, Tacts.after]
  | cons lines later ih =>
    simp only [ticks, runOn_bind, runOn_pure, ih, tick_elapses, List.length_cons, Tacts.after]
    rw [BitVec.add_assoc, ← BitVec.ofNat_add, Nat.add_comm]

/-- Every tick is one tact: under any lines it makes the tacts booked less the tacts owed one more,
and it calls the bus only if nothing was owed. So from where nothing is owed to where nothing is
owed again, as many tacts are booked as there were ticks. -/
theorem ticks_elapse :
    (∀ lines : Lines,
      (runOn (tick lines) bus cpu device).cpu.elapsed = cpu.elapsed.after 1 ∧
        (callsOn (tick lines) bus cpu device ≠ [] → cpu.backlog = 0)) ∧
    ∀ all : List Lines,
      let ticked := runOn (ticks all) bus cpu device
      cpu.backlog = 0 → ticked.cpu.backlog = 0 →
        ticked.cpu.total = cpu.total.after all.length := by
  refine ⟨tick_elapses bus cpu device, ?_⟩
  intro all ticked paid again
  have elapsed : ticked.cpu.elapsed = cpu.elapsed.after all.length :=
    elapsed_ticks bus cpu device all
  rwa [Cpu.elapsed_of_paid _ paid, Cpu.elapsed_of_paid _ again] at elapsed

/-- A NOP is held in its second tact, NMI is seen in the third, and a reset follows it: seven tacts
of steps and one of waiting. -/
theorem ticks_elapse_over_reset :
    let all : List Lines :=
      [{}, { wait := true }, { nmi := true }, {}, {}, { reset := true }, { nmi := true }, {}]
    let ticked := runOn (ticks all) Board.bus Cpu.fresh Board.fresh
    ticked.cpu.backlog = 0 ∧ ticked.cpu.nmiPending = true ∧ ticked.cpu.total = 8 := by
  intro all ticked
  have paid : ticked.cpu.backlog = 0 := by decide +kernel
  exact ⟨paid, by decide +kernel,
    (ticks_elapse Board.bus Cpu.fresh Board.fresh).2 all rfl paid⟩

end Exec

end Z80
