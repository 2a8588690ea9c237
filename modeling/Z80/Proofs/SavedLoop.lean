import Mathlib.Tactic.MkIffOfInductiveProp
import Z80.Bus.Board
import Z80.Proofs.NonMaskable

/-!
# Returning into a block instruction

An acceptance saves the note of a repeating block instruction, and RETN and RETI put it back. There
is one place to save it, so what comes back is the note of the last acceptance. As long as a handler
is not interrupted itself, that is the acceptance it belongs to, however deep it is nested. Behind a
handler that was interrupted, it is that of the interruption.

## Main definitions

* `Moment.Accepts`, `Moment.Resets`, `Moment.Returns`: calls that touch the note or its saved copy
* `lastAccepted`: the last acceptance of a trace that no reset has followed
* `openHandlers`: the acceptances whose handlers have not returned, innermost first
* `WellNested`: every return goes back to where the matching acceptance came from

## Main results

* `Exec.step_savesLoop`, `Beat.run_savesLoop`: what a step and a call do with the note and its copy
* `Exec.moments_savedLoop`: the copy is the note of the last acceptance, all through a run
* `Exec.return_restores_looping`: what RETN and RETI put back
* `Exec.return_restores_matching_fails`: it need not be the note of the matching acceptance
-/

namespace Z80

open Exec

/-! ### What a step does with the saved note -/

/-- The instruction is RETN or RETI. -/
def Instruction.returns : Instruction → Bool
  | .extended (.returnFromInterrupt _) => true
  | _ => false

/-- RETN or RETI ran in the segment. -/
def Segment.returns (segment : Segment) : Bool := segment.instruction?.any Instruction.returns

/-- What a step does with the saved note: an acceptance saves the note in `looping`, a reset clears
it, everything else keeps it, and RETN and RETI put it back. -/
@[mk_iff]
structure Segment.SavesLoop (segment : Segment) (looping : Bool) (before : Cpu)
    (calls : List Exchange) (after : Cpu) : Prop where
  accepted : acknowledgements calls ≠ [] → after.loopInterrupted = looping
  reset : segment = .reset → after.loopInterrupted = false
  kept : acknowledgements calls = [] → segment ≠ .reset →
    after.loopInterrupted = before.loopInterrupted
  returned : segment.returns = true → after.looping = before.loopInterrupted

/-- RETN and RETI put the saved note back. -/
theorem Instruction.execute_returns (instruction : Instruction) (offset : Byte) (cpu : Cpu) :
    (instruction.execute offset).Always cpu fun _ _ after =>
      instruction.returns = true → after.looping = cpu.loopInterrupted := by
  cases instruction with
  | extended operation =>
    cases operation with
    | returnFromInterrupt told => simp [execute, ExtendedOperation.execute, returns]
    | _ => exact (always_true _ _).mono fun _ _ _ _ returns => by cases returns
  | _ => exact (always_true _ _).mono fun _ _ _ _ returns => by cases returns

/-- No instruction of the main page returns from an interrupt. -/
theorem Page.main_returns {opcode : Byte} {instruction : Instruction}
    (role : Page.main.role opcode = .instruction instruction) : instruction.returns = false := by
  simp only [Page.role, Role.ofMain] at role
  split at role <;> cases role
  rfl

namespace Exec

variable (cpu : Cpu)

/-- What an instruction does with the saved note. -/
theorem execute_saved (instruction : Instruction) (offset : Byte) :
    (instruction.execute offset).Always cpu fun calls _ after =>
      acknowledgements calls = [] ∧ after.loopInterrupted = cpu.loopInterrupted ∧
        (instruction.returns = true → after.looping = cpu.loopInterrupted) := by
  refine ((instruction.execute_frame cpu offset).and
    (instruction.execute_returns offset cpu)).mono ?_
  rintro calls _ after ⟨frame, returned⟩
  exact ⟨frame.quiet, frame.driver.loopInterrupted, returned⟩

-- What ran in a known segment computes.
attribute [local simp] Segment.returns Segment.instruction? Role.instruction?

theorem fetch_savesLoop (page : Page) (looping : Bool) :
    (fetch page).Always cpu fun calls segment after =>
      segment.SavesLoop looping cpu calls after := by
  cases order : page.displacementFirst with
  | false =>
    have kept : (cpu.opened page).loopInterrupted = cpu.loopInterrupted := by
      unfold Cpu.opened
      split <;> rfl
    rw [always_fetch_opcode cpu order]
    intro opcode
    constructor
    · intro role
      exact ⟨by simp, nofun, fun _ _ => kept, nofun⟩
    · intro instruction role
      refine (execute_saved _ instruction 0).mono ?_
      rintro calls taken after ⟨quiet, same, returned⟩
      refine ⟨by simp [quiet], nofun, fun _ _ => same.trans kept, ?_⟩
      intro returns
      exact (returned (by simpa [role] using returns)).trans kept
  | true =>
    rw [always_fetch_displaced cpu order]
    intro offset opcode instruction role
    refine (execute_saved _ instruction offset).mono ?_
    rintro calls taken after ⟨quiet, same, returned⟩
    refine ⟨by simp [quiet], nofun, fun _ _ => same, ?_⟩
    intro returns
    exact returned (by simpa [role] using returns)

theorem acknowledgeMaskable_savesLoop (looping : Bool) :
    (acknowledgeMaskable looping).Always cpu fun calls segment after =>
      segment.SavesLoop looping cpu calls after := by
  have saves {segment : Segment} {calls : List Exchange} {after : Cpu}
      (noted : acknowledgements calls ≠ []) (saved : after.loopInterrupted = looping)
      (other : segment ≠ .reset) (stays : segment.returns = false) :
      segment.SavesLoop looping cpu calls after :=
    ⟨fun _ => saved, fun reset => absurd reset other, fun quiet => absurd quiet noted,
      fun returns => by cases stays.symm.trans returns⟩
  cases mode : cpu.registers.im with
  | restart | vectored =>
    simp [acknowledgeMaskable, mode, interruptTo, jumpThroughTable, Segment.savesLoop_iff,
      Cpu.acknowledged, Cpu.ageFlags]
  | injected =>
    simp only [acknowledgeMaskable, inject, always_bind, always_registers, always_acknowledge,
      always_modify, always_updateRegisters, mode, always_dataLines]
    intro opcode
    cases role : Page.main.role opcode with
    | selector => exact saves (by simp) rfl (by simp) rfl
    | instruction instruction =>
      simp only [always_bind, always_modify]
      refine (execute_saved _ instruction 0).mono ?_
      rintro calls taken after ⟨quiet, same, -⟩
      refine saves (by simp) same (by simp) ?_
      simp [role, Page.main_returns role]

/-- What a step performs, unless it is held. -/
theorem perform_savesLoop (looping : Bool) (turn : Turn) :
    (perform looping turn).Always cpu fun calls segment after =>
      segment.SavesLoop looping cpu calls after := by
  cases turn with
  | stall => simp [perform, Segment.savesLoop_iff]
  | proceed page => exact fetch_savesLoop cpu page looping
  | reset => simp [perform, Segment.savesLoop_iff, Cpu.clear]
  | nonMaskable =>
    simp [perform, acknowledgeNonMaskable, interruptTo, Segment.savesLoop_iff, Cpu.acknowledged,
      Cpu.ageFlags]
  | maskable => exact acknowledgeMaskable_savesLoop cpu looping
  | idle =>
    simp [perform, idle, Segment.savesLoop_iff, Cpu.beginInstruction, Cpu.ageFlags]
  | begin =>
    simp only [perform, always_bind, always_modify, List.nil_append]
    refine (fetch_savesLoop { cpu with suppressed := false } .main looping).mono ?_
    intro calls segment after saves
    exact ⟨saves.accepted, saves.reset, saves.kept, saves.returned⟩

/-- An acceptance saves the note that the step has found. -/
theorem step_savesLoop (lines : Lines) :
    (step lines).Always cpu fun calls segment after =>
      segment.SavesLoop cpu.looping cpu calls after := by
  rw [always_step]
  refine (perform_savesLoop (cpu.ready lines) cpu.looping _).mono ?_
  intro calls segment after saves
  exact ⟨saves.accepted, saves.reset, saves.kept, saves.returned⟩

end Exec

/-! ### What a call does with it -/

namespace Moment

/-- The call acknowledges an interrupt. -/
def Accepts (moment : Moment) : Prop := acknowledgements moment.calls ≠ []
deriving Decidable

/-- The call performs a reset. -/
def Resets (moment : Moment) : Prop := moment.started = some .reset
deriving Decidable

/-- The call runs RETN or RETI. -/
def Returns (moment : Moment) : Prop := moment.started.any Segment.returns = true
deriving Decidable

/-- What a call does with the saved note. -/
structure SavesLoop (moment : Moment) : Prop where
  accepted : moment.Accepts → moment.after.loopInterrupted = moment.before.looping
  reset : moment.Resets → moment.after.loopInterrupted = false
  kept : ¬ moment.Accepts → ¬ moment.Resets →
    moment.after.loopInterrupted = moment.before.loopInterrupted
  returned : moment.Returns → moment.after.looping = moment.before.loopInterrupted

end Moment

/-- Every call does so. -/
theorem Beat.run_savesLoop (beat : Beat) (cpu : Cpu) :
    beat.run.Always cpu fun calls started after =>
      Moment.SavesLoop ⟨beat, cpu, started, calls, after⟩ := by
  have stepped {calls : List Exchange} {segment : Segment} {after last : Cpu}
      (saves : segment.SavesLoop cpu.looping cpu calls after)
      (saved : last.loopInterrupted = after.loopInterrupted)
      (looping : last.looping = after.looping) :
      Moment.SavesLoop ⟨beat, cpu, some segment, calls, last⟩ :=
    { accepted := fun accepts => saved.trans (saves.accepted accepts)
      reset := fun resets => saved.trans (saves.reset (Option.some.inj resets))
      kept := fun unaccepted unreset =>
        saved.trans (saves.kept (Classical.byContradiction unaccepted)
          fun reset => unreset (congrArg some reset))
      returned := fun returns => looping.trans (saves.returned returns) }
  have spent (after : Cpu) (saved : after.loopInterrupted = cpu.loopInterrupted) :
      Moment.SavesLoop ⟨beat, cpu, none, [], after⟩ :=
    { accepted := fun accepts => absurd rfl accepts
      reset := nofun
      kept := fun _ _ => saved
      returned := nofun }
  cases beat with
  | step lines =>
    simp only [run, Exec.always_map]
    exact (step_savesLoop cpu lines).mono fun _ _ _ saves => stepped saves rfl rfl
  | tick lines =>
    simp only [run, Exec.tick, spend, Exec.always_map, Exec.always_bind, Exec.always_get,
      Exec.always_ite, always_modify, always_pure]
    constructor
    · -- A tact that is only paid does nothing to the note or its copy.
      intro _
      exact ⟨fun _ => spent _ rfl, fun _ => spent _ rfl⟩
    · intro _
      refine (step_savesLoop cpu lines).mono ?_
      intro calls segment after saves
      have paid : Moment.SavesLoop
          ⟨.tick lines, cpu, some segment, calls, { after with backlog := after.stepTacts - 1 }⟩ :=
        stepped saves rfl rfl
      simpa using paid

/-! ### What the last acceptance has saved -/

/-- The acceptance that is the last one after one more call. -/
def acceptedNext (last : Option Moment) (moment : Moment) : Option Moment :=
  if moment.Accepts then some moment else if moment.Resets then none else last

/-- The last acceptance of a trace, if no reset has followed it. -/
def lastAccepted (trace : List Moment) : Option Moment := trace.foldl acceptedNext none

/-- The note of a repeating block instruction that the last acceptance has found. -/
def savedLoop (trace : List Moment) : Bool :=
  (lastAccepted trace).any fun accepting => accepting.before.looping

theorem lastAccepted_concat (trace : List Moment) (moment : Moment) :
    lastAccepted (trace ++ [moment]) = acceptedNext (lastAccepted trace) moment := by
  simp [lastAccepted]

/-- A call keeps the copy in line with the trace. -/
theorem Moment.SavesLoop.saved_concat {moment : Moment} {trace : List Moment}
    (saves : moment.SavesLoop) (saved : moment.before.loopInterrupted = savedLoop trace) :
    moment.after.loopInterrupted = savedLoop (trace ++ [moment]) := by
  unfold savedLoop at saved ⊢
  rw [lastAccepted_concat, acceptedNext]
  by_cases accepts : moment.Accepts
  · rw [if_pos accepts]
    exact saves.accepted accepts
  · rw [if_neg accepts]
    by_cases resets : moment.Resets
    · rw [if_pos resets]
      exact saves.reset resets
    · rw [if_neg resets]
      exact (saves.kept accepts resets).trans saved

/-! ### Nested handlers -/

/-- The handlers that are open after one more call. -/
def openNext (outer : List Moment) (moment : Moment) : List Moment :=
  if moment.Accepts then moment :: outer
  else if moment.Resets then []
  else if moment.Returns then outer.tail
  else outer

/-- The acceptances whose handlers have not returned at the end of a trace, innermost first. -/
def openHandlers (trace : List Moment) : List Moment := trace.foldl openNext []

/-- Every return of a trace closes a handler that is open, and goes back to where that was accepted.
`outer` are the handlers that are open before the trace. -/
def WellNested (outer : List Moment) : List Moment → Prop
  | [] => True
  | moment :: later =>
    (moment.Returns →
        outer.head?.map (·.before.registers.pc) = some moment.after.registers.pc) ∧
      WellNested (openNext outer moment) later

instance : ∀ outer trace, Decidable (WellNested outer trace)
  | _, [] => .isTrue trivial
  | outer, moment :: later =>
    have := instDecidableWellNested (openNext outer moment) later
    inferInstanceAs (Decidable (_ ∧ _))

/-- What an uninterrupted handler leaves of the handlers and of the last acceptance. -/
theorem foldl_of_uninterrupted {handler : List Moment} (outer : List Moment) (last : Option Moment)
    (quiet : ∀ moment ∈ handler, ¬ moment.Accepts ∧ ¬ moment.Resets ∧ ¬ moment.Returns) :
    handler.foldl openNext outer = outer ∧ handler.foldl acceptedNext last = last := by
  induction handler with
  | nil => exact ⟨rfl, rfl⟩
  | cons first handler ih =>
    obtain ⟨unaccepted, unreset, stays⟩ := quiet first (List.mem_cons_self ..)
    have later := ih fun moment among => quiet moment (List.mem_cons_of_mem _ among)
    simpa [openNext, acceptedNext, unaccepted, unreset, stays] using later

/-- The acceptance of an uninterrupted handler is the innermost that is open, and the last one. -/
theorem last_of_uninterrupted (before : List Moment) {handler : List Moment} {accepting : Moment}
    (accepts : accepting.Accepts)
    (quiet : ∀ moment ∈ handler, ¬ moment.Accepts ∧ ¬ moment.Resets ∧ ¬ moment.Returns) :
    (openHandlers (before ++ accepting :: handler)).head? = some accepting ∧
      lastAccepted (before ++ accepting :: handler) = some accepting := by
  have after := foldl_of_uninterrupted (accepting :: openHandlers before) (some accepting) quiet
  simp only [openHandlers, lastAccepted, List.foldl_append, List.foldl_cons]
  rw [openNext, acceptedNext, if_pos accepts, if_pos accepts]
  exact ⟨by rw [← openHandlers, after.1]; rfl, after.2⟩

namespace Exec

variable {σ : Type}

/-- All through a run the copy is the note that the last acceptance has found. -/
theorem moments_savedLoop (bus : Bus σ) (beats : List Beat) (cpu : Cpu) (device : σ)
    (past early : List Moment) (moment : Moment) (late : List Moment)
    (saved : cpu.loopInterrupted = savedLoop past)
    (split : moments bus beats cpu device = early ++ moment :: late) :
    moment.SavesLoop ∧ moment.before.loopInterrupted = savedLoop (past ++ early) := by
  refine moments_of_invariant bus (fun past cpu => cpu.loopInterrupted = savedLoop past)
    (fun past moment => moment.SavesLoop ∧ moment.before.loopInterrupted = savedLoop past)
    ?_ saved split
  intro past beat cpu device saved
  have saves : (momentOn bus beat cpu device).SavesLoop :=
    (beat.run_savesLoop cpu).onBus bus device
  exact ⟨⟨saves, saved⟩, saves.saved_concat saved⟩

/-- In every run of steps and ticks from a reset, and on any bus, the note of a repeating block
instruction is after RETN or RETI what it was on the boundary where the last interrupt was accepted,
or clear if none was since the last reset. If the handler was not interrupted itself, that is the
interrupt whose handler returns, however deep it is nested. -/
theorem return_restores_looping (bus : Bus σ) (cpu : Cpu) (device : σ) (beats : List Beat)
    (early : List Moment) (returning : Moment) (late : List Moment)
    (split : moments bus beats cpu.reset device = early ++ returning :: late)
    (returns : returning.Returns) :
    returning.after.looping = savedLoop early ∧
      ∀ before accepting handler, early = before ++ accepting :: handler → accepting.Accepts →
        (∀ moment ∈ handler, ¬ moment.Accepts ∧ ¬ moment.Resets ∧ ¬ moment.Returns) →
          (openHandlers early).head? = some accepting ∧
            returning.after.looping = accepting.before.looping := by
  obtain ⟨saves, saved⟩ :=
    moments_savedLoop bus beats cpu.reset device [] early returning late rfl split
  have restored : returning.after.looping = savedLoop early := (saves.returned returns).trans saved
  refine ⟨restored, ?_⟩
  rintro before accepting handler rfl accepts quiet
  obtain ⟨innermost, last⟩ := last_of_uninterrupted before accepts quiet
  refine ⟨innermost, restored.trans ?_⟩
  rw [savedLoop, last]
  rfl

/-- The handler of INT is a block instruction, NMI breaks into it, and RETN goes back into it: the
note is set again two handlers deep. -/
theorem return_restores_inner_loop :
    let board := ((Board.fresh.load 0x0000 [0xED, 0x56, 0xFB, 0x00]).load 0x0038 [0xED, 0xB0]).load
      0x0066 [0xED, 0x45]
    let beats : List Beat :=
      [.step {}, .step {}, .step {}, .step {}, .step { int := true }, .step {}, .step {},
        .step { nmi := true }, .step {}, .step {}]
    let trace := moments Board.bus beats Cpu.fresh.reset board
    ∃ returning, trace = trace.take 9 ++ [returning] ∧ returning.Returns ∧
      (openHandlers (trace.take 9)).length = 2 ∧ returning.after.looping = true := by
  intro board beats trace
  obtain ⟨returning, last⟩ : ∃ returning, trace.drop 9 = [returning] := ⟨_, rfl⟩
  have split : trace = trace.take 9 ++ [returning] := by rw [← last, List.take_append_drop]
  have returned : ∀ moment ∈ trace.drop 9, moment.Returns := by decide +kernel
  have returns : returning.Returns := returned returning (by simp [last])
  have restored := (return_restores_looping Board.bus .fresh board beats _ returning [] split
    returns).1
  exact ⟨returning, split, returns, by decide +kernel, restored.trans (by decide +kernel)⟩

/-- NMI breaks into the handler of an interrupt that was accepted inside a block instruction. All
returns go back to where they belong, and yet RETI does not put the note of the block instruction
back: NMI has saved its own. -/
theorem return_restores_matching_fails :
    ¬ ∀ (cpu : Cpu) (board : Board) (beats : List Beat),
      let trace := moments Board.bus beats cpu.reset board
      WellNested [] trace →
        ∀ early returning late, trace = early ++ returning :: late → returning.Returns →
          ∀ accepting, (openHandlers early).head? = some accepting →
            returning.after.looping = accepting.before.looping := by
  intro restores
  let board := ((Board.fresh.load 0x0000 [0xED, 0x56, 0xFB, 0xED, 0xB0]).load 0x0038
    [0xED, 0x4D]).load 0x0066 [0xED, 0x45]
  let beats : List Beat :=
    [.step {}, .step {}, .step {}, .step {}, .step {}, .step { int := true },
      .step { nmi := true }, .step {}, .step {}, .step {}, .step {}]
  let trace := moments Board.bus beats Cpu.fresh.reset board
  have nested : WellNested [] trace := by decide +kernel
  have found : (openHandlers (trace.take 10)).head?.map (·.before.looping) = some true := by
    decide +kernel
  have returned : ∀ moment ∈ trace.drop 10, moment.Returns ∧ moment.after.looping = false := by
    decide +kernel
  obtain ⟨accepting, innermost, looping⟩ := Option.map_eq_some_iff.mp found
  obtain ⟨returning, last⟩ : ∃ returning, trace.drop 10 = [returning] := ⟨_, rfl⟩
  obtain ⟨returns, cleared⟩ := returned returning (by simp [last])
  have split : trace = trace.take 10 ++ [returning] := by rw [← last, List.take_append_drop]
  have restored :=
    restores .fresh board beats nested _ returning [] split returns accepting innermost
  cases (cleared.symm.trans restored).trans looping

end Exec

end Z80
