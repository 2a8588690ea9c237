import Mathlib.Logic.Function.Basic
import Z80.Proofs.Stored

/-!
# What a journal tells

A board keeps its memory, the list of what was written to ports, the list of acknowledgements and
the count of returns beside its journal, each on its own. They never part: from a board as it was
when the journal was started, the events of the journal lead to the board as it is. Nothing that
computes on the board can tell whether a journal is kept, or whether its events were taken out on
the way.

## Main definitions

* `Board.unlogged`: a board without its journal
* `eventsOf`: the events that a board records of some calls
* `Memory.replay`, `Memory.Shows`: the writes among some events, and the reads that fit them
* `Board.Follows`: what a board is after some events
* `Errand`, `Session`: what is done with a board that any number of processors share

## Main results

* `Program.run_follows`: a computation leaves what the events of its calls lead to
* `Program.run_unlogged`: it does the same without a journal
* `Session.journal_faithful`: both for every session, however the journal is taken out
-/

namespace Z80

open Exec

/-! ### Without a journal -/

/-- The board without its journal. -/
def Board.unlogged (board : Board) : Board := { board with journal := none }

namespace Board

theorem record_unlogged (board : Board) (event : Event) :
    (board.record event).unlogged = board.unlogged := by
  unfold record
  split <;> rfl

/-- The answers of a board do not depend on its journal. -/
theorem answer_unlogged (request : Request) (board : Board) :
    bus.answer request board.unlogged =
      ((bus.answer request board).1, (bus.answer request board).2.unlogged) := by
  -- Without a journal nothing is recorded, and to record changes nothing else.
  cases request with
  | pointer | byteValue | pairValue | portAddress => rfl
  | read | input | dataLines => exact congrArg (Prod.mk _) (record_unlogged ..).symm
  | write address value =>
    exact congrArg (Prod.mk ()) (record_unlogged (board.poke address value) _).symm
  | output port value =>
    exact congrArg (Prod.mk ())
      (record_unlogged { board with outputs := (port, value) :: board.outputs } _).symm
  | returned =>
    exact congrArg (Prod.mk ()) (record_unlogged { board with returns := board.returns + 1 } _).symm
  | acknowledge kind =>
    exact congrArg (Prod.mk ())
      (record_unlogged { board with acknowledged := kind :: board.acknowledged } _).symm

/-- A read of memory leaves nothing behind but its record. -/
theorem read_unlogged (address : Word) (access : Access) (board : Board) :
    bus.read address access board.unlogged = (board.peek address, board.unlogged) := rfl

end Board

section Computations

variable {α : Type}

/-- No program can tell whether a journal is kept. -/
theorem Program.run_unlogged (program : Program α) (board : Board) :
    program.run Board.bus board.unlogged =
        ((program.run Board.bus board).1, (program.run Board.bus board).2.unlogged) ∧
      program.calls Board.bus board.unlogged = program.calls Board.bus board := by
  induction program generalizing board with
  | done value => exact ⟨rfl, rfl⟩
  | call request next ih =>
    simp only [run_call, calls_call, Board.answer_unlogged]
    obtain ⟨run, calls⟩ := ih (Board.bus.answer request board).1 (Board.bus.answer request board).2
    exact ⟨run, congrArg _ calls⟩

theorem Exec.runOn_unlogged (program : Exec α) (cpu : Cpu) (board : Board) :
    let run := runOn program Board.bus cpu board
    runOn program Board.bus cpu board.unlogged = { run with device := run.device.unlogged } ∧
      callsOn program Board.bus cpu board.unlogged = callsOn program Board.bus cpu board := by
  obtain ⟨run, calls⟩ := Program.run_unlogged (program cpu) board
  refine ⟨?_, calls⟩
  simp only [runOn, run]

end Computations

/-! ### Events -/

/-- What a board records of a call. It lets register values stand, and keeps no record of the
questions about them. -/
def Exchange.event? : Exchange → Option Event
  | ⟨.read address access, value⟩ => some (.read access address value)
  | ⟨.write address value, _⟩ => some (.write address value)
  | ⟨.input port, value⟩ => some (.input port value)
  | ⟨.output port value, _⟩ => some (.output port value)
  | ⟨.dataLines, value⟩ => some (.dataLines value)
  | ⟨.returned, _⟩ => some .returned
  | ⟨.acknowledge kind, _⟩ => some (.acknowledged kind)
  | ⟨.pointer _ _, _⟩ | ⟨.byteValue _ _, _⟩ | ⟨.pairValue _ _, _⟩ | ⟨.portAddress _ _, _⟩ => none

/-- What a board records of some calls, in order. -/
def eventsOf (calls : List Exchange) : List Event := calls.filterMap Exchange.event?

@[simp] theorem eventsOf_nil : eventsOf [] = [] := rfl

@[simp] theorem eventsOf_append (calls more : List Exchange) :
    eventsOf (calls ++ more) = eventsOf calls ++ eventsOf more := List.filterMap_append ..

/-- What was written to which port. -/
def Event.output? : Event → Option (Word × Byte)
  | .output port value => some (port, value)
  | _ => none

/-- What was acknowledged. -/
def Event.acknowledgement? : Event → Option Acknowledgement
  | .acknowledged kind => some kind
  | _ => none

namespace Memory

/-- The memory after an event. -/
def after (memory : Memory) : Event → Memory
  | .write address value => memory.write address value
  | _ => memory

/-- The memory after the writes among some events. -/
def replay (memory : Memory) (events : List Event) : Memory := events.foldl after memory

/-- Every read among the events gives the byte that its address holds by then. -/
def Shows (memory : Memory) (events : List Event) : Prop :=
  ∀ early access address value later, events = early ++ .read access address value :: later →
    value = (memory.replay early).read address

variable (memory : Memory)

@[simp] theorem replay_append (events more : List Event) :
    memory.replay (events ++ more) = (memory.replay events).replay more := List.foldl_append ..

theorem shows_nil : memory.Shows [] := by
  intro early access address value later split
  cases early <;> cases split

theorem shows_singleton {event : Event}
    (shown : ∀ access address value, event = .read access address value →
      value = memory.read address) : memory.Shows [event] := by
  intro early access address value later split
  cases early with
  | nil => exact shown access address value (List.cons.inj split).1
  | cons first rest => cases rest <;> cases (List.cons.inj split).2

theorem Shows.append {memory : Memory} {events more : List Event} (first : memory.Shows events)
    (second : (memory.replay events).Shows more) : memory.Shows (events ++ more) := by
  intro early access address value later split
  -- The read stands either behind all the first events or among them.
  rcases List.append_eq_append_iff.mp split with ⟨between, rfl, onward⟩ | ⟨within, inside, onward⟩
  · rw [replay_append]
    exact second between access address value later onward
  · cases within with
    | nil =>
      rw [List.append_nil] at inside
      exact inside ▸ second [] access address value later onward.symm
    | cons event rest =>
      cases (List.cons.inj onward).1
      exact first early access address value rest inside

end Memory

namespace Board

/-- What a board is after some events. -/
structure Follows (before : Board) (events : List Event) (after : Board) : Prop where
  memory : after.memory = before.memory.replay events
  shown : before.memory.Shows events
  outputs : after.outputs.reverse = before.outputs.reverse ++ events.filterMap Event.output?
  acknowledged : after.acknowledged.reverse =
    before.acknowledged.reverse ++ events.filterMap Event.acknowledgement?
  returns : after.returns = before.returns + events.count .returned

variable {before between after : Board} {events more : List Event}

/-- To arrange a board for what is to come is no event. -/
theorem Follows.quiet (memory : after.memory = before.memory)
    (outputs : after.outputs = before.outputs)
    (acknowledged : after.acknowledged = before.acknowledged)
    (returns : after.returns = before.returns) : before.Follows [] after where
  memory := memory
  shown := before.memory.shows_nil
  outputs := by simp [outputs]
  acknowledged := by simp [acknowledged]
  returns := returns

theorem Follows.trans (first : before.Follows events between)
    (second : between.Follows more after) : before.Follows (events ++ more) after where
  memory := by rw [second.memory, first.memory, Memory.replay_append]
  shown := first.shown.append (first.memory ▸ second.shown)
  outputs := by
    rw [second.outputs, first.outputs, List.filterMap_append, List.append_assoc]
  acknowledged := by
    rw [second.acknowledged, first.acknowledged, List.filterMap_append, List.append_assoc]
  returns := by
    rw [second.returns, first.returns, List.count_append, Nat.add_assoc]

@[simp] theorem acknowledged_record (board : Board) (event : Event) :
    (board.record event).acknowledged = board.acknowledged := by
  unfold record
  split <;> rfl

@[simp] theorem returns_record (board : Board) (event : Event) :
    (board.record event).returns = board.returns := by
  unfold record
  split <;> rfl

/-- A board that changes as an event says, and then records it, follows the event. -/
theorem Follows.record {event : Event}
    (shown : ∀ access address value, event = .read access address value →
      value = before.memory.read address)
    (memory : after.memory = before.memory.after event)
    (outputs : after.outputs = event.output?.toList ++ before.outputs)
    (acknowledged : after.acknowledged = event.acknowledgement?.toList ++ before.acknowledged)
    (returns : after.returns = before.returns + [event].count .returned) :
    before.Follows [event] (after.record event) where
  memory := (memory_record ..).trans memory
  shown := before.memory.shows_singleton shown
  outputs := by
    rw [outputs_record, outputs, List.reverse_append]
    cases event <;> rfl
  acknowledged := by
    rw [acknowledged_record, acknowledged, List.reverse_append]
    cases event <;> rfl
  returns := (returns_record ..).trans returns

/-- The board after a call follows what it records of the call. -/
theorem answer_follows (request : Request) (board : Board) :
    board.Follows (eventsOf [⟨request, (bus.answer request board).1⟩])
      (bus.answer request board).2 := by
  cases request with
  | pointer | byteValue | pairValue | portAddress => exact .quiet rfl rfl rfl rfl
  | read address access =>
    refine .record ?_ rfl rfl rfl rfl
    rintro _ _ _ ⟨⟩
    rfl
  | write | input | output | dataLines | returned | acknowledge =>
    exact .record nofun rfl rfl rfl rfl

/-- A journal that is kept gets one event more. -/
theorem events_record {event : Event} (same : after.journal = before.journal)
    (kept : before.journal.isSome) :
    (after.record event).events = before.events ++ [event] ∧
      (after.record event).journal.isSome := by
  obtain ⟨journal, found⟩ := Option.isSome_iff_exists.mp kept
  simp [record, events, same, found]

/-- It gets what the board records of a call. -/
theorem events_answer (request : Request) (kept : before.journal.isSome) :
    let answered := bus.answer request before
    answered.2.events = before.events ++ eventsOf [⟨request, answered.1⟩] ∧
      answered.2.journal.isSome := by
  cases request with
  | pointer | byteValue | pairValue | portAddress => exact ⟨(List.append_nil _).symm, kept⟩
  | read | write | input | output | dataLines | returned | acknowledge =>
    exact events_record rfl kept

end Board

namespace Program

variable {α : Type} (program : Program α) (board : Board)

/-- A computation leaves what the events of its calls lead to. -/
theorem run_follows :
    board.Follows (eventsOf (program.calls Board.bus board)) (program.run Board.bus board).2 := by
  induction program generalizing board with
  | done value => exact .quiet rfl rfl rfl rfl
  | call request next ih =>
    rw [calls_call, run_call, ← List.singleton_append, eventsOf_append]
    exact (board.answer_follows request).trans (ih ..)

/-- A journal that is kept gets them all, in order. -/
theorem events_run (kept : board.journal.isSome) :
    let left := (program.run Board.bus board).2
    left.events = board.events ++ eventsOf (program.calls Board.bus board) ∧
      left.journal.isSome := by
  induction program generalizing board with
  | done value => exact ⟨(List.append_nil _).symm, kept⟩
  | call request next ih =>
    obtain ⟨events, onward⟩ := Board.events_answer request kept
    obtain ⟨rest, still⟩ := ih (Board.bus.answer request board).1 _ onward
    rw [calls_call, run_call, ← List.singleton_append, eventsOf_append]
    exact ⟨by rw [rest, events, List.append_assoc], still⟩

end Program

/-! ### Sessions -/

/-- Something done with a board and the processors on it. -/
inductive Errand (ι : Type) where
  /-- A processor computes on the board. -/
  | compute (processor : ι) (program : Exec Unit)
  /-- Anyone else calls the board. -/
  | call (request : Request)
  /-- A port is set to give a byte from now on. -/
  | setPort (port : Word) (value : Byte)
  /-- A byte is put on the data lines. -/
  | setDataLines (value : Byte)
  /-- The events so far are taken out of the journal. -/
  | take

/-- Processors, the board that they share, and what was taken out of its journal. -/
structure Session (ι : Type) where
  cpus : ι → Cpu
  board : Board
  /-- The earliest part first. -/
  parts : List (List Event) := []

variable {ι : Type} [DecidableEq ι]

namespace Errand

/-- Only to take events out of a journal is no work on the board. -/
def isWork : Errand ι → Bool
  | .take => false
  | _ => true

/-- The session after an errand. -/
def perform (errand : Errand ι) (session : Session ι) : Session ι :=
  match errand with
  | .compute processor program =>
    let run := runOn program Board.bus (session.cpus processor) session.board
    { session with
      cpus := Function.update session.cpus processor run.cpu
      board := run.device }
  | .call request => { session with board := (Board.bus.answer request session.board).2 }
  | .setPort port value => { session with board := session.board.setPort port value }
  | .setDataLines value => { session with board := session.board.setDataLines value }
  | .take =>
    { session with
      board := session.board.clearJournal
      parts := session.parts ++ [session.board.events] }

/-- The calls that an errand makes. -/
def calls (errand : Errand ι) (session : Session ι) : List Exchange :=
  match errand with
  | .compute processor program =>
    callsOn program Board.bus (session.cpus processor) session.board
  | .call request => [⟨request, (Board.bus.answer request session.board).1⟩]
  | .setPort _ _ | .setDataLines _ | .take => []

end Errand

namespace Session

/-- The session after some errands. -/
def attend (session : Session ι) (errands : List (Errand ι)) : Session ι :=
  errands.foldl (fun session errand => errand.perform session) session

/-- The calls that some errands make, in order. -/
def calls (session : Session ι) : List (Errand ι) → List Exchange
  | [] => []
  | errand :: rest => errand.calls session ++ (errand.perform session).calls rest

/-- The parts taken out of the journal and what is still in it, put together. -/
def recorded (session : Session ι) : List Event := session.parts.flatten ++ session.board.events

/-- The session with nothing written down. -/
def unlogged (session : Session ι) : Session ι :=
  { session with board := session.board.unlogged, parts := [] }

variable (session : Session ι) (errand : Errand ι) (errands : List (Errand ι))

omit [DecidableEq ι] in
theorem unlogged_eq_iff {session other : Session ι} :
    session.unlogged = other.unlogged ↔
      session.cpus = other.cpus ∧ session.board.unlogged = other.board.unlogged := by
  simp [unlogged]

/-- Work is done alike whatever is written down. -/
theorem perform_unlogged (work : errand.isWork) :
    errand.perform session.unlogged = (errand.perform session).unlogged ∧
      errand.calls session.unlogged = errand.calls session := by
  cases errand with
  | compute processor program =>
    obtain ⟨run, calls⟩ := Exec.runOn_unlogged program (session.cpus processor) session.board
    refine ⟨?_, calls⟩
    simp only [Errand.perform, unlogged, run]
  | call request =>
    simp [Errand.perform, Errand.calls, unlogged, Board.answer_unlogged]
  | setPort | setDataLines => exact ⟨rfl, rfl⟩
  | take => cases work

/-- With nothing written down, a session comes to the same as without the times that events were
taken out. -/
theorem attend_unlogged :
    (session.attend errands).unlogged = session.unlogged.attend (errands.filter Errand.isWork) ∧
      session.calls errands = session.unlogged.calls (errands.filter Errand.isWork) := by
  induction errands generalizing session with
  | nil => exact ⟨rfl, rfl⟩
  | cons errand rest ih =>
    obtain ⟨same, calls⟩ := ih (errand.perform session)
    by_cases work : errand.isWork
    · obtain ⟨after, made⟩ := session.perform_unlogged errand work
      rw [List.filter_cons_of_pos work]
      simp only [attend, List.foldl_cons, Session.calls] at same calls ⊢
      rw [same, calls, after, made]
      exact ⟨rfl, rfl⟩
    -- What is dropped makes no calls and changes only what is written down.
    · cases errand with
      | take => exact ⟨same, calls⟩
      | _ => exact absurd rfl work

/-- The board after an errand follows what the errand has recorded. -/
theorem perform_follows :
    session.board.Follows (eventsOf (errand.calls session)) (errand.perform session).board := by
  cases errand with
  | compute processor program => exact (program _).run_follows session.board
  | call request => exact session.board.answer_follows request
  | setPort | setDataLines | take => exact .quiet rfl rfl rfl rfl

theorem attend_follows :
    session.board.Follows (eventsOf (session.calls errands)) (session.attend errands).board := by
  induction errands generalizing session with
  | nil => exact .quiet rfl rfl rfl rfl
  | cons errand rest ih =>
    rw [calls, eventsOf_append]
    exact (session.perform_follows errand).trans (ih _)

variable {session} in
/-- An errand adds its events to what is written down, wherever that is. -/
theorem recorded_perform (kept : session.board.journal.isSome) :
    (errand.perform session).recorded = session.recorded ++ eventsOf (errand.calls session) ∧
      (errand.perform session).board.journal.isSome := by
  cases errand with
  | compute processor program =>
    obtain ⟨events, still⟩ := (program (session.cpus processor)).events_run session.board kept
    exact ⟨(congrArg _ events).trans (List.append_assoc ..).symm, still⟩
  | call request =>
    obtain ⟨events, still⟩ := Board.events_answer request kept
    exact ⟨(congrArg _ events).trans (List.append_assoc ..).symm, still⟩
  | setPort | setDataLines => exact ⟨(List.append_nil _).symm, kept⟩
  | take =>
    obtain ⟨journal, found⟩ := Option.isSome_iff_exists.mp kept
    simp [recorded, Errand.perform, Errand.calls, Board.events, Board.clearJournal, found]

variable {session} in
theorem recorded_attend (kept : session.board.journal.isSome) :
    (session.attend errands).recorded = session.recorded ++ eventsOf (session.calls errands) := by
  induction errands generalizing session with
  | nil => exact (List.append_nil _).symm
  | cons errand rest ih =>
    obtain ⟨events, still⟩ := recorded_perform errand kept
    rw [calls, eventsOf_append, ← List.append_assoc, ← events]
    exact ih still

/-- No part leaves the journal if none is taken out. -/
theorem parts_attend (work : ∀ errand ∈ errands, errand.isWork) :
    (session.attend errands).parts = session.parts := by
  induction errands generalizing session with
  | nil => rfl
  | cons errand rest ih =>
    rw [List.forall_mem_cons] at work
    refine (ih (errand.perform session) work.2).trans ?_
    cases errand with
    | take => cases work.1
    | _ => rfl

/-- From when a journal is started, what was taken out of it and what is still in it together tell
every call that was made, and they lead to the board as it is. They are the same however often
events were taken out, and everything is done in the same way if no journal is kept. -/
theorem journal_faithful (cpus : ι → Cpu) (board : Board) (errands : List (Errand ι)) :
    let start : Session ι := { cpus, board := board.startJournal }
    let silent := Session.attend { cpus, board := board.unlogged } errands
    let untaken := start.attend (errands.filter Errand.isWork)
    let done := start.attend errands
    done.recorded = eventsOf (start.calls errands) ∧
      board.Follows done.recorded done.board ∧
      untaken.board.events = done.recorded ∧
      untaken.cpus = done.cpus ∧ untaken.board.unlogged = done.board.unlogged ∧
      silent.cpus = done.cpus ∧ silent.board.unlogged = done.board.unlogged := by
  intro start silent untaken done
  have recorded : done.recorded = eventsOf (start.calls errands) := recorded_attend errands rfl
  have follows : board.Follows done.recorded done.board := by
    rw [recorded]
    obtain ⟨memory, shown, outputs, acknowledged, returns⟩ := start.attend_follows errands
    exact ⟨memory, shown, outputs, acknowledged, returns⟩
  -- All three come to the session in which nothing is written down.
  obtain ⟨doneSame, doneCalls⟩ := start.attend_unlogged errands
  obtain ⟨untakenSame, untakenCalls⟩ := start.attend_unlogged (errands.filter Errand.isWork)
  have silentSame := (Session.attend_unlogged { cpus, board := board.unlogged } errands).1
  simp only [List.filter_filter, Bool.and_self] at untakenSame untakenCalls
  have whole : untaken.recorded = done.recorded := by
    rw [recorded, doneCalls, ← untakenCalls]
    exact recorded_attend _ rfl
  have parts : untaken.parts = [] := start.parts_attend _ fun errand among =>
    (List.mem_filter.mp among).2
  rw [Session.recorded, parts] at whole
  obtain ⟨untakenCpus, untakenBoard⟩ := unlogged_eq_iff.mp (untakenSame.trans doneSame.symm)
  obtain ⟨silentCpus, silentBoard⟩ := unlogged_eq_iff.mp (silentSame.trans doneSame.symm)
  exact ⟨recorded, follows, whole, untakenCpus, untakenBoard, silentCpus, silentBoard⟩

/-- LD (HL),A at the top of memory writes the HALT that comes next. -/
example :
    let cpu := Cpu.fresh.updateRegisters fun regs =>
      { regs with pc := 0xFFFF, accumulator.a := 0x76 }
    let next : Errand Unit := .compute () (discard (step {}))
    let session := Session.attend { cpus := fun _ => cpu, board := Board.fresh.startJournal }
    (session [.call (.write 0xFFFF 0x77), next, .take, next]).recorded =
      [.write 0xFFFF 0x77, .read .opcode 0xFFFF 0x77, .write 0x0000 0x76,
        .read .opcode 0x0000 0x76] := rfl

end Session

end Z80
