import Mathlib.Data.BitVec
import Z80.Proofs.Ageing
import Z80.Proofs.PrefixChain
import Z80.Proofs.Timing
import Z80.Proofs.Unread

/-!
# Instructions from a device

In the mode in which a device injects an instruction, the first byte comes from the data lines and
all others come from memory. Behind the first byte there is no difference: the acknowledgement has
done to the latches and to the refresh counter what the fetch of the first byte would have done. So
the run is that of an instruction whose first byte is fetched at the address before the program
counter, by a processor that is poised for it, and all that is known of such a run is known of this
one.

## Main definitions

* `deviceBytes`: the bytes that the calls take from the data lines
* `Cpu.accepted`: the processor that the acknowledgement of a maskable interrupt leaves
* `Cpu.poised`: the processor that a fetch of the first byte would turn into that one
* `Instruction.RunsBehind`: an instruction runs once some bytes are fetched
* `Instruction.Costs`: what it takes to fetch and run the instruction that bytes spell

## Main results

* `Exec.reaches_iff_always`: the branches of a computation are where all that always holds, holds
* `Exec.segments_execute`: a run from a page on runs the instruction that its bytes spell
* `Exec.step_as_fetched`, `Exec.nextInstruction_as_fetched`: an injected first byte does what a
  fetched one does
* `Exec.injected_as_spelled`: what follows for a run on a board
-/

namespace Z80

open Exec

/-! ### Branches -/

section Branches

variable {α : Type}

/-- What always holds, holds of each branch. -/
theorem Program.Always.of_reaches {program : Program α} {post : List Exchange → α → Prop}
    {calls : List Exchange} {value : α} (always : program.Always post)
    (reaches : program.Reaches calls value) : post calls value := by
  induction program generalizing calls post with
  | done result =>
    obtain ⟨rfl, rfl⟩ := reaches
    exact always
  | call request next ih =>
    obtain ⟨answer, rest, rfl, reaches⟩ := reaches
    have holds := ih answer (always answer) reaches
    exact holds

namespace Exec

variable {program : Exec α} {cpu after : Cpu} {calls : List Exchange} {value : α}

/-- The branches of a computation are where all that always holds, holds. -/
theorem reaches_iff_always : program.Reaches cpu calls value after ↔
    ∀ post : List Exchange → α → Cpu → Prop, program.Always cpu post → post calls value after :=
  ⟨fun reaches _ always => Program.Always.of_reaches always reaches,
    fun holds => holds _ (always_reaches program cpu)⟩

/-- What is carried through goes with every branch. -/
theorem Reaches.amend {amendment : Cpu.Amendment} (reaches : program.Reaches cpu calls value after)
    (carries : Carries amendment program) :
    program.Reaches (cpu.amend amendment) calls value (after.amend amendment) := by
  rw [reaches_iff_always]
  intro post always
  rw [Always, carries cpu, map_eq_pure_bind, Program.always_bind] at always
  have holds := always.of_reaches reaches
  simpa [Program.Always] using holds

end Exec

end Branches

/-! ### The data lines -/

/-- The byte, if the call takes one from the data lines. -/
@[simp] def Exchange.deviceByte? : Exchange → Option Byte
  | ⟨.dataLines, byte⟩ => some byte
  | _ => none

/-- The bytes that the calls take from the data lines, in order. -/
def deviceBytes (calls : List Exchange) : List Byte := calls.filterMap Exchange.deviceByte?

section Calls

variable (call : Exchange) (calls more : List Exchange)

@[simp] theorem deviceBytes_nil : deviceBytes [] = [] := rfl

@[simp] theorem deviceBytes_cons :
    deviceBytes (call :: calls) = call.deviceByte?.toList ++ deviceBytes calls := by
  rw [deviceBytes, List.filterMap_cons]
  cases call.deviceByte? <;> rfl

@[simp] theorem deviceBytes_append :
    deviceBytes (calls ++ more) = deviceBytes calls ++ deviceBytes more :=
  List.filterMap_append

end Calls

namespace Board

@[simp] theorem dataLines_record (board : Board) (event : Event) :
    (board.record event).dataLines = board.dataLines := by
  unfold record
  split <;> rfl

/-- No call changes what stands on the data lines. -/
theorem dataLines_answer (request : Request) (board : Board) :
    (bus.answer request board).2.dataLines = board.dataLines := by
  cases request with
  | read | write | input | output | dataLines | returned | acknowledge =>
    exact dataLines_record ..
  | _ => rfl

/-- Whatever is taken from the data lines is the byte that stands there. -/
theorem eq_of_mem_deviceBytes {α : Type} (program : Program α) (board : Board) :
    ∀ byte ∈ deviceBytes (program.calls bus board), byte = board.dataLines := by
  induction program generalizing board with
  | done value => simp
  | call request next ih =>
    intro byte among
    rw [Program.calls_call, deviceBytes_cons, List.mem_append, Option.mem_toList] at among
    rcases among with here | later
    · cases request with
      | dataLines => exact (Option.some.inj here).symm
      | _ => cases here
    · exact (ih _ _ byte later).trans (dataLines_answer request board)

end Board

section Instructions

variable (cpu : Cpu)

theorem Operation.execute_unasked (operation : Operation) (index : Index) :
    (operation.execute index).Always cpu fun calls _ _ => deviceBytes calls = [] := by
  cases operation with
  | increment place | decrement place | accumulate _ place | loadImmediate place =>
    cases place <;> simp [execute, readPlace, modifyPlace]
  | _ => simp [execute]

theorem BitOperation.execute_unasked (operation : BitOperation) (place : Place) :
    (operation.execute place).Always cpu fun calls _ _ => deviceBytes calls = [] := by
  cases operation <;> cases place <;> simp [execute]

theorem BitOperation.executeIndexed_unasked (operation : BitOperation) (index : Index)
    (offset : Byte) (copy : Option Reg) :
    (operation.executeIndexed index offset copy).Always cpu fun calls _ _ =>
      deviceBytes calls = [] := by
  cases operation <;> cases copy <;> simp [executeIndexed]

theorem BlockOperation.execute_unasked (operation : BlockOperation) :
    operation.execute.Always cpu fun calls _ _ => deviceBytes calls = [] := by
  obtain ⟨action, _, _⟩ := operation
  cases action <;> simp [execute, act, transfer, compare, input, output]

theorem ExtendedOperation.execute_unasked (operation : ExtendedOperation) :
    operation.execute.Always cpu fun calls _ _ => deviceBytes calls = [] := by
  cases operation with
  | block operation => exact operation.execute_unasked cpu
  | input target =>
    cases target <;> simp [execute]
  | _ => simp [execute]

/-- No instruction looks at the data lines. -/
theorem Instruction.execute_unasked (instruction : Instruction) (offset : Byte) :
    (instruction.execute offset).Always cpu fun calls _ _ => deviceBytes calls = [] := by
  cases instruction with
  | main index operation => exact operation.execute_unasked cpu index
  | bits operation place =>
    exact (always_untaken _ _ _).mpr (operation.execute_unasked cpu place)
  | indexedBits index operation copy =>
    exact (always_untaken _ _ _).mpr (operation.executeIndexed_unasked cpu index offset copy)
  | extended operation => exact operation.execute_unasked cpu

end Instructions

/-! ### What runs -/

/-- What is fetched in the page before an instruction runs. -/
def Page.lead (page : Page) (offset opcode : Byte) : List Byte :=
  if page.displacementFirst then [offset, opcode] else [opcode]

/-- The bytes are fetched one address after the other and nothing else is done, and then the
instruction runs from the registers before them but for the program counter and the refresh
counter. -/
def Instruction.RunsBehind (instruction : Instruction) (bytes : List Byte) (offset : Byte)
    (before : Cpu) (calls : List Exchange) (after : Cpu) : Prop :=
  ∃ fetches more start taken last, calls = fetches ++ more ∧
    fetches.map Exchange.streamRead? = (placed before.registers.pc bytes).map some ∧
    start.registers = { before.registers with
      pc := before.registers.pc + BitVec.ofNat 16 bytes.length
      r := start.registers.r } ∧
    (instruction.execute offset).Reaches start more taken last ∧
    after.registers = last.registers

/-- From the given page on, the calls fetch an instruction and run it, and take nothing from the
data lines. -/
structure Page.Executes (page : Page) (before : Cpu) (chain : List Byte) (target : Page)
    (opcode : Byte) (instruction : Instruction) (taken : Bool) (calls : List Exchange)
    (after : Cpu) : Prop
    extends page.Completes before chain target opcode instruction taken calls after where
  runs : ∃ offset,
    instruction.RunsBehind (chain ++ target.lead offset opcode) offset before calls after
  unasked : deviceBytes calls = []

section Executions

variable {page target : Page} {before start after last : Cpu} {chain bytes : List Byte}
  {byte opcode offset : Byte} {instruction : Instruction} {taken : Bool} {calls : List Exchange}
  {r : Byte}

namespace Instruction.RunsBehind

/-- One byte more is fetched before the others. -/
theorem cons (runs : instruction.RunsBehind bytes offset start calls after)
    (kept : start.registers = { before.registers with pc := before.registers.pc + 1, r }) :
    instruction.RunsBehind (byte :: bytes) offset before
      (⟨.read before.registers.pc .opcode, byte⟩ :: calls) after := by
  obtain ⟨fetches, more, begun, taken, last, rfl, fetched, registers, reaches, same⟩ := runs
  refine ⟨_ :: fetches, more, begun, taken, last, rfl, ?_, ?_, reaches, same⟩
  · rw [List.map_cons, fetched, kept]
    rfl
  · rw [registers, kept, List.length_cons, Word.add_ofNat_succ]

/-- From behind the first byte the instruction runs behind the others. -/
theorem tail {call : Exchange}
    (runs : instruction.RunsBehind bytes offset before (call :: calls) after)
    (nonempty : bytes ≠ [])
    (kept : before.registers = { start.registers with pc := start.registers.pc - 1, r })
    (same : last.registers = after.registers) :
    instruction.RunsBehind bytes.tail offset start calls last := by
  obtain ⟨fetches, more, begun, taken, ended, split, fetched, registers, reaches, ends⟩ := runs
  cases bytes with
  | nil => exact absurd rfl nonempty
  | cons byte bytes =>
    cases fetches with
    | nil => cases fetched
    | cons first fetches =>
      obtain ⟨-, rfl⟩ := List.cons.inj split
      have further : start.registers.pc - 1 + 1 = start.registers.pc := BitVec.sub_add_cancel ..
      rw [kept] at fetched registers
      rw [List.length_cons, Word.add_ofNat_succ, further] at registers
      rw [List.map_cons, placed, List.map_cons, further] at fetched
      exact ⟨fetches, more, begun, taken, ended, rfl, (List.cons.inj fetched).2, registers,
        reaches, same.trans ends⟩

end Instruction.RunsBehind

/-- A prefix byte comes before what the rest executes. -/
theorem Page.Executes.cons (executes : (page.next byte).Executes start chain target opcode
      instruction taken calls after)
    (selector : page.role byte = .selector)
    (kept : start.registers = { before.registers with pc := before.registers.pc + 1, r }) :
    page.Executes before (byte :: chain) target opcode instruction taken
      (⟨.read before.registers.pc .opcode, byte⟩ :: calls) after where
  toCompletes := executes.toCompletes.cons selector kept
  runs := by
    obtain ⟨offset, runs⟩ := executes.runs
    exact ⟨offset, runs.cons kept⟩
  unasked := by simpa using executes.unasked

/-- The byte and the bytes that the calls fetch spell the instruction, and behind the byte the calls
run it from the given processor on. -/
structure Instruction.Continues (instruction : Instruction) (byte : Byte) (before : Cpu)
    (chain : List Byte) (page : Page) (opcode : Byte) (taken : Bool) (calls : List Exchange)
    (after : Cpu) : Prop where
  spells : Page.main.Spells (byte :: streamBytes calls) chain page opcode instruction
  placed : streamReads calls = placed before.registers.pc (streamBytes calls)
  first : StreamFirst calls
  unasked : deviceBytes calls = []
  runs : ∃ offset,
    instruction.RunsBehind (chain ++ page.lead offset opcode).tail offset before calls after
  taken : taken = true ↔ instruction.ConditionMet before calls after
  pc : ¬ instruction.Departs before calls after →
    after.registers.pc = before.registers.pc + BitVec.ofNat 16 (streamBytes calls).length

/-- An instruction whose first byte is fetched right before the program counter, seen from behind
that byte. -/
theorem Page.Executes.continues
    (executes : Page.main.Executes before chain target opcode instruction taken
      (⟨.read before.registers.pc .opcode, byte⟩ :: calls) after)
    (kept : before.registers = { start.registers with pc := start.registers.pc - 1, r })
    (same : last.registers = after.registers) :
    instruction.Continues byte start chain target opcode taken calls last := by
  have further : start.registers.pc - 1 + 1 = start.registers.pc := BitVec.sub_add_cancel ..
  have next : before.registers.pc + 1 = start.registers.pc := by rw [kept, further]
  have data : dataReads (⟨.read before.registers.pc .opcode, byte⟩ :: calls) = dataReads calls := by
    simp
  refine ⟨executes.spells, ?_, executes.first.2, by simpa using executes.unasked, ?_,
    executes.taken.trans (instruction.conditionMet_congr kept data same), fun stays => ?_⟩
  · have through := executes.placed
    rw [streamReads_cons, streamBytes_cons] at through
    simp only [Exchange.streamRead?, Option.toList_some, List.map_cons, List.map_nil,
      List.singleton_append, placed, next] at through
    exact (List.cons.inj through).2
  · obtain ⟨offset, runs⟩ := executes.runs
    refine ⟨offset, runs.tail ?_ kept same⟩
    unfold lead
    split <;> simp
  · have behind := executes.pc (mt (instruction.departs_congr kept data same).mp stays)
    rw [streamBytes_cons, ← same] at behind
    simp only [Exchange.streamRead?, Option.toList_some, List.map_cons, List.map_nil,
      List.singleton_append, List.length_cons, Word.add_ofNat_succ, next] at behind
    exact behind

end Executions

namespace Exec

variable (cpu : Cpu)

/-- What a fetch in a page reads comes before the instruction that it runs, if it runs one. -/
theorem fetch_runs (page : Page) :
    (fetch page).Always cpu fun calls segment after =>
      deviceBytes calls = [] ∧ ∀ opcode taken, segment = .instruction page opcode taken →
        ∀ instruction, page.role opcode = .instruction instruction →
          ∃ offset, instruction.RunsBehind (page.lead offset opcode) offset cpu calls after := by
  cases order : page.displacementFirst with
  | false =>
    rw [always_fetch_opcode cpu order]
    intro opcode
    refine ⟨fun _ => ⟨rfl, nofun⟩, fun instruction role => ?_⟩
    refine ((instruction.execute_unasked _ 0).and (always_reaches _ _)).mono ?_
    rintro calls taken after ⟨unasked, reaches⟩
    refine ⟨by simp [unasked], ?_⟩
    rintro _ _ ⟨⟩ other found
    cases role.symm.trans found
    refine ⟨0, [⟨.read cpu.registers.pc .opcode, opcode⟩], calls, _, taken, after, rfl, ?_, ?_,
      reaches, rfl⟩
    · simp [Page.lead, order]
    · simp [Page.lead, order, Cpu.fetched, Registers.refresh]
  | true =>
    rw [always_fetch_displaced cpu order]
    intro offset opcode instruction role
    refine ((instruction.execute_unasked _ offset).and (always_reaches _ _)).mono ?_
    rintro calls taken after ⟨unasked, reaches⟩
    refine ⟨by simp [unasked], ?_⟩
    rintro _ _ ⟨⟩ other found
    cases role.symm.trans found
    refine ⟨offset, [⟨.read cpu.registers.pc .operand, offset⟩,
      ⟨.read (cpu.registers.pc + 1) .operand, opcode⟩], calls, _, taken, after, rfl, ?_, ?_,
      reaches, rfl⟩
    · simp [Page.lead, order]
    · simp [Page.lead, order, BitVec.add_assoc]

/-- So does a step that is to fetch in a page. -/
theorem step_runs {lines : Lines} {page : Page}
    (fetches : ((cpu.ready lines).turn lines).page? = some page) :
    (step lines).Always cpu fun calls segment after =>
      deviceBytes calls = [] ∧ ∀ opcode taken, segment = .instruction page opcode taken →
        ∀ instruction, page.role opcode = .instruction instruction →
          ∃ offset, instruction.RunsBehind (page.lead offset opcode) offset cpu calls after := by
  rw [always_step]
  cases turn : (cpu.ready lines).turn lines with
  | proceed selected =>
    cases turn ▸ fetches
    exact fetch_runs (cpu.ready lines) page
  | begin =>
    cases turn ▸ fetches
    simp only [perform, always_bind, always_modify, List.nil_append]
    exact fetch_runs { cpu.ready lines with suppressed := false } .main
  | _ => cases turn ▸ fetches

/-- A run from a page on that comes to a boundary runs the instruction that its bytes spell. The
induction is on the number of segments, as a prefix byte leaves a processor that fetches in the next
page. -/
theorem segments_execute (fuel : Nat) {lines : Lines} (running : lines.wait = false) {page : Page}
    (fetches : ((cpu.ready lines).turn lines).page? = some page) :
    (segments fuel lines).Always cpu fun calls run after => ended run = true →
      ∃ chain target opcode instruction taken,
        page.Executes cpu chain target opcode instruction taken calls after ∧
          (run.map Segment.tacts).sum =
            4 * chain.length + Segment.entryTacts target opcode taken := by
  induction fuel generalizing cpu page with
  | zero => exact nofun
  | succ fuel ih =>
    simp only [segments, always_bind, always_ite, always_pure]
    refine ((step_fetches cpu fetches).and (step_runs cpu fetches)).mono ?_
    rintro calls segment after ⟨fetched, unasked, runs⟩
    cases fetched with
    | @selector opcode _ role pending kept =>
      refine ⟨fun _ => ?_, fun ends => absurd rfl ends⟩
      refine (ih after (Cpu.fetches_of_pending running pending)).mono ?_
      intro more run last executes ends
      rw [ended_cons_of_busy rfl] at ends
      obtain ⟨chain, target, found, instruction, taken, executes, time⟩ := executes ends
      rw [List.append_nil]
      refine ⟨opcode :: chain, target, found, instruction, taken, executes.cons role kept, ?_⟩
      rw [List.map_cons, List.sum_cons, time, Segment.tacts_selector role, List.length_cons]
      omega
    | @instruction opcode instruction taken _ _ completes =>
      refine ⟨fun busy => absurd busy Bool.false_ne_true, fun _ _ => ?_⟩
      rw [List.append_nil]
      have ran := runs opcode taken rfl instruction completes.spells.role
      exact ⟨[], page, opcode, instruction, taken, ⟨completes, ran, unasked⟩, by
        simp [Segment.tacts]⟩

/-- A run up to the next boundary runs the instruction that the stream spells. -/
theorem nextInstruction_executes {lines : Lines} (begins : cpu.Begins lines) :
    (nextInstruction lines).Always cpu fun calls value after => ∀ tacts, value = some tacts →
      ∃ chain target opcode instruction taken,
        Page.main.Executes cpu chain target opcode instruction taken calls after ∧
          tacts = 4 * chain.length + Segment.entryTacts target opcode taken := by
  rw [nextInstruction_eq, always_bind]
  refine (segments_execute cpu stepLimit rfl begins.fetches).mono ?_
  intro calls run after executes
  rw [always_pure, List.append_nil]
  intro tacts value
  by_cases ends : ended run = true
  · rw [if_pos ends] at value
    obtain ⟨-, rfl⟩ := counted_eq_some_iff.mp value
    exact executes ends
  · rw [if_neg ends] at value
    cases value

end Exec

/-! ### The first byte -/

/-- The processor as the acknowledgement of a maskable interrupt leaves it. -/
def Cpu.accepted (cpu : Cpu) (lines : Lines) : Cpu :=
  ((cpu.ready (unheld lines)).acknowledged cpu.looping).updateRegisters fun regs =>
    { regs with iff1 := false, iff2 := false }

/-- The processor that the fetch of an opcode turns into that one, with the two tacts paid that an
acknowledgement takes beyond a fetch. -/
def Cpu.poised (cpu : Cpu) (lines : Lines) : Cpu :=
  { cpu.accepted lines with
    registers := { (cpu.accepted lines).registers with
      pc := cpu.registers.pc - 1
      r := cpu.registers.r }
    written := cpu.written
    total := cpu.total.after 2 }

section Poised

variable {cpu : Cpu} {lines : Lines}

/-- The next step of a poised processor begins an instruction. -/
theorem Cpu.poised_begins (accepts : (cpu.ready (unheld lines)).turn (unheld lines) = .maskable) :
    (cpu.poised lines).Begins lines := by
  obtain ⟨-, boundary, reset, -, unlatched, -, -⟩ := Cpu.turn_eq_maskable_iff.mp accepts
  obtain ⟨unnoted, unasserted⟩ : cpu.nmiPending = false ∧ lines.nmi = false := by
    simpa [ready, beginStep, sampleNmi, unheld] using unlatched
  refine ⟨boundary, reset, .inr ⟨?_, unasserted, .inl rfl⟩, rfl⟩
  exact unlatched

/-- The fetch of the first byte leaves what the acknowledgement does. -/
theorem Cpu.fetched_poised (accepts : (cpu.ready (unheld lines)).turn (unheld lines) = .maskable)
    (opcode : Byte) :
    let start := { (cpu.poised lines).ready (unheld lines) with suppressed := false }
    (start.opened .main).fetched opcode =
      { cpu.accepted lines with lastFetched := opcode, total := cpu.total.after 2 } := by
  obtain ⟨-, -, -, unsuppressed, -, -, -⟩ := Cpu.turn_eq_maskable_iff.mp accepts
  have kept : cpu.suppressed = false := unsuppressed
  simp [opened, poised, accepted, ready, beginStep, sampleNmi, unheld, fetched, beginInstruction,
    ageFlags, acknowledged, updateRegisters, Registers.refresh, Registers.setF, kept]

end Poised

namespace Exec

/-- The calls of an acknowledgement that a device answers with a byte. -/
def injection (data : Byte) : List Exchange :=
  [⟨.acknowledge (.maskable InterruptMode.injected.number), ()⟩, ⟨.dataLines, data⟩]

variable (cpu : Cpu) {lines : Lines}

/-- The fetch of a first byte, opened for a poised processor. -/
theorem always_step_poised (accepts : (cpu.ready (unheld lines)).turn (unheld lines) = .maskable)
    {post : List Exchange → Segment → Cpu → Prop}
    (always : (step (unheld lines)).Always (cpu.poised lines) post) (data : Byte) :
    let start := { cpu.accepted lines with lastFetched := data, total := cpu.total.after 2 }
    let first : Exchange := ⟨.read (cpu.registers.pc - 1) .opcode, data⟩
    (Page.main.role data = .selector →
      post [first] (.selector .main data)
        ({ start with pending := some (Page.main.next data) }.endStep
          (Segment.selector .main data).tacts)) ∧
    ∀ instruction, Page.main.role data = .instruction instruction →
      (instruction.execute 0).Always { start with lastOpcode := data } fun calls taken after =>
        post (first :: calls) (.instruction .main data taken)
          (after.endStep (Segment.instruction .main data taken).tacts) := by
  intro start first
  obtain ⟨-, boundary, -⟩ := Cpu.turn_eq_maskable_iff.mp accepts
  have turn := (Cpu.poised_begins accepts).turn
  simp only [always_step, turn, perform, always_bind, always_modify, List.nil_append] at always
  rw [always_fetch_opcode _ rfl] at always
  have fetched := always data
  rw [Cpu.fetched_poised accepts] at fetched
  have same : { start with pending := none, lastOpcode := data } =
      { start with lastOpcode := data } := by
    have whole : (cpu.accepted lines).pending = none := boundary
    simp only [start, whole]
  exact ⟨fetched.1, same ▸ fetched.2⟩

/-- The two tacts that an acknowledgement takes beyond a fetch. -/
def surcharge : Cpu.Amendment where
  total := (·.after 2)

/-- A first byte from the data lines does what it would have done if it had been fetched, in two
tacts more. -/
theorem step_as_fetched (accepts : (cpu.ready (unheld lines)).turn (unheld lines) = .maskable)
    (mode : cpu.registers.im = .injected) :
    (step (unheld lines)).Always cpu fun calls segment after => ∃ data rest fetched,
      calls = injection data ++ rest ∧
        (step (unheld lines)).Reaches (cpu.poised lines)
          (⟨.read (cpu.registers.pc - 1) .opcode, data⟩ :: rest) fetched
          { after with stepTacts := fetched.tacts } ∧
        segment.tacts = 2 + fetched.tacts ∧ segment.busy = fetched.busy := by
  have ready : (cpu.ready (unheld lines)).registers.im = .injected := mode
  rw [always_step, accepts]
  simp only [perform, acknowledgeMaskable, inject, always_bind, always_registers,
    always_acknowledge, always_modify, always_updateRegisters, ready, always_dataLines]
  intro data
  cases role : Page.main.role data with
  | selector =>
    refine ⟨data, [], .selector .main data, by simp [injection, ready], ?_, rfl, rfl⟩
    rw [reaches_iff_always]
    intro post always
    have selected := (always_step_poised cpu accepts always data).1 role
    simp only [Cpu.endStep, Tacts.after_after] at selected
    exact selected
  | instruction instruction =>
    simp only [always_bind, always_modify, always_pure]
    refine (always_reaches (instruction.execute 0) _).mono ?_
    intro more taken after reaches
    refine ⟨data, more, .instruction .main data taken, by simp [injection, ready], ?_, rfl, rfl⟩
    -- No instruction can tell that two tacts are paid already.
    have paid := reaches.amend (instruction.execute_carries surcharge 0)
    rw [reaches_iff_always] at paid ⊢
    intro post always
    have ran := paid _ ((always_step_poised cpu accepts always data).2 instruction role)
    simp only [Cpu.endStep, Cpu.amend, surcharge, Tacts.after_after] at ran
    exact ran

/-- What the last step has taken is not looked at by the next. -/
theorem segments_unread (fuel spent : Nat) {run : List Segment} {calls : List Exchange} {last : Cpu}
    (reaches : (segments fuel lines).Reaches cpu calls run last) :
    ∃ again, (segments fuel lines).Reaches { cpu with stepTacts := spent } calls run
      { last with stepTacts := again } := by
  cases fuel with
  | zero =>
    obtain ⟨rfl, ends⟩ := reaches
    cases ends
    exact ⟨spent, rfl, rfl⟩
  | succ fuel => exact ⟨last.stepTacts, reaches⟩

/-- So does a run up to the next boundary: behind the first byte nothing is left to tell. -/
theorem segments_as_fetched (accepts : (cpu.ready (unheld lines)).turn (unheld lines) = .maskable)
    (mode : cpu.registers.im = .injected) (fuel : Nat) :
    (segments (fuel + 1) (unheld lines)).Always cpu fun calls run after =>
      ∃ data rest fetched spent, calls = injection data ++ rest ∧
        (segments (fuel + 1) (unheld lines)).Reaches (cpu.poised lines)
          (⟨.read (cpu.registers.pc - 1) .opcode, data⟩ :: rest) fetched
          { after with stepTacts := spent } ∧
        (run.map Segment.tacts).sum = 2 + (fetched.map Segment.tacts).sum ∧
        ended run = ended fetched := by
  simp only [segments, always_bind, always_ite, always_pure]
  refine (step_as_fetched cpu accepts mode).mono ?_
  rintro calls segment after ⟨data, rest, fetched, rfl, reaches, time, same⟩
  constructor
  · -- Both runs go on from the same prefix byte.
    intro busy
    refine (always_reaches (segments fuel (unheld lines)) after).mono ?_
    intro more run last goes
    obtain ⟨spent, goes⟩ := segments_unread after fuel fetched.tacts goes
    refine ⟨data, rest ++ more, fetched :: run, spent, by simp, ?_, by simp [time, Nat.add_assoc],
      ?_⟩
    · rw [reaches_iff_always] at reaches goes ⊢
      intro post always
      simp only [always_bind, always_ite, always_pure] at always
      simpa using goes _ ((reaches _ always).1 (same ▸ busy))
    · rw [ended_cons_of_busy busy, ended_cons_of_busy (same ▸ busy)]
  · intro ends
    refine ⟨data, rest, [fetched], fetched.tacts, by simp, ?_, by simp [time], ?_⟩
    · rw [reaches_iff_always] at reaches ⊢
      intro post always
      simp only [always_bind, always_ite, always_pure] at always
      simpa using (reaches _ always).2 (same ▸ ends)
    · simp [ended, same]

/-- So the run of an injected instruction takes two tacts more than the run that fetches it. -/
theorem nextInstruction_as_fetched
    (accepts : (cpu.ready (unheld lines)).turn (unheld lines) = .maskable)
    (mode : cpu.registers.im = .injected) :
    (nextInstruction lines).Always cpu fun calls value after => ∃ data rest spent,
      calls = injection data ++ rest ∧ ∀ tacts, value = some tacts → ∃ cost, tacts = 2 + cost ∧
        (nextInstruction lines).Reaches (cpu.poised lines)
          (⟨.read (cpu.registers.pc - 1) .opcode, data⟩ :: rest) (some cost)
          { after with stepTacts := spent } := by
  rw [nextInstruction_eq, always_bind]
  refine (segments_as_fetched cpu accepts mode (stepLimit - 1)).mono ?_
  rintro calls run after ⟨data, rest, fetched, spent, rfl, reaches, time, same⟩
  rw [always_pure, List.append_nil]
  refine ⟨data, rest, spent, rfl, fun tacts value => ?_⟩
  by_cases ends : ended run = true
  · rw [if_pos ends] at value
    obtain ⟨fits, rfl⟩ := counted_eq_some_iff.mp value
    refine ⟨_, time, ?_⟩
    rw [reaches_iff_always] at reaches ⊢
    intro post always
    rw [always_bind] at always
    have holds := reaches _ always
    rw [← same, if_pos ends, counted_of_lt (by omega), always_pure, List.append_nil] at holds
    exact holds
  · rw [if_neg ends] at value
    cases value

end Exec

/-! ### What an injected instruction costs -/

/-- Wherever a run fetches the bytes, it takes so many tacts, if the instruction that they spell
takes its longer path as given. -/
def Instruction.Costs (instruction : Instruction) (bytes : List Byte) (taken : Bool)
    (cost : Nat) : Prop :=
  ∀ (σ : Type) (bus : Bus σ) (cpu : Cpu) (device : σ) (lines : Lines) (spent : Nat),
    cpu.Begins lines → (runOn (nextInstruction lines) bus cpu device).value = some spent →
      streamBytes (callsOn (nextInstruction lines) bus cpu device) = bytes →
      (taken = true ↔ instruction.ConditionMet cpu (callsOn (nextInstruction lines) bus cpu device)
        (runOn (nextInstruction lines) bus cpu device).cpu) →
      spent = cost

/-- The time of an instruction is settled by the bytes that spell it, up to its longer path. -/
theorem Page.Spells.costs {bytes chain : List Byte} {page : Page} {opcode : Byte}
    {instruction : Instruction} (spells : Page.main.Spells bytes chain page opcode instruction)
    (taken : Bool) :
    instruction.Costs bytes taken (4 * (chain.length - page.prefixBytes.length) +
      (page.entry opcode).tacts + if taken then (page.entry opcode).extraTacts else 0) := by
  intro σ bus cpu device lines spent begins returns same condition
  obtain ⟨more, other, found, meant, longer, again, -, time, -, met, -⟩ :=
    nextInstruction_tacts bus cpu device begins returns
  rw [same] at again
  obtain ⟨rfl, rfl, -⟩ := spells.unique again (List.prefix_refl _) (List.prefix_refl _)
  cases spells.role.symm.trans again.role
  have lengths : chain.length = more.length := by
    have first := spells.length
    have second := again.length
    omega
  have alike : longer = taken := Bool.eq_iff_iff.mpr (met.trans condition.symm)
  rw [time, lengths, alike]

/-- Bytes that stand in memory are those found there. -/
theorem eq_bytesFrom {memory : Word → Byte} {origin : Word} {bytes : List Byte}
    (stored : ∀ spot ∈ placed origin bytes, memory spot.1 = spot.2) :
    bytes = bytesFrom memory origin bytes.length :=
  (prefix_bytesFrom stored (Nat.le_refl _)).eq_of_length (length_bytesFrom ..).symm

namespace Exec

/-- Where the next step accepts an interrupt whose device injects an instruction, and the run comes
to a boundary, the device is asked once, right behind the acknowledgement. Its byte and those of
memory from the program counter on spell an instruction, behind whatever prefix bytes, and nothing
else is fetched. The instruction runs on the registers that the acknowledgement leaves, and there
its condition is met or not. It takes two tacts more than the bytes take wherever they are fetched,
and so than the run of the poised processor that fetches them, which is the same in all else. The
machine ends behind the bytes, if the instruction does not go elsewhere. -/
theorem injected_as_spelled (cpu : Cpu) (board : Board) {lines : Lines} {tacts : Nat}
    (accepts : (cpu.ready (unheld lines)).turn (unheld lines) = .maskable)
    (mode : cpu.registers.im = .injected)
    (returns : (runOn (nextInstruction lines) Board.bus cpu board).value = some tacts) :
    let calls := callsOn (nextInstruction lines) Board.bus cpu board
    let after := (runOn (nextInstruction lines) Board.bus cpu board).cpu
    let accepted := cpu.accepted lines
    ∃ count rest,
      let bytes := board.dataLines :: bytesFrom board.memory.read cpu.registers.pc count
      calls = injection board.dataLines ++ rest ∧ deviceBytes rest = [] ∧
      streamReads calls = placed cpu.registers.pc bytes.tail ∧
      ∃ chain page opcode instruction taken cost,
        Page.main.Spells bytes chain page opcode instruction ∧
        (∃ offset, instruction.RunsBehind (chain ++ page.lead offset opcode).tail offset accepted
          rest after) ∧
        (taken = true ↔ instruction.ConditionMet accepted rest after) ∧
        tacts = 2 + cost ∧
        cost = 4 * (chain.length - page.prefixBytes.length) + (page.entry opcode).tacts +
          (if taken then (page.entry opcode).extraTacts else 0) ∧
        instruction.Costs bytes taken cost ∧
        (∃ spent, (nextInstruction lines).Reaches (cpu.poised lines)
          (⟨.read (cpu.registers.pc - 1) .opcode, board.dataLines⟩ :: rest) (some cost)
          { after with stepTacts := spent }) ∧
        (¬ instruction.Departs accepted rest after →
          after.registers.pc = cpu.registers.pc + BitVec.ofNat 16 (bytes.length - 1)) := by
  intro calls after accepted
  obtain ⟨data, rest, spent, split, fetched⟩ :=
    (nextInstruction_as_fetched cpu accepts mode).onBus Board.bus board
  obtain ⟨cost, later, reaches⟩ := fetched tacts returns
  obtain ⟨chain, page, opcode, instruction, taken, executes, costs⟩ :=
    reaches_iff_always.mp reaches _
      (nextInstruction_executes _ (cpu.poised_begins accepts)) cost rfl
  have continues : instruction.Continues data accepted chain page opcode taken rest after :=
    executes.continues rfl rfl
  -- The byte is the one on the data lines, and the others stand in memory.
  have reads : streamReads calls = streamReads rest := by
    simp [calls, split, injection]
  have here : data = board.dataLines := by
    refine Board.eq_of_mem_deviceBytes (nextInstruction lines cpu) board data ?_
    change data ∈ deviceBytes calls
    simp [calls, split, injection]
  subst here
  have stand : streamBytes rest =
      bytesFrom board.memory.read cpu.registers.pc (streamBytes rest).length := by
    refine eq_bytesFrom (continues.placed ▸ reads ▸ ?_)
    refine Program.streamReads_of_backed Board.bus_backed (nextInstruction lines cpu) board ?_
    change StreamFirst calls
    simpa [calls, split, injection] using continues.first
  have spells := continues.spells
  have time : cost = 4 * (chain.length - page.prefixBytes.length) + (page.entry opcode).tacts +
      (if taken then (page.entry opcode).extraTacts else 0) := by
    rw [costs, Segment.chain_add_entryTacts spells.selects spells.role]
  refine ⟨(streamBytes rest).length, rest, split, continues.unasked, ?_, chain, page, opcode,
    instruction, taken, cost, stand ▸ spells, continues.runs, continues.taken, later, time, ?_,
    ⟨spent, reaches⟩, ?_⟩
  · rw [reads, List.tail_cons, ← stand]
    exact continues.placed
  · rw [← stand, time]
    exact spells.costs taken
  · rw [List.length_cons, length_bytesFrom]
    exact continues.pc

/-- DJNZ behind two index prefixes, of which one was not needed and stands on the data lines. -/
theorem injected_prefixed_djnz :
    let cpu := Cpu.fresh.updateRegisters fun regs => { regs with iff1 := true, im := .injected }
    let board := (Board.fresh.load 0 [0xDD, 0x10, 0xFE]).setDataLines 0xDD
    let run := runOn (nextInstruction { int := true }) Board.bus cpu board
    let calls := callsOn (nextInstruction { int := true }) Board.bus cpu board
    run.value = some 23 ∧ streamReads calls = [(0, 0xDD), (1, 0x10), (2, 0xFE)] ∧
      ∃ instruction taken,
        Instruction.Costs instruction [0xDD, 0xDD, 0x10, 0xFE] taken 21 := by
  intro cpu board
  have accepts : (cpu.ready (unheld { int := true })).turn (unheld { int := true }) = .maskable :=
    rfl
  have returns : (runOn (nextInstruction { int := true }) Board.bus cpu board).value = some 23 := by
    decide +kernel
  have reads : streamReads (callsOn (nextInstruction { int := true }) Board.bus cpu board) =
      [(0, 0xDD), (1, 0x10), (2, 0xFE)] := by
    decide +kernel
  obtain ⟨count, rest, -, -, placed, chain, page, opcode, instruction, taken, cost, -, -, -, time,
    -, costs, -⟩ := injected_as_spelled cpu board accepts rfl returns
  refine ⟨returns, reads, instruction, taken, ?_⟩
  have twenty : cost = 21 := by omega
  have stand := congrArg (List.map Prod.snd) (reads.symm.trans placed)
  rw [map_snd_placed, List.tail_cons] at stand
  rw [← stand, twenty] at costs
  exact costs

end Exec

end Z80
