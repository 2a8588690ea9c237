import Z80.Proofs.Condition
import Z80.Proofs.Encoding
import Z80.Proofs.Runs
import Z80.Proofs.Step
import Z80.Proofs.Stream

/-!
# From the first byte of an instruction to its end

On a boundary where nothing else is to be done, a run up to the next boundary fetches a chain of
prefix bytes, an opcode and its operands, and runs the instruction that they spell. The prefix bytes
leave all registers but the program counter and the refresh counter as they were.

## Main definitions

* `Cpu.Begins`: the next step begins an instruction
* `Page.Completes`: calls and a processor that complete an instruction
* `Page.Fetches`, `Page.Runs`: what a step and a run from a page on do

## Main results

* `Exec.step_fetches`: a step that fetches meets a prefix byte or completes an instruction
* `Exec.segments_run`: so a run from a page on ends with an instruction or with its segments
* `Exec.nextInstruction_completes`: a run up to the next boundary completes what the stream spells
-/

namespace Z80

open Exec

/-- The next step of a run of instructions begins one: the processor is on a boundary, there is no
reset and no interrupt to take, and the machine is not halted. -/
structure Cpu.Begins (cpu : Cpu) (lines : Lines) : Prop where
  boundary : cpu.pending = none
  reset : lines.reset = false
  interrupts : cpu.suppressed = true ∨
    cpu.nmiPending = false ∧ lines.nmi = false ∧
      (cpu.registers.iff1 = false ∨ lines.int = false)
  awake : cpu.halted = false

/-- The page in which the turn fetches. -/
def Turn.page? : Turn → Option Page
  | .proceed page => some page
  | .begin => some .main
  | _ => none

/-- Behind a prefix byte the machine is to fetch in the page that it selects. -/
theorem Cpu.fetches_of_pending {cpu : Cpu} {lines : Lines} {page : Page}
    (running : lines.wait = false) (pending : cpu.pending = some page) :
    ((cpu.ready lines).turn lines).page? = some page := by
  have turn : (cpu.ready lines).turn lines = .proceed page :=
    Cpu.turn_eq_proceed_iff.mpr ⟨running, pending⟩
  exact congrArg Turn.page? turn

theorem Cpu.Begins.turn {cpu : Cpu} {lines : Lines} (begins : cpu.Begins lines) :
    (cpu.ready (unheld lines)).turn (unheld lines) = .begin := by
  have sampled : (cpu.ready (unheld lines)).suppressed = true ∨
      (cpu.ready (unheld lines)).nmiPending = false ∧
        ((cpu.ready (unheld lines)).registers.iff1 = false ∨ (unheld lines).int = false) := by
    simpa [Cpu.ready, Cpu.beginStep, Cpu.sampleNmi, unheld, and_assoc] using begins.interrupts
  exact Cpu.turn_eq_begin_iff.mpr ⟨rfl, begins.boundary, begins.reset, sampled, begins.awake⟩

/-- The step that begins an instruction fetches in the main page. -/
theorem Cpu.Begins.fetches {cpu : Cpu} {lines : Lines} (begins : cpu.Begins lines) :
    ((cpu.ready (unheld lines)).turn (unheld lines)).page? = some .main := by
  rw [begins.turn]
  rfl

/-- From the given page on, the calls fetch and run an instruction, whatever chain of prefix bytes
comes before it. -/
structure Page.Completes (page : Page) (before : Cpu) (chain : List Byte) (target : Page)
    (opcode : Byte) (instruction : Instruction) (taken : Bool) (calls : List Exchange)
    (after : Cpu) : Prop where
  spells : page.Spells (streamBytes calls) chain target opcode instruction
  placed : streamReads calls = placed before.registers.pc (streamBytes calls)
  first : StreamFirst calls
  pc : ¬ instruction.Departs before calls after →
    after.registers.pc = before.registers.pc + BitVec.ofNat 16 (streamBytes calls).length
  lastOpcode : after.lastOpcode = opcode
  taken : taken = true ↔ instruction.ConditionMet before calls after
  counts : instruction.CountsDown before calls after

theorem Tacts.after_after (count : Tacts) (first second : Nat) :
    (count.after first).after second = count.after (first + second) := by
  simp [after, BitVec.ofNat_add, BitVec.add_assoc]

/-! ### What conditions depend on -/

section Congruence

variable {before start after last : Cpu} {calls more : List Exchange} {pc : Word} {r : Byte}

theorem Instruction.conditionMet_congr (instruction : Instruction)
    (kept : start.registers = { before.registers with pc, r })
    (data : dataReads calls = dataReads more) (same : last.registers = after.registers) :
    instruction.ConditionMet start calls after ↔ instruction.ConditionMet before more last := by
  cases instruction with
  | main _ operation =>
    cases operation <;> simp [ConditionMet, kept, same]
  | extended operation =>
    cases operation <;> simp [ConditionMet, BlockOperation.GoesOn, kept, same, data]
  | _ => rfl

theorem Instruction.CountsDown.congr {instruction : Instruction}
    (counts : instruction.CountsDown start calls after)
    (kept : start.registers = { before.registers with pc, r })
    (among : calls ⊆ more) (same : last.registers = after.registers) :
    instruction.CountsDown before more last := by
  have bc : start.registers.bc = before.registers.bc := by rw [kept]
  have general : start.registers.general = before.registers.general := by rw [kept]
  cases instruction with
  | main _ operation =>
    cases operation with
    | countAndJump =>
      obtain ⟨count, asked, left⟩ := counts
      rw [general] at asked
      exact ⟨count, among asked, same ▸ left⟩
    | _ => trivial
  | extended operation =>
    cases operation with
    | block operation =>
      obtain ⟨action, _, _⟩ := operation
      cases action with
      | transfer | compare =>
        obtain ⟨count, asked, left⟩ := counts
        rw [bc] at asked
        exact ⟨count, among asked, same ▸ left⟩
      | input | output => simpa only [CountsDown, same, general] using counts
    | _ => trivial
  | _ => trivial

theorem Instruction.departs_congr (instruction : Instruction)
    (kept : start.registers = { before.registers with pc, r })
    (data : dataReads calls = dataReads more) (same : last.registers = after.registers) :
    instruction.Departs start calls after ↔ instruction.Departs before more last := by
  cases instruction with
  | extended operation =>
    cases operation <;> simp [Departs, BlockOperation.GoesOn, kept, same, data]
  | _ => rfl

end Congruence

/-! ### One step -/

/-- What always holds of an instruction, put together. -/
theorem Instruction.execute_spec (instruction : Instruction) (offset : Byte) (cpu : Cpu) :
    (instruction.execute offset).Always cpu fun calls taken after =>
      instruction.Frame cpu calls after ∧ instruction.Streams cpu calls after ∧
        (taken = true ↔ instruction.ConditionMet cpu calls after) ∧
        instruction.CountsDown cpu calls after :=
  (instruction.execute_frame cpu offset).and
    ((instruction.execute_stream cpu offset).and (instruction.execute_taken cpu offset))

/-- On a page whose opcodes come first, all operands follow the opcode. -/
theorem Page.trailing_of_plain {page : Page} {opcode : Byte} {instruction : Instruction}
    (plain : page.displacementFirst = false)
    (role : page.role opcode = .instruction instruction) :
    instruction.trailing = instruction.operands.size := by
  cases instruction with
  | indexedBits index operation copy =>
    cases page with
    | ixBits | iyBits => cases plain
    | bits => cases role
    | _ => simp only [Page.role, Role.ofMain] at role; split at role <;> cases role
  | _ => rfl

namespace Page.Completes

variable {page target : Page} {before start after : Cpu} {chain : List Byte} {byte opcode : Byte}
  {instruction : Instruction} {taken : Bool} {calls : List Exchange} {r : Byte}

/-- The opcode comes first. -/
theorem of_opcode (plain : page.displacementFirst = false)
    (role : page.role opcode = .instruction instruction)
    (frame : instruction.Frame start calls after)
    (streams : instruction.Streams start calls after)
    (condition : taken = true ↔ instruction.ConditionMet start calls after)
    (counts : instruction.CountsDown start calls after)
    (kept : start.registers = { before.registers with pc := before.registers.pc + 1, r })
    (noted : start.lastOpcode = opcode) (tacts : Nat) :
    page.Completes before [] page opcode instruction taken
      (⟨.read before.registers.pc .opcode, opcode⟩ :: calls) (after.endStep tacts) where
  spells := ⟨rfl, role, streamBytes calls, by rw [streams.size, trailing_of_plain plain role], by
    rw [arrange_of_plain plain]; rfl⟩
  placed := by simp [streams.placed, kept, streamBytes_cons]
  first := ⟨by simp, streams.first⟩
  pc stays := by
    have behind := streams.pc (mt (instruction.departs_congr kept (by simp) rfl).mp stays)
    simp only [Cpu.endStep, behind, kept, streamBytes_cons, Exchange.streamRead?,
      Option.toList_some, List.map_cons, List.map_nil, List.length_append, List.length_singleton,
      streams.size, Nat.add_comm 1, Word.add_ofNat_succ]
  lastOpcode := frame.driver.lastOpcode.trans noted
  taken := condition.trans (instruction.conditionMet_congr kept (by simp) rfl)
  counts := counts.congr kept (List.subset_cons_self ..) rfl

/-- On the indexed bit pages the offset comes before the opcode. -/
theorem of_displaced {offset : Byte} (displaced : page.displacementFirst = true)
    (role : page.role opcode = .instruction instruction)
    (frame : instruction.Frame start calls after)
    (streams : instruction.Streams start calls after)
    (condition : taken = true ↔ instruction.ConditionMet start calls after)
    (counts : instruction.CountsDown start calls after)
    (kept : start.registers = { before.registers with pc := before.registers.pc + 1 + 1, r })
    (noted : start.lastOpcode = opcode) (tacts : Nat) :
    page.Completes before [] page opcode instruction taken
      (⟨.read before.registers.pc .operand, offset⟩ ::
        ⟨.read (before.registers.pc + 1) .operand, opcode⟩ :: calls) (after.endStep tacts) := by
  obtain ⟨_, _, _, own⟩ := role_of_displacementFirst displaced opcode
  cases role.symm.trans own
  have unstreamed : streamBytes calls = [] := List.length_eq_zero_iff.mp streams.size
  refine ⟨⟨rfl, role, [offset], rfl, ?_⟩, ?_, ?_, ?_,
    frame.driver.lastOpcode.trans noted, condition.trans ?_, counts.congr kept ?_ rfl⟩
  · simp [arrange_of_displaced displaced, streamBytes_cons, unstreamed]
  · simp [streams.placed, unstreamed, streamBytes_cons]
  · exact ⟨by simp, by simp, streams.first⟩
  · -- A bit operation never goes elsewhere.
    intro _
    have behind := streams.pc id
    simp [Cpu.endStep, behind, kept, streamBytes_cons, unstreamed, Instruction.trailing,
      BitVec.add_assoc]
  · exact Instruction.conditionMet_congr _ kept (by simp) rfl
  · exact fun call member => List.mem_cons_of_mem _ (List.mem_cons_of_mem _ member)

/-- A prefix byte comes before what the rest completes. -/
theorem cons (completes : (page.next byte).Completes start chain target opcode instruction taken
      calls after)
    (selector : page.role byte = .selector)
    (kept : start.registers = { before.registers with pc := before.registers.pc + 1, r }) :
    page.Completes before (byte :: chain) target opcode instruction taken
      (⟨.read before.registers.pc .opcode, byte⟩ :: calls) after where
  spells := completes.spells.cons selector
  placed := by simp [completes.placed, kept, streamBytes_cons]
  first := ⟨by simp, completes.first⟩
  pc stays := by
    have behind := completes.pc (mt (instruction.departs_congr kept (by simp) rfl).mp stays)
    simp only [behind, kept, streamBytes_cons, Exchange.streamRead?, Option.toList_some,
      List.map_cons, List.map_nil, List.length_append, List.length_singleton, Nat.add_comm 1,
      Word.add_ofNat_succ]
  lastOpcode := completes.lastOpcode
  taken := completes.taken.trans
    (instruction.conditionMet_congr kept (by simp) rfl)
  counts := completes.counts.congr kept (List.subset_cons_self ..) rfl

/-- Only the registers before matter. -/
theorem of_registers (completes : page.Completes start chain target opcode instruction taken calls
      after) (same : start.registers = before.registers) :
    page.Completes before chain target opcode instruction taken calls after where
  spells := completes.spells
  placed := same ▸ completes.placed
  first := completes.first
  pc stays := same ▸ completes.pc (mt (instruction.departs_congr same rfl rfl).mp stays)
  lastOpcode := completes.lastOpcode
  taken := completes.taken.trans (instruction.conditionMet_congr same rfl rfl)
  counts := completes.counts.congr same (List.Subset.refl _) rfl

end Page.Completes

/-- A step that fetches in a page meets a prefix byte, or completes an instruction. -/
inductive Page.Fetches (page : Page) (before : Cpu) : List Exchange → Segment → Cpu → Prop where
  | selector {opcode : Byte} {after : Cpu} (role : page.role opcode = .selector)
      (pending : after.pending = some (page.next opcode))
      (kept : after.registers =
        { before.registers with
          pc := before.registers.pc + 1
          r := before.registers.refresh.r }) :
      page.Fetches before [⟨.read before.registers.pc .opcode, opcode⟩] (.selector page opcode)
        after
  | instruction {opcode : Byte} {instruction : Instruction} {taken : Bool}
      {calls : List Exchange} {after : Cpu}
      (completes : page.Completes before [] page opcode instruction taken calls after) :
      page.Fetches before calls (.instruction page opcode taken) after

/-- Only the registers before matter. -/
theorem Page.Fetches.of_registers {page : Page} {start before after : Cpu}
    {calls : List Exchange} {segment : Segment} (fetched : page.Fetches start calls segment after)
    (same : start.registers = before.registers) : page.Fetches before calls segment after := by
  cases fetched with
  | selector role pending kept =>
    rw [same] at kept ⊢
    exact .selector role pending kept
  | instruction completes => exact .instruction (completes.of_registers same)

namespace Exec

variable (cpu : Cpu)

theorem fetch_fetches (page : Page) :
    (fetch page).Always cpu fun calls segment after =>
      page.Fetches cpu calls segment (after.endStep segment.tacts) := by
  cases order : page.displacementFirst with
  | false =>
    have opened : (cpu.opened page).registers = cpu.registers := (cpu.opened_kept page).1
    have kept (opcode : Byte) : ((cpu.opened page).fetched opcode).registers =
        { cpu.registers with pc := cpu.registers.pc + 1, r := cpu.registers.refresh.r } := by
      rw [← opened]
      rfl
    rw [always_fetch_opcode cpu order]
    intro opcode
    constructor
    · intro role
      exact .selector role rfl (kept opcode)
    · intro instruction role
      refine (instruction.execute_spec 0 _).mono ?_
      rintro calls taken after ⟨frame, streams, condition, counts⟩
      exact .instruction (.of_opcode order role frame streams condition counts (kept opcode) rfl _)
  | true =>
    rw [always_fetch_displaced cpu order]
    intro offset opcode instruction role
    refine (instruction.execute_spec offset _).mono ?_
    rintro calls taken after ⟨frame, streams, condition, counts⟩
    exact .instruction (.of_displaced order role frame streams condition counts rfl rfl _)

/-- A step that is to fetch in a page does so. -/
theorem step_fetches {lines : Lines} {page : Page}
    (fetches : ((cpu.ready lines).turn lines).page? = some page) :
    (step lines).Always cpu fun calls segment after => page.Fetches cpu calls segment after := by
  rw [always_step]
  cases turn : (cpu.ready lines).turn lines with
  | proceed selected =>
    cases turn ▸ fetches
    refine (fetch_fetches (cpu.ready lines) page).mono ?_
    intro calls segment after fetched
    exact fetched.of_registers rfl
  | begin =>
    cases turn ▸ fetches
    simp only [perform, always_bind, always_modify, List.nil_append]
    refine (fetch_fetches _ .main).mono ?_
    intro calls segment after fetched
    exact fetched.of_registers rfl
  | _ => cases turn ▸ fetches

end Exec

/-- What a run from a page on does: its last segment completes an instruction, or all of the
segments that it may have are spent on prefix bytes. -/
inductive Page.Runs (page : Page) (limit : Nat) (before : Cpu) (calls : List Exchange)
    (run : List Segment) (after : Cpu) : Prop where
  | completed {chain : List Byte} {target : Page} {opcode : Byte} {instruction : Instruction}
      {taken : Bool} (ends : ended run = true)
      (completes : page.Completes before chain target opcode instruction taken calls after)
      (time : (run.map Segment.tacts).sum =
        4 * chain.length + Segment.entryTacts target opcode taken)
      (total : after.total = before.total.after (run.map Segment.tacts).sum)
  | exhausted {chain : List Byte} {target : Page} (goes : ended run = false)
      (selects : page.Selects chain target) (length : chain.length = limit)
      (reads : streamReads calls = placed before.registers.pc chain) (first : StreamFirst calls)

namespace Page.Runs

variable {page : Page} {limit : Nat} {byte : Byte} {before start after : Cpu}
  {calls : List Exchange} {run : List Segment}

/-- A prefix byte comes before the run. -/
theorem cons (runs : (page.next byte).Runs limit start calls run after)
    (selector : page.role byte = .selector)
    (kept : start.registers =
      { before.registers with
        pc := before.registers.pc + 1
        r := before.registers.refresh.r })
    (total : start.total = before.total.after 4) :
    page.Runs (limit + 1) before (⟨.read before.registers.pc .opcode, byte⟩ :: calls)
      (.selector page byte :: run) after := by
  have busy : (Segment.selector page byte).busy = true := rfl
  have four := Segment.tacts_selector selector
  cases runs with
  | completed ends completes time sum =>
    refine .completed (ended_cons_of_busy busy run ▸ ends) (completes.cons selector kept) ?_ ?_
    · rw [List.map_cons, List.sum_cons, time, four, List.length_cons]
      omega
    · rw [sum, total, Tacts.after_after, List.map_cons, List.sum_cons, four]
  | @exhausted chain target goes selects length reads first =>
    have through : page.Selects (byte :: chain) target := ⟨selector, selects⟩
    refine .exhausted (ended_cons_of_busy busy run ▸ goes) through (congrArg (· + 1) length) ?_
      ⟨by simp, first⟩
    simp [reads, kept]

end Page.Runs

namespace Exec

variable (cpu : Cpu)

/-- The induction is on the number of segments: a prefix byte leaves a processor that fetches in the
next page, and all other registers as they were. -/
theorem segments_run (fuel : Nat) {lines : Lines} (running : lines.wait = false) {page : Page}
    (fetches : ((cpu.ready lines).turn lines).page? = some page) :
    (segments fuel lines).Always cpu fun calls run after =>
      page.Runs fuel cpu calls run after := by
  induction fuel generalizing cpu page with
  | zero =>
    have nowhere : page.Selects [] page := rfl
    exact .exhausted rfl nowhere rfl rfl trivial
  | succ fuel ih =>
    simp only [segments, always_bind, always_ite, always_pure]
    refine ((step_fetches cpu fetches).and (step_settles cpu lines)).mono ?_
    rintro calls segment after ⟨fetched, settles⟩
    have total : after.total = cpu.total.after segment.tacts := settles.total
    cases fetched with
    | @selector opcode _ role pending kept =>
      refine ⟨?_, fun ends => absurd rfl ends⟩
      intro _
      refine (ih after (Cpu.fetches_of_pending running pending)).mono ?_
      intro more run last runs
      rw [List.append_nil]
      exact runs.cons role kept (Segment.tacts_selector role ▸ total)
    | instruction completes =>
      refine ⟨fun busy => absurd busy Bool.false_ne_true, ?_⟩
      intro _
      rw [List.append_nil]
      exact .completed rfl completes (by simp [Segment.tacts]) (by simpa using total)

/-- A run up to the next boundary completes the instruction that the stream spells, and gives its
time if a count holds it, or the run never leaves its prefix bytes. -/
theorem nextInstruction_completes {lines : Lines} (begins : cpu.Begins lines) :
    (nextInstruction lines).Always cpu fun calls value after =>
      (∃ chain target opcode instruction taken,
        Page.main.Completes cpu chain target opcode instruction taken calls after ∧
          let tacts := 4 * chain.length + Segment.entryTacts target opcode taken
          value = counted tacts ∧ after.total = cpu.total.after tacts) ∨
      value = none ∧ ∃ chain target, Page.main.Selects chain target ∧ chain.length = stepLimit ∧
        streamReads calls = placed cpu.registers.pc chain ∧ StreamFirst calls := by
  rw [nextInstruction_eq, always_bind]
  refine (segments_run cpu stepLimit rfl begins.fetches).mono ?_
  intro calls run after runs
  rw [always_pure, List.append_nil]
  cases runs with
  | completed ends completes time total =>
    rw [if_pos ends, time]
    exact .inl ⟨_, _, _, _, _, completes, rfl, time ▸ total⟩
  | exhausted goes selects length reads first =>
    rw [if_neg (by simp [goes])]
    exact .inr ⟨rfl, _, _, selects, length, reads, first⟩

end Exec

end Z80
