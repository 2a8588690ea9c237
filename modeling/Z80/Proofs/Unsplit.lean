import Z80.Bus.Board
import Z80.Proofs.Decoding
import Z80.Proofs.Unread

/-!
# Instructions are never split

From its first byte to its last segment an instruction goes on by fetches alone. The lines are not
looked at on the way, but for WAIT, which holds it up, and NMI, which is noted. So nothing is
acknowledged and nothing is reset in between, and the bytes come from one address after the other.

## Main definitions

* `Exec.underway`: steps under changing lines, until the instruction ends
* `Cpu.Underway`: what a step inside an instruction does

## Main results

* `Exec.step_of_pending`: with a prefix pending, lines leave no trace but the note of NMI
* `Exec.step_underway`: a step inside an instruction fetches or stalls
* `Exec.instruction_unsplit`: no instruction is split
-/

namespace Z80

open Exec

/-! ### The lines -/

/-- A note of NMI, if it was seen. -/
def Cpu.noteNmi (seen : Bool) : Cpu.Amendment where
  nmiPending pending := pending || seen

theorem Cpu.noteNmi_lasting (seen : Bool) : (noteNmi seen).Lasting :=
  ⟨rfl, rfl, rfl, fun _ => rfl⟩

namespace Exec

variable {α σ : Type} {cpu : Cpu} {page : Page} {lines : Lines}

/-- With a prefix pending, a step that is not held does what it does without any line, and notes NMI
besides. -/
theorem step_of_pending (pending : cpu.pending = some page) (running : lines.wait = false) :
    step lines cpu =
      (fun result => (result.1, result.2.amend (Cpu.noteNmi lines.nmi))) <$> step {} cpu := by
  have turn : (cpu.ready lines).turn lines = .proceed page :=
    Cpu.turn_eq_proceed_iff.mpr ⟨running, pending⟩
  have quiet : (cpu.ready {}).turn {} = .proceed page :=
    Cpu.turn_eq_proceed_iff.mpr ⟨rfl, pending⟩
  have sampled : cpu.ready lines = (cpu.ready {}).amend (Cpu.noteNmi lines.nmi) := by
    simp [Cpu.ready, Cpu.beginStep, Cpu.sampleNmi, Cpu.amend, Cpu.noteNmi, running]
  have carries := fetch_carries (Cpu.noteNmi_lasting lines.nmi) page (cpu.ready {})
  unfold CarriesAt at carries
  rw [step_apply, step_apply, turn, quiet, sampled, perform, carries, Functor.map_map,
    Functor.map_map]
  rfl

/-- What comes to an amendment at the end makes the same calls. -/
theorem runOn_of_amended {start : Cpu} {program other : Exec α} {amendment : Cpu.Amendment}
    (bus : Bus σ) (device : σ)
    (same : program start =
      (fun result => (result.1, result.2.amend amendment)) <$> other cpu) :
    let run := runOn other bus cpu device
    runOn program bus start device = ⟨run.value, run.cpu.amend amendment, run.device⟩ ∧
      callsOn program bus start device = callsOn other bus cpu device := by
  simp [runOn, callsOn, same, map_eq_pure_bind]

end Exec

/-! ### Steps inside an instruction -/

theorem placed_append (origin : Word) (bytes more : List Byte) :
    placed origin (bytes ++ more) =
      placed origin bytes ++ placed (origin + BitVec.ofNat 16 bytes.length) more := by
  induction bytes generalizing origin with
  | nil => simp
  | cons byte bytes ih =>
    rw [List.cons_append, placed, ih, List.length_cons, Word.add_ofNat_succ, placed,
      List.cons_append]

/-- What a step inside an instruction does: it acknowledges nothing, it is no reset, it takes bytes
from the program counter on, and if the instruction goes on, then behind these bytes. -/
structure Cpu.Underway (cpu : Cpu) (calls : List Exchange) (segment : Segment) (after : Cpu) :
    Prop where
  quiet : acknowledgements calls = []
  accepts : segment.acknowledgement? = none
  unreset : segment ≠ .reset
  placed : streamReads calls = placed cpu.registers.pc (streamBytes calls)
  onward : segment.busy = true →
    after.pending.isSome = true ∧
      after.registers.pc =
        cpu.registers.pc + BitVec.ofNat 16 (streamBytes calls).length

/-- A step that fetches takes a byte at least. -/
theorem Page.Fetches.streamBytes_ne_nil {page : Page} {before after : Cpu}
    {calls : List Exchange} {segment : Segment}
    (fetched : page.Fetches before calls segment after) : streamBytes calls ≠ [] := by
  cases fetched with
  | selector => simp [streamBytes_cons]
  | instruction completes =>
    intro empty
    have length := completes.spells.length
    rw [empty, List.length_nil] at length
    omega

theorem Page.Fetches.underway {page : Page} {before after : Cpu} {calls : List Exchange}
    {segment : Segment} (fetched : page.Fetches before calls segment after)
    (quiet : acknowledgements calls = []) : before.Underway calls segment after := by
  cases fetched with
  | selector role pending kept =>
    exact ⟨quiet, rfl, nofun, rfl, fun _ => ⟨by rw [pending]; rfl, by rw [kept]; rfl⟩⟩
  | instruction completes => exact ⟨quiet, rfl, nofun, completes.placed, nofun⟩

namespace Exec

variable (cpu : Cpu)

/-- A step that is to fetch in a page goes on inside its instruction. -/
theorem step_underway_of_page {lines : Lines} {page : Page}
    (fetches : ((cpu.ready lines).turn lines).page? = some page) :
    (step lines).Always cpu fun calls segment after =>
      cpu.Underway calls segment after ∧ streamBytes calls ≠ [] := by
  have turns : ((cpu.ready lines).turn lines).acknowledgement? cpu.registers.im = none := by
    cases turn : (cpu.ready lines).turn lines with
    | nonMaskable | maskable => cases turn ▸ fetches
    | _ => rfl
  refine ((step_fetches cpu fetches).and (step_settles cpu lines)).mono ?_
  rintro calls segment after ⟨fetched, settles⟩
  have quiet : acknowledgements calls = [] := by
    rw [settles.quiet, settles.accepted, turns]
    rfl
  exact ⟨fetched.underway quiet, fetched.streamBytes_ne_nil⟩

/-- A step that is held makes no call and leaves the instruction where it is. -/
theorem step_underway_of_held {lines : Lines} (held : lines.wait = true)
    (pending : cpu.pending.isSome = true) :
    (step lines).Always cpu fun calls segment after => cpu.Underway calls segment after := by
  have turn : (cpu.ready lines).turn lines = .stall := Cpu.turn_eq_stall_iff.mpr held
  rw [always_step, turn]
  exact ⟨rfl, rfl, nofun, rfl, fun _ => ⟨pending, (BitVec.add_zero _).symm⟩⟩

/-- Where an instruction begins, and as long as a prefix is pending, a step goes on inside the
instruction. -/
theorem step_underway {lines : Lines}
    (inside : cpu.pending.isSome = true ∨ (cpu.ready lines).turn lines = .begin) :
    (step lines).Always cpu fun calls segment after => cpu.Underway calls segment after := by
  rcases inside with pending | turn
  · cases held : lines.wait with
    | true => exact step_underway_of_held cpu held pending
    | false =>
      obtain ⟨page, selected⟩ := Option.isSome_iff_exists.mp pending
      have fetches := Cpu.fetches_of_pending held selected
      exact (step_underway_of_page cpu fetches).mono fun _ _ _ both => both.1
  · have fetches := congrArg Turn.page? turn
    exact (step_underway_of_page cpu fetches).mono fun _ _ _ both => both.1

/-! ### Runs inside an instruction -/

/-- Steps under the given lines, until the instruction ends or the lines run out. -/
def underway : List Lines → Exec (List Segment)
  | [] => return []
  | lines :: later => do
    let segment ← step lines
    if segment.busy then
      let more ← underway later
      return segment :: more
    else return [segment]

/-- A run acknowledges nothing, resets nothing, and takes its bytes from one address after the
other. -/
structure Undivided (cpu : Cpu) (calls : List Exchange) (run : List Segment) : Prop where
  quiet : acknowledgements calls = []
  segments : ∀ segment ∈ run, segment.acknowledgement? = none ∧ segment ≠ .reset
  placed : streamReads calls = placed cpu.registers.pc (streamBytes calls)

/-- A step before a run. -/
theorem Undivided.cons {cpu after : Cpu} {calls more : List Exchange} {segment : Segment}
    {run : List Segment} (first : cpu.Underway calls segment after)
    (pc : after.registers.pc = cpu.registers.pc + BitVec.ofNat 16 (streamBytes calls).length)
    (rest : Undivided after more run) : Undivided cpu (calls ++ more) (segment :: run) where
  quiet := by rw [acknowledgements_append, first.quiet, rest.quiet]; rfl
  segments := List.forall_mem_cons.mpr ⟨⟨first.accepts, first.unreset⟩, rest.segments⟩
  placed := by
    have bytes : streamBytes (calls ++ more) = streamBytes calls ++ streamBytes more := by
      simp [streamBytes]
    rw [streamReads_append, first.placed, rest.placed, pc, bytes, placed_append]

/-- The run of an instruction is undivided from where it begins, or from any prefix on. -/
theorem underway_undivided (all : List Lines)
    (inside : ∀ first ∈ all.head?,
      cpu.pending.isSome = true ∨ (cpu.ready first).turn first = .begin) :
    (underway all).Always cpu fun calls run _ => Undivided cpu calls run := by
  induction all generalizing cpu with
  | nil => exact ⟨rfl, nofun, rfl⟩
  | cons lines later ih =>
    rw [underway]
    simp only [always_bind, always_ite, always_pure, List.append_nil]
    refine (step_underway cpu (inside lines rfl)).mono ?_
    intro calls segment after within
    constructor
    · intro busy
      obtain ⟨pending, pc⟩ := within.onward busy
      refine (ih after fun _ _ => .inl pending).mono ?_
      intro more run _ rest
      exact rest.cons within pc
    · intro _
      exact ⟨within.quiet, by simpa using ⟨within.accepts, within.unreset⟩, within.placed⟩

/-- With a prefix pending, a step that is not held acknowledges nothing, resets nothing and takes
the next bytes from the program counter on, whatever the lines. Other lines make it do the same, and
leave another processor only if they differ in NMI, which is noted. From where an instruction begins
up to its end, or from any prefix on, no step acknowledges or resets anything under any lines, and
the bytes come from one address after the other. -/
theorem instruction_unsplit {σ : Type} (bus : Bus σ) (cpu : Cpu) (device : σ) :
    (∀ lines other : Lines, cpu.pending.isSome = true → lines.wait = false →
      other.wait = false →
      let calls := callsOn (step lines) bus cpu device
      let stepped := runOn (step lines) bus cpu device
      let changed := runOn (step other) bus cpu device
      acknowledgements calls = [] ∧ stepped.value ≠ .reset ∧ streamBytes calls ≠ [] ∧
        streamReads calls = placed cpu.registers.pc (streamBytes calls) ∧
        callsOn (step other) bus cpu device = calls ∧
        changed = { stepped with
          cpu := { stepped.cpu with nmiPending := changed.cpu.nmiPending } } ∧
        (lines.nmi = other.nmi → changed = stepped)) ∧
    ∀ lines : List Lines,
      (∀ first ∈ lines.head?,
        cpu.pending.isSome = true ∨ (cpu.ready first).turn first = .begin) →
      let calls := callsOn (underway lines) bus cpu device
      let run := runOn (underway lines) bus cpu device
      acknowledgements calls = [] ∧
        (∀ segment ∈ run.value, segment.acknowledgement? = none ∧ segment ≠ .reset) ∧
        streamReads calls = placed cpu.registers.pc (streamBytes calls) := by
  constructor
  · intro lines other pending running free calls stepped changed
    obtain ⟨page, selected⟩ := Option.isSome_iff_exists.mp pending
    obtain ⟨within, reads⟩ :=
      (step_underway_of_page cpu (Cpu.fetches_of_pending running selected)).onBus bus device
    -- Both runs are the one without any line, with NMI noted or not.
    obtain ⟨run, silent⟩ := runOn_of_amended bus device (step_of_pending selected running)
    obtain ⟨otherRun, otherSilent⟩ := runOn_of_amended bus device (step_of_pending selected free)
    refine ⟨within.quiet, within.unreset, reads, within.placed, otherSilent.trans silent.symm,
      ?_, ?_⟩
    · simp only [stepped, changed, run, otherRun]
      rfl
    · intro same
      simp only [stepped, changed, run, otherRun, same]
  · intro lines inside calls run
    have undivided := (underway_undivided cpu lines inside).onBus bus device
    exact ⟨undivided.quiet, undivided.segments, undivided.placed⟩

/-- An interrupting device puts an index prefix on the data lines. All lines in turn are then
asserted while RLC (IX+5) is taken from memory, and NMI is only noted. -/
theorem unsplit_after_injection :
    let cpu := Cpu.fresh.updateRegisters fun regs => { regs with iff1 := true }
    let board := (Board.fresh.load 0x0000 [0xCB, 0x05, 0x06]).setDataLines 0xDD
    let begun := runOn (step { int := true }) Board.bus cpu board
    let lines : List Lines :=
      [{ nmi := true }, { int := true, wait := true }, { int := true, reset := true }]
    let calls := callsOn (underway lines) Board.bus begun.cpu begun.device
    let stepped := runOn (step {}) Board.bus begun.cpu begun.device
    let disturbed := runOn (step { int := true, nmi := true, reset := true }) Board.bus begun.cpu
      begun.device
    begun.value = .injectedSelector 0xDD ∧ acknowledgements calls = [] ∧
      streamReads calls = placed 0x0000 [0xCB, 0x05, 0x06] ∧ disturbed.cpu.nmiPending = true ∧
      disturbed.cpu.registers = stepped.cpu.registers := by
  intro cpu board begun lines calls stepped disturbed
  obtain ⟨single, whole⟩ := instruction_unsplit Board.bus begun.cpu begun.device
  have pending : begun.cpu.pending.isSome = true := by decide +kernel
  obtain ⟨quiet, -, reads⟩ := whole lines fun _ _ => .inl pending
  obtain ⟨-, -, -, -, -, noted, -⟩ :=
    single {} { int := true, nmi := true, reset := true } pending rfl rfl
  have bytes : streamBytes calls = [0xCB, 0x05, 0x06] := by decide +kernel
  have origin : begun.cpu.registers.pc = 0x0000 := by decide +kernel
  have fetched : streamReads calls = placed begun.cpu.registers.pc (streamBytes calls) := reads
  rw [bytes, origin] at fetched
  have same : disturbed.cpu.registers = stepped.cpu.registers :=
    congrArg (fun run => run.cpu.registers) noted
  exact ⟨by decide +kernel, quiet, fetched, by decide +kernel, same⟩

end Exec

end Z80
