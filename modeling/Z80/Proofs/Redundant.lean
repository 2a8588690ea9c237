import Z80.Proofs.BlockRun
import Z80.Proofs.Coherence
import Z80.Proofs.Journal
import Z80.Proofs.PrefixChain
import Z80.Proofs.Refresh
import Z80.Proofs.Waiting

/-!
# Redundant prefix bytes

An index prefix before another prefix byte, and an extended prefix before another, are forgotten.
The latches move on by one instruction at the first byte of the chain, whichever it is, and the
prefix byte that counts selects the same page from wherever it is fetched. What is left of the bytes
before it is what their fetches take: the program counter and the refresh counter have gone on, and
four tacts each have passed.

## Main definitions

* `Registers.skip`: the registers with some bytes of the instruction stream behind them
* `Redundant`: bytes that the byte after them makes redundant
* `Exec.Lags`: a run that does what another does, once it has read some bytes more

## Main results

* `Exec.segments_lag`: a run over bytes that are absorbed lags behind the run without them
* `Exec.redundant_prefixes`: so does the run of an instruction with redundant prefix bytes
-/

namespace Z80

open Exec

/-! ### Bytes that were passed over -/

/-- The registers with so many opcodes of the instruction stream behind them. -/
def Registers.skip (regs : Registers) (count : Nat) : Registers :=
  { regs with
    pc := regs.pc + BitVec.ofNat 16 count
    r := (regs.r &&& 0x80) ||| ((regs.r + BitVec.ofNat 8 count) &&& 0x7F) }

/-- What the refresh counter comes to is settled by the count. -/
theorem RefreshedBy.unique {count : Nat} {before after other : Byte}
    (refreshed : RefreshedBy count before after) (again : RefreshedBy count before other) :
    after = other := by
  rw [← BitVec.cons_msb_setWidth after, ← BitVec.cons_msb_setWidth other, refreshed.top,
    again.top, refreshed.low, again.low]

namespace Registers

variable (regs : Registers) (count : Nat)

theorem refreshedBy_skip : RefreshedBy count regs.r (regs.skip count).r where
  top := by
    have top : (0x80 : Byte).msb = true := rfl
    have low : (0x7F : Byte).msb = false := rfl
    simp only [skip, BitVec.msb_or, BitVec.msb_and, top, low, Bool.and_true, Bool.and_false,
      Bool.or_false]
  low := by
    have top : (0x80 : Byte).setWidth 7 = 0 := rfl
    have low : (0x7F : Byte).setWidth 7 = BitVec.allOnes 7 := rfl
    simp only [skip, BitVec.setWidth_or, BitVec.setWidth_and, top, low, BitVec.and_allOnes]
    simp [BitVec.setWidth_add]

@[simp] theorem skip_zero : regs.skip 0 = regs := by
  have same := (regs.refreshedBy_skip 0).unique (.refl regs.r)
  simp only [skip] at same ⊢
  rw [same, BitVec.add_zero]

/-- One byte more is passed over before the others. -/
theorem skip_succ :
    regs.skip (count + 1) = { regs.refresh with pc := regs.pc + 1 }.skip count := by
  have stepwise : RefreshedBy (1 + count) regs.r (regs.refresh.skip count).r :=
    (RefreshedBy.refresh regs).trans (regs.refresh.refreshedBy_skip count)
  rw [Nat.add_comm] at stepwise
  have same := (regs.refreshedBy_skip (count + 1)).unique stepwise
  simp only [skip] at same ⊢
  rw [same, Word.add_ofNat_succ]
  rfl

end Registers

/-- The processor with so many opcodes behind it, and the time that their fetches take. -/
def Cpu.pass (cpu : Cpu) (count : Nat) : Cpu :=
  { cpu with registers := cpu.registers.skip count, total := cpu.total.after (4 * count) }

@[simp] theorem Cpu.pass_zero (cpu : Cpu) : cpu.pass 0 = cpu := by
  simp [pass, Tacts.after]

/-! ### One prefix byte -/

/-- What a machine does that is to fetch in the page. -/
def Page.turn : Page → Turn
  | .main => .begin
  | page => .proceed page

theorem Page.turn_of_ne {page : Page} (other : page ≠ .main) : page.turn = .proceed page := by
  cases page with
  | main => exact absurd rfl other
  | _ => rfl

/-- The processor about to fetch in the page. -/
def Cpu.about (cpu : Cpu) (page : Page) : Cpu :=
  if page = .main then beginInstruction { cpu.ready {} with suppressed := false } else cpu.ready {}

theorem Cpu.registers_about (cpu : Cpu) (page : Page) :
    (cpu.about page).registers = cpu.registers := by
  unfold about
  split <;> rfl

/-- The processor once it has fetched a prefix byte in the page, with the step that this takes. -/
def Cpu.select (cpu : Cpu) (page : Page) (byte : Byte) : Cpu :=
  { (cpu.about page).fetched byte with pending := some (page.next byte) }.endStep 4

/-- A prefix byte before the one that counts leaves what its fetch takes, however many bytes come
between them. -/
theorem Cpu.select_pass_select (cpu : Cpu) {page : Page} {first last : Byte}
    (other : page.next first ≠ .main) (same : (page.next first).next last = page.next last)
    (count : Nat) :
    ((cpu.select page first).pass count).select (page.next first) last =
      (cpu.pass (count + 1)).select page last := by
  have time : 4 + 4 * count = 4 * (count + 1) := by omega
  rcases eq_or_ne page .main with rfl | main <;>
    simp [select, about, pass, ready, fetched, beginStep, sampleNmi, endStep, beginInstruction,
      ageFlags, updateRegisters, Registers.skip_succ, Tacts.after_after, *]

/-- The next step fetches the prefix byte in the page. -/
structure Cpu.Meets (cpu : Cpu) (page : Page) (byte : Byte) (board : Board) : Prop where
  turn : (cpu.ready {}).turn {} = page.turn
  selector : page.role byte = .selector
  stored : board.peek cpu.registers.pc = byte

namespace Exec

variable {cpu : Cpu} {page : Page} {byte : Byte} {board : Board}

/-- The machine opens an instruction or goes on with it. -/
theorem perform_turn (cpu : Cpu) (looping : Bool) (plain : page.displacementFirst = false) :
    perform looping page.turn (cpu.ready {}) =
      (fetchOpcode >>= decode page 0) (cpu.about page) := by
  rcases eq_or_ne page .main with rfl | other
  · rfl
  · rw [Page.turn_of_ne other, perform, fetch_of_plain plain other, Cpu.about, if_neg other]

/-- With the page selected, the machine fetches in it. -/
theorem turn_select (onward : page.next byte ≠ .main) :
    ((cpu.select page byte).ready {}).turn {} = (page.next byte).turn := by
  rw [Page.turn_of_ne onward]
  exact Cpu.turn_eq_proceed_iff.mpr ⟨rfl, rfl⟩

/-- A step that fetches a prefix byte leaves the board as it is, but for the journal. -/
theorem step_of_meets (meets : cpu.Meets page byte board) :
    runOn (step {}) Board.bus cpu board.unlogged =
        ⟨.selector page byte, cpu.select page byte, board.unlogged⟩ ∧
      callsOn (step {}) Board.bus cpu board.unlogged =
        [⟨.read cpu.registers.pc .opcode, byte⟩] := by
  obtain ⟨turn, role, stored⟩ := meets
  have kept : (cpu.about page).registers.pc = cpu.registers.pc :=
    congrArg Registers.pc (cpu.registers_about page)
  have fetched : runOn fetchOpcode Board.bus (cpu.about page) board.unlogged =
      ⟨byte, (cpu.about page).fetched byte, board.unlogged⟩ :=
    runOn_fetchOpcode _ board.unlogged ((congrArg board.peek kept).trans stored)
  have asked : callsOn fetchOpcode Board.bus (cpu.about page) board.unlogged =
      [⟨.read cpu.registers.pc .opcode, byte⟩] := by
    simp [fetchOpcode, kept, Board.read_unlogged, stored]
  have silent (start : Cpu) : callsOn (decode page 0 byte) Board.bus start board.unlogged = [] := by
    rw [decode, role]
    rfl
  have opened := perform_turn cpu cpu.looping (Page.displacementFirst_of_selector role)
  have run : runOn (perform cpu.looping page.turn) Board.bus (cpu.ready {}) board.unlogged =
      runOn (fetchOpcode >>= decode page 0) Board.bus (cpu.about page) board.unlogged := by
    simp only [runOn, opened]
  have calls : callsOn (step {}) Board.bus cpu board.unlogged =
      callsOn (fetchOpcode >>= decode page 0) Board.bus (cpu.about page) board.unlogged := by
    simp [callsOn, step_apply, turn, opened, map_eq_pure_bind]
  constructor
  · rw [runOn_step, turn, run, runOn_bind, fetched]
    simp only [runOn_decode_selector _ _ role, Segment.tacts_selector role]
    rfl
  · simp only [calls, callsOn_bind, fetched, asked, silent, List.append_nil]

/-- So does the first step of a run, and the run goes on. -/
theorem segments_of_meets (meets : cpu.Meets page byte board) (fuel : Nat) :
    (runOn (segments (fuel + 1) {}) Board.bus cpu board.unlogged =
      let rest := runOn (segments fuel {}) Board.bus (cpu.select page byte) board.unlogged
      { rest with value := .selector page byte :: rest.value }) ∧
    callsOn (segments (fuel + 1) {}) Board.bus cpu board.unlogged =
      ⟨.read cpu.registers.pc .opcode, byte⟩ ::
        callsOn (segments fuel {}) Board.bus (cpu.select page byte) board.unlogged := by
  obtain ⟨run, calls⟩ := step_of_meets meets
  have busy : (Segment.selector page byte).busy = true := rfl
  constructor
  · simp only [segments, runOn_bind, run, busy, if_true, runOn_pure]
  · simp only [segments, callsOn_bind, run, calls, busy, if_true, callsOn_pure, List.append_nil,
      List.singleton_append]

end Exec

/-! ### Chains of prefix bytes -/

/-- The fetches of bytes at their addresses. -/
def opcodeReads (spots : List (Word × Byte)) : List Exchange :=
  spots.map fun spot => ⟨.read spot.1 .opcode, spot.2⟩

/-- A run from the one processor does what a run from the other does, once it has read some bytes
more, in four tacts each. -/
structure Exec.Lags (board : Board) (spots : List (Word × Byte)) (fuel : Nat) (whole : Cpu)
    (limit : Nat) (bare : Cpu) : Prop where
  cpu : (runOn (segments fuel {}) Board.bus whole board).cpu =
    (runOn (segments limit {}) Board.bus bare board).cpu
  device : (runOn (segments fuel {}) Board.bus whole board).device =
    (runOn (segments limit {}) Board.bus bare board).device
  ends : ended (runOn (segments fuel {}) Board.bus whole board).value =
    ended (runOn (segments limit {}) Board.bus bare board).value
  time : ((runOn (segments fuel {}) Board.bus whole board).value.map Segment.tacts).sum =
    4 * spots.length +
      ((runOn (segments limit {}) Board.bus bare board).value.map Segment.tacts).sum
  calls : callsOn (segments fuel {}) Board.bus whole board =
    opcodeReads spots ++ callsOn (segments limit {}) Board.bus bare board

namespace Exec.Lags

variable {board : Board} {spots : List (Word × Byte)} {fuel limit : Nat} {cpu bare other : Cpu}
  {page target : Page} {byte : Byte}

theorem refl (board : Board) (fuel : Nat) (cpu : Cpu) : Lags board [] fuel cpu fuel cpu :=
  ⟨rfl, rfl, rfl, (Nat.zero_add _).symm, rfl⟩

/-- A prefix byte more. -/
theorem cons (lags : Lags board.unlogged spots fuel (cpu.select page byte) limit bare)
    (meets : cpu.Meets page byte board) :
    Lags board.unlogged ((cpu.registers.pc, byte) :: spots) (fuel + 1) cpu limit bare := by
  obtain ⟨run, calls⟩ := segments_of_meets meets fuel
  constructor
  · rw [run]; exact lags.cpu
  · rw [run]; exact lags.device
  · rw [run, ended_cons_of_busy rfl]; exact lags.ends
  · simp only [run, List.map_cons, List.sum_cons, Segment.tacts_selector meets.selector, lags.time,
      List.length_cons]
    omega
  · rw [calls, lags.calls]
    rfl

/-- It does not matter on which page the run without the bytes begins, if its first byte selects
the same. -/
theorem of_select (lags : Lags board.unlogged spots fuel cpu (limit + 1) bare)
    (meets : bare.Meets page byte board) (again : other.Meets target byte board)
    (pc : other.registers.pc = bare.registers.pc)
    (same : bare.select page byte = other.select target byte) :
    Lags board.unlogged spots fuel cpu (limit + 1) other := by
  obtain ⟨run, calls⟩ := segments_of_meets meets limit
  obtain ⟨runAgain, callsAgain⟩ := segments_of_meets again limit
  obtain ⟨cpu, device, ends, time, made⟩ := lags
  rw [same] at run calls
  rw [run] at cpu device ends time
  rw [calls] at made
  constructor
  · rw [runAgain]; exact cpu
  · rw [runAgain]; exact device
  · rw [runAgain, ended_cons_of_busy rfl]
    rwa [ended_cons_of_busy rfl] at ends
  · simpa [runAgain, Segment.tacts_selector meets.selector,
      Segment.tacts_selector again.selector] using time
  · rw [callsAgain, pc]; exact made

end Exec.Lags

/-- On each of the pages the byte selects the same page. -/
def Page.Unites (pages : List Page) (byte : Byte) : Prop :=
  ∀ page ∈ pages, page.role byte = .selector ∧ ∀ other ∈ pages, page.next byte = other.next byte

namespace Exec

variable {cpu : Cpu} {page : Page} {last : Byte} {board : Board} {pages : List Page}
  {bytes prefixes : List Byte}

/-- A run over bytes that are absorbed lags behind a run from the byte after them. The induction is
on the bytes, and each of them is fetched on the page that those before it have selected. -/
theorem segments_lag (absorbs : Page.Absorbs pages bytes) (unites : Page.Unites pages last)
    (here : page ∈ pages) (turn : (cpu.ready {}).turn {} = page.turn)
    (among : ∀ byte ∈ prefixes, byte ∈ bytes)
    (stored : ∀ spot ∈ placed cpu.registers.pc (prefixes ++ [last]),
      board.peek spot.1 = spot.2) (limit : Nat) :
    Lags board.unlogged (placed cpu.registers.pc prefixes) (prefixes.length + (limit + 1)) cpu
      (limit + 1) (cpu.pass prefixes.length) := by
  induction prefixes generalizing cpu page with
  | nil =>
    rw [List.length_nil, Nat.zero_add, Cpu.pass_zero]
    exact .refl board.unlogged (limit + 1) cpu
  | cons byte rest ih =>
    rw [List.cons_append, placed, List.forall_mem_cons] at stored
    rw [List.forall_mem_cons] at among
    obtain ⟨selector, there⟩ := absorbs page here byte among.1
    have onward := Page.next_ne_main selector
    have next : (cpu.select page byte).registers.pc = cpu.registers.pc + 1 :=
      congrArg (·.pc + 1) (cpu.registers_about page)
    have turned : ((cpu.select page byte).ready {}).turn {} = (page.next byte).turn :=
      turn_select onward
    have lags := ih there turned among.2 (by rw [next]; exact stored.2)
    -- The run without the other bytes begins with the byte that counts, on either page.
    have counts : board.peek (cpu.registers.pc + 1 + BitVec.ofNat 16 rest.length) = last := by
      apply stored.2 (_, last)
      rw [placed_append]
      exact List.mem_append_right _ (List.mem_singleton_self _)
    have near : ((cpu.select page byte).pass rest.length).Meets (page.next byte) last board :=
      ⟨turned, (unites _ there).1, by rw [← counts, ← next]; rfl⟩
    have far : (cpu.pass (rest.length + 1)).Meets page last board :=
      ⟨turn, (unites page here).1, by rw [← counts, ← Word.add_ofNat_succ]; rfl⟩
    have pc : (cpu.pass (rest.length + 1)).registers.pc =
        ((cpu.select page byte).pass rest.length).registers.pc := by
      change cpu.registers.pc + _ = (cpu.select page byte).registers.pc + _
      rw [next, Word.add_ofNat_succ]
    have same := cpu.select_pass_select onward ((unites _ there).2 page here) rest.length
    have whole := (lags.of_select near far pc same).cons ⟨turn, selector, stored.1⟩
    rw [next] at whole
    rw [placed, List.length_cons, Nat.add_right_comm]
    exact whole

/-- A run up to the next boundary is made of segments that come to one, if they are not too many for
a count of their tacts. -/
theorem nextInstruction_of_ended (lines : Lines) {fuel : Nat} (short : fuel ≤ 2 ^ 27)
    (ends : ended (runOn (segments fuel (unheld lines)) Board.bus cpu board).value = true) :
    let run := runOn (segments fuel (unheld lines)) Board.bus cpu board
    runOn (nextInstruction lines) Board.bus cpu board =
        { run with value := some (run.value.map Segment.tacts).sum } ∧
      callsOn (nextInstruction lines) Board.bus cpu board =
        callsOn (segments fuel (unheld lines)) Board.bus cpu board := by
  intro run
  have fits : (run.value.map Segment.tacts).sum < 2 ^ 32 := by
    have length : run.value.length ≤ fuel :=
      ((segments_length cpu fuel (unheld lines)).onBus Board.bus board).1
    have most := Segment.sum_tacts_le run.value
    omega
  -- What a run may take beyond its end makes no difference to it.
  obtain ⟨more, limit⟩ : ∃ more, stepLimit = fuel + more :=
    Nat.exists_eq_add_of_le (Nat.le_trans short (by decide))
  have same := segments_of_ended fuel more ends
  have sameCalls := callsOn_segments_of_ended fuel more ends
  rw [← limit] at same sameCalls
  constructor
  · simp only [nextInstruction_eq, runOn_bind, runOn_pure, same, ends, if_true]
    rw [counted_of_lt fits]
  · simp only [nextInstruction_eq, callsOn_bind, callsOn_pure, sameCalls, List.append_nil]

/-- If a run comes to a boundary, so does one that lags behind it, that much later. -/
theorem Lags.nextInstruction {spots : List (Word × Byte)} {fuel limit : Nat} {bare : Cpu}
    (lags : Lags board spots fuel cpu limit bare) (short : fuel ≤ 2 ^ 27)
    (least : limit ≤ 2 ^ 27)
    (ends : ended (runOn (segments limit {}) Board.bus bare board).value = true) :
    let run := runOn (nextInstruction {}) Board.bus bare board
    ∃ tacts, run.value = some tacts ∧
      runOn (nextInstruction {}) Board.bus cpu board =
        { run with value := some (4 * spots.length + tacts) } ∧
      callsOn (nextInstruction {}) Board.bus cpu board =
        opcodeReads spots ++ callsOn (nextInstruction {}) Board.bus bare board := by
  intro run
  obtain ⟨bareRun, bareCalls⟩ := nextInstruction_of_ended {} least ends
  obtain ⟨wholeRun, wholeCalls⟩ :=
    nextInstruction_of_ended {} short (lags.ends.trans ends)
  refine ⟨_, congrArg Result.value bareRun, ?_, ?_⟩
  · simp only [run, wholeRun, bareRun]
    congr 1
    · exact congrArg some lags.time
    · exact lags.cpu
    · exact lags.device
  · rw [wholeCalls, bareCalls]
    exact lags.calls

/-- A run that comes later does the same. -/
theorem segments_postpone (count fuel : Nat) (lines : Lines) :
    Carries (Cpu.postpone count) (segments fuel lines) := by
  induction fuel with
  | zero => exact carries_pure _ []
  | succ fuel ih =>
    intro cpu
    rw [segments, carriesAt_bind (step_postpone count lines)]
    refine (always_true cpu (step lines)).mono ?_
    intro calls segment after _
    rw [carriesAt_ite, carriesAt_bind ih]
    exact ⟨fun _ => (always_true after _).mono fun _ _ _ _ => carries_pure _ _ _,
      fun _ => carries_pure _ _ _⟩

theorem nextInstruction_postpone (count : Nat) (lines : Lines) :
    Carries (Cpu.postpone count) (Exec.nextInstruction lines) := by
  intro cpu
  rw [nextInstruction_eq, carriesAt_bind (segments_postpone count stepLimit (unheld lines))]
  exact (always_true cpu _).mono fun _ _ _ _ => carries_pure _ _ _

end Exec

/-- The byte after the prefix bytes makes them redundant: it is a prefix byte of any kind after
index prefixes, or the extended prefix after itself. -/
def Redundant (prefixes : List Byte) (last : Byte) : Prop :=
  (∀ byte ∈ prefixes, byte ∈ [0xDD, 0xFD]) ∧ last ∈ [0xDD, 0xFD, 0xED] ∨
    (∀ byte ∈ prefixes, byte ∈ [0xED]) ∧ last = 0xED

/-- Redundant prefix bytes are absorbed, and the byte after them selects the same page from wherever
they lead. -/
theorem Redundant.unites {prefixes : List Byte} {last : Byte}
    (redundant : Redundant prefixes last) :
    ∃ pages bytes, .main ∈ pages ∧ Page.Absorbs pages bytes ∧ Page.Unites pages last ∧
      ∀ byte ∈ prefixes, byte ∈ bytes := by
  have index : ∀ byte ∈ [0xDD, 0xFD, 0xED], Page.Unites [.main, .ix, .iy] byte := by
    unfold Page.Unites
    decide
  have extended : Page.Unites [.main, .extended] 0xED := by
    unfold Page.Unites
    decide
  rcases redundant with ⟨among, counts⟩ | ⟨among, rfl⟩
  · exact ⟨_, _, by simp, Page.absorbs_index, index last counts, among⟩
  · exact ⟨_, _, by simp, Page.absorbs_extended, extended, among⟩

namespace Exec

/-- Redundant prefix bytes are a delay. Where they stand at the program counter, with a byte behind
them that makes them redundant, a run that begins there does what the run does that begins behind
them with the refresh counter moved on by as many bytes. It reads them first, and then makes the
same calls, and it leaves the same board, apart from what its journal has noted, and the same
processor, apart from the four tacts for each byte. An instruction ends the run, unless memory is
made up of prefix bytes; then neither run comes back. -/
theorem redundant_prefixes {cpu : Cpu} (begins : cpu.Begins {}) (board : Board)
    {prefixes : List Byte} {last : Byte} (short : prefixes.length < 65536)
    (redundant : Redundant prefixes last)
    (stored : ∀ spot ∈ placed cpu.registers.pc (prefixes ++ [last]), board.peek spot.1 = spot.2) :
    let bare : Cpu := { cpu with registers := cpu.registers.skip prefixes.length }
    let run (start : Cpu) := runOn (nextInstruction {}) Board.bus start board
    let calls (start : Cpu) := callsOn (nextInstruction {}) Board.bus start board
    let index := MadeUpOf [0xDD, 0xFD] board.peek
    let extended := MadeUpOf [0xED] board.peek
    (¬ index → ¬ extended → ∃ tacts,
      (run bare).value = some tacts ∧ (run cpu).value = some (4 * prefixes.length + tacts) ∧
        (run cpu).cpu = { (run bare).cpu with
          total := (run bare).cpu.total.after (4 * prefixes.length) } ∧
        (run cpu).device.unlogged = (run bare).device.unlogged ∧
        calls cpu = opcodeReads (placed cpu.registers.pc prefixes) ++ calls bare) ∧
    (index ∨ extended → (run bare).value = none ∧ (run cpu).value = none) := by
  intro bare run calls index extended
  have bareBegins : bare.Begins {} :=
    ⟨begins.boundary, begins.reset, begins.interrupts, begins.awake⟩
  constructor
  · intro notIndex notExtended
    -- Without a journal, the bytes leave the board as it is.
    have ends : ended (runOn (segments 65538 {}) Board.bus (cpu.pass prefixes.length)
        board.unlogged).value = true :=
      segments_ends Board.bus_backed rfl notIndex notExtended
    obtain ⟨pages, bytes, here, absorbs, unites, among⟩ := redundant.unites
    have lags := segments_lag absorbs unites here begins.turn among stored 65537
    obtain ⟨tacts, value, whole, wholeCalls⟩ :=
      lags.nextInstruction (by omega) (by omega) ends
    -- The processor behind the bytes is the bare one, later by the time of their fetches.
    obtain ⟨delayed, delayedCalls⟩ := runOn_of_amended Board.bus board.unlogged
      (nextInstruction_postpone (4 * prefixes.length) {} bare)
    obtain ⟨bareRun, bareCalls⟩ := runOn_unlogged (nextInstruction {}) bare board
    obtain ⟨wholeRun, sameCalls⟩ := runOn_unlogged (nextInstruction {}) cpu board
    have pass : cpu.pass prefixes.length =
        bare.amend (Cpu.postpone (4 * prefixes.length)) := rfl
    rw [pass, delayed, bareRun] at value whole
    rw [pass, delayedCalls, bareCalls, sameCalls] at wholeCalls
    rw [wholeRun, length_placed] at whole
    have same := Result.mk.inj whole
    exact ⟨tacts, value, same.1, same.2.1, same.2.2, wholeCalls⟩
  · intro made
    exact ⟨((nextInstruction_ends bare board {}).2 made bareBegins).1,
      ((nextInstruction_ends cpu board {}).2 made begins).1⟩

/-- Index prefixes before LD IY,0x1234: they cost eight tacts, and only the last of them counts. -/
theorem redundant_before_load :
    let board := Board.fresh.load 0x0000 [0xFD, 0xDD, 0xFD, 0x21, 0x34, 0x12]
    let run := runOn (nextInstruction {}) Board.bus Cpu.fresh board
    run.value = some 22 ∧ run.cpu.registers.iy = 0x1234 ∧ run.cpu.registers.pc = 0x0006 ∧
      run.cpu.total = 22 := by
  intro board run
  have begins : Cpu.fresh.Begins {} := ⟨rfl, rfl, .inr ⟨rfl, rfl, .inl rfl⟩, rfl⟩
  have stored : ∀ spot ∈ placed 0x0000 ([0xFD, 0xDD] ++ [0xFD]), board.peek spot.1 = spot.2 := by
    simp only [placed, List.cons_append, List.nil_append, List.forall_mem_cons]
    exact ⟨by decide +kernel, by decide +kernel, by decide +kernel, nofun⟩
  have elsewhere : board.peek 0x0003 = 0x21 := by decide +kernel
  have index : ¬ MadeUpOf [0xDD, 0xFD] board.peek := by
    intro made
    exact absurd (elsewhere ▸ made 0x0003) (by decide)
  have extended : ¬ MadeUpOf [0xED] board.peek := by
    intro made
    exact absurd (elsewhere ▸ made 0x0003) (by decide)
  have redundant : Redundant [0xFD, 0xDD] 0xFD := .inl ⟨by decide, by decide⟩
  obtain ⟨tacts, value, whole, same, -, -⟩ :=
    (redundant_prefixes begins board (by decide) redundant stored).1 index extended
  let bare : Cpu := { Cpu.fresh with registers := Cpu.fresh.registers.skip 2 }
  let short := runOn (nextInstruction {}) Board.bus bare board
  have loads : short.value = some 14 ∧ short.cpu.registers.iy = 0x1234 ∧
      short.cpu.registers.pc = 0x0006 ∧ short.cpu.total = 14 := by decide +kernel
  obtain ⟨time, iy, pc, total⟩ := loads
  cases value.symm.trans time
  have same : run.cpu = { short.cpu with total := short.cpu.total.after 8 } := same
  rw [same]
  exact ⟨whole, iy, pc, congrArg (Tacts.after · 8) total⟩

end Exec

end Z80
