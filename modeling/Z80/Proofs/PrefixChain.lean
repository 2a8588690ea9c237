import Z80.Proofs.Stored

/-!
# Chains of prefix bytes and the end of an instruction

A run up to the next boundary goes on as long as it fetches prefix bytes, and memory is a circle. A
chain that comes back to where it started has met every byte of memory. If its first byte selects an
index register, so does its last one, and then all bytes between them do; if its first byte selects
the extended page, nothing but that prefix comes after it. So an instruction ends within one time
around memory and two more segments, unless memory holds index prefixes only or the extended prefix
only, and there it never ends.

## Main definitions

* `MadeUpOf`: a memory that holds the given bytes only
* `Page.Absorbs`: pages that are never left by way of the given bytes

## Main results

* `Page.Selects.around`: a chain that ends with the byte it began with is of one kind
* `Exec.segments_ends`: a run in any other memory comes to a boundary
* `Exec.segments_endless`: a run that begins an instruction in such a memory does not
* `Exec.nextInstruction_ends`: both for a run up to the next boundary on a board
-/

namespace Z80

open Exec

/-! ### Around memory -/

/-- The memory holds the given bytes only. -/
def MadeUpOf (bytes : List Byte) (memory : Word → Byte) : Prop := ∀ address, memory address ∈ bytes

section Memory

variable (memory : Word → Byte) (origin : Word)

theorem bytesFrom_eq_map (count : Nat) :
    bytesFrom memory origin count =
      (List.range count).map fun distance => memory (origin + BitVec.ofNat 16 distance) := by
  induction count generalizing origin with
  | zero => rfl
  | succ count ih =>
    rw [bytesFrom, ih, List.range_succ_eq_map, List.map_cons, List.map_map]
    simp only [Function.comp_def, Nat.succ_eq_add_one, Word.add_ofNat_succ]
    simp

@[simp] theorem length_bytesFrom (count : Nat) :
    (bytesFrom memory origin count).length = count := by
  simp [bytesFrom_eq_map]

/-- Once around memory there is every byte. -/
theorem mem_bytesFrom (address : Word) : memory address ∈ bytesFrom memory origin 65536 := by
  rw [bytesFrom_eq_map, List.mem_map]
  refine ⟨(address - origin).toNat, List.mem_range.mpr (address - origin).isLt, ?_⟩
  rw [Word.add_ofNat_distance]

/-- One address further the first byte comes again. -/
theorem bytesFrom_around :
    bytesFrom memory origin 65537 = bytesFrom memory origin 65536 ++ [memory origin] := by
  rw [bytesFrom_eq_map, List.range_succ, List.map_append, ← bytesFrom_eq_map]
  simp

end Memory

/-! ### Chains -/

namespace Page

variable {page target : Page} {byte last opcode : Byte} {chain : List Byte}

/-- A prefix byte selects an index register, or the extended page, or a page on which no byte
selects another. -/
theorem next_of_selector (selector : page.role byte = .selector) :
    byte ∈ [0xDD, 0xFD] ∨ byte = 0xED ∧ page.next byte = .extended ∨
      ∀ opcode, (page.next byte).role opcode ≠ .selector := by
  have bits (page : Page) : ∀ opcode, (page.next 0xCB).role opcode ≠ .selector := by
    cases page <;> exact fun _ => nofun
  have kinds : byte ∈ [0xDD, 0xFD] ∨ byte = 0xED ∧ page.next byte = .extended ∨ byte = 0xCB := by
    revert selector
    cases page <;> revert byte <;> decide +kernel
  rcases kinds with index | extended | rfl
  · exact .inl index
  · exact .inr (.inl extended)
  · exact .inr (.inr (bits page))

/-- Where no byte selects a page, no chain goes on. -/
theorem Selects.eq_nil (selects : page.Selects chain target)
    (dead : ∀ opcode, page.role opcode ≠ .selector) : chain = [] := by
  cases chain with
  | nil => rfl
  | cons byte chain => exact absurd selects.1 (dead byte)

/-- The extended page selects nothing but itself, by its own prefix. -/
theorem extended_of_selector (selector : extended.role byte = .selector) :
    byte = 0xED ∧ extended.next byte = .extended := by
  revert byte
  decide +kernel

theorem Selects.of_extended (selects : extended.Selects chain target) :
    ∀ byte ∈ chain, byte = 0xED := by
  induction chain with
  | nil => simp
  | cons first chain ih =>
    obtain ⟨selector, selects⟩ := selects
    obtain ⟨same, kept⟩ := extended_of_selector selector
    rw [kept] at selects
    exact List.forall_mem_cons.mpr ⟨same, ih selects⟩

/-- Before an index prefix there can only be index prefixes. -/
theorem Selects.of_last_index (selects : page.Selects (chain ++ [last]) target)
    (index : last ∈ [0xDD, 0xFD]) : ∀ byte ∈ chain, byte ∈ [0xDD, 0xFD] := by
  induction chain generalizing page with
  | nil => simp
  | cons first chain ih =>
    obtain ⟨selector, selects⟩ := selects
    rcases next_of_selector selector with here | ⟨-, kept⟩ | dead
    · exact List.forall_mem_cons.mpr ⟨here, ih selects⟩
    · -- The last byte would have to be the extended prefix.
      rw [kept] at selects
      have same := selects.of_extended last (by simp)
      rw [same] at index
      exact absurd index (by decide)
    · exact absurd (selects.eq_nil dead) (by simp)

/-- A chain that ends with the byte it began with is made up of index prefixes or of the extended
prefix. -/
theorem Selects.around (selects : page.Selects (byte :: chain ++ [byte]) target) :
    (∀ each ∈ byte :: chain, each ∈ [0xDD, 0xFD]) ∨ ∀ each ∈ byte :: chain, each ∈ [0xED] := by
  rcases next_of_selector selects.1 with index | ⟨same, kept⟩ | dead
  · exact .inl (selects.of_last_index index)
  · have rest := selects.2
    rw [kept] at rest
    refine .inr (List.forall_mem_cons.mpr ⟨by simp [same], fun each among => ?_⟩)
    exact List.mem_singleton.mpr (Selects.of_extended rest each (List.mem_append_left _ among))
  · -- The byte that ends the chain selects something.
    have rest := Selects.eq_nil selects.2 dead
    exact absurd rest (by simp)

/-- On each of the pages each of the bytes selects one of the pages. -/
def Absorbs (pages : List Page) (bytes : List Byte) : Prop :=
  ∀ page ∈ pages, ∀ byte ∈ bytes, page.role byte = .selector ∧ page.next byte ∈ pages

theorem absorbs_index : Absorbs [.main, .ix, .iy] [0xDD, 0xFD] := by
  unfold Absorbs
  decide

theorem absorbs_extended : Absorbs [.main, .extended] [0xED] := by
  unfold Absorbs
  decide

variable {pages : List Page} {bytes : List Byte}

theorem Absorbs.target_mem (absorbs : Absorbs pages bytes) (selects : page.Selects chain target)
    (here : page ∈ pages) (among : ∀ byte ∈ chain, byte ∈ bytes) : target ∈ pages := by
  induction chain generalizing page with
  | nil => exact selects ▸ here
  | cons byte chain ih =>
    obtain ⟨first, rest⟩ := List.forall_mem_cons.mp among
    exact ih selects.2 (absorbs page here byte first).2 rest

/-- Bytes that are absorbed spell no instruction. -/
theorem Absorbs.not_spells (absorbs : Absorbs pages bytes) (here : page ∈ pages)
    {stream : List Byte} (among : ∀ byte ∈ stream, byte ∈ bytes) {instruction : Instruction} :
    ¬ page.Spells stream chain target opcode instruction := by
  intro spells
  obtain ⟨operands, -, rfl⟩ := spells.arranged
  have there : target ∈ pages :=
    absorbs.target_mem spells.selects here fun byte member => among byte (by simp [member])
  have found : opcode ∈ target.arrange opcode operands := by
    unfold arrange
    split <;> simp
  have selector := (absorbs target there opcode (among opcode (by simp [found]))).1
  cases selector.symm.trans spells.role

end Page

/-! ### Runs -/

theorem Segment.sum_tacts_le (run : List Segment) :
    (run.map Segment.tacts).sum ≤ 25 * run.length := by
  induction run with
  | nil => exact Nat.le_refl 0
  | cons segment run ih =>
    have most := segment.tacts_le
    simp only [List.map_cons, List.sum_cons, List.length_cons]
    omega

namespace Exec

variable {σ : Type} {bus : Bus σ} {memory : σ → Word → Byte} {cpu : Cpu} {device : σ}
  {lines : Lines} {page : Page}

/-- A run that does not come to a boundary has as many segments as it may have, all of them busy. -/
theorem segments_length (cpu : Cpu) (fuel : Nat) (lines : Lines) :
    (segments fuel lines).Always cpu fun _ run _ =>
      run.length ≤ fuel ∧
        (ended run = false → run.length = fuel ∧ ∀ segment ∈ run, segment.busy = true) := by
  induction fuel generalizing cpu with
  | zero => simp [segments]
  | succ fuel ih =>
    simp only [segments, always_bind, always_ite, always_pure]
    refine (always_true cpu (step lines)).mono ?_
    intro calls segment after _
    refine ⟨fun busy => (ih after).mono ?_, fun ends => by simp [ended, ends]⟩
    rintro more run last ⟨most, all⟩
    rw [ended_cons_of_busy busy]
    refine ⟨by simpa using most, fun goes => ?_⟩
    obtain ⟨length, each⟩ := all goes
    exact ⟨by simp [length], List.forall_mem_cons.mpr ⟨busy, each⟩⟩

/-- More segments than a run needs to come to a boundary make no difference. -/
theorem segments_of_ended (fuel more : Nat)
    (ends : ended (runOn (segments fuel lines) bus cpu device).value = true) :
    runOn (segments (fuel + more) lines) bus cpu device =
      runOn (segments fuel lines) bus cpu device := by
  -- The induction is on the segments that suffice: none do not, and a busy one leaves fewer.
  induction fuel generalizing cpu device with
  | zero => cases ends
  | succ fuel ih =>
    rw [Nat.add_right_comm]
    simp only [segments, runOn_bind] at ends ⊢
    by_cases busy : (runOn (step lines) bus cpu device).value.busy = true
    · simp only [if_pos busy, runOn_bind, runOn_pure, ended_cons_of_busy busy] at ends ⊢
      rw [ih ends]
    · simp only [if_neg busy]

/-- Nor do they make a difference to the calls. -/
theorem callsOn_segments_of_ended (fuel more : Nat)
    (ends : ended (runOn (segments fuel lines) bus cpu device).value = true) :
    callsOn (segments (fuel + more) lines) bus cpu device =
      callsOn (segments fuel lines) bus cpu device := by
  induction fuel generalizing cpu device with
  | zero => cases ends
  | succ fuel ih =>
    rw [Nat.add_right_comm]
    simp only [segments, runOn_bind, callsOn_bind] at ends ⊢
    by_cases busy : (runOn (step lines) bus cpu device).value.busy = true
    · simp only [if_pos busy, runOn_bind, runOn_pure, ended_cons_of_busy busy] at ends
      simp only [if_pos busy, callsOn_bind, callsOn_pure, ih ends]
    · simp only [if_neg busy]

/-- What is fetched from a memory that is made up of some bytes is made up of them. -/
theorem mem_streamBytes (backed : bus.Backed memory) {program : Exec α}
    {bytes : List Byte} (made : MadeUpOf bytes (memory device))
    (first : StreamFirst (callsOn program bus cpu device)) :
    ∀ byte ∈ streamBytes (callsOn program bus cpu device), byte ∈ bytes := by
  intro byte among
  obtain ⟨spot, read, rfl⟩ := List.mem_map.mp among
  rw [← Program.streamReads_of_backed backed (program cpu) device first spot read]
  exact made spot.1

/-- A run that fetches on a page comes to a boundary within one time around memory. -/
theorem segments_ends_of_fetches (backed : bus.Backed memory) (running : lines.wait = false)
    (fetches : ((cpu.ready lines).turn lines).page? = some page)
    (index : ¬ MadeUpOf [0xDD, 0xFD] (memory device))
    (extended : ¬ MadeUpOf [0xED] (memory device)) :
    ended (runOn (segments 65537 lines) bus cpu device).value = true := by
  rcases (segments_run cpu 65537 running fetches).onBus bus device with
    ⟨ends, -, -, -⟩ | ⟨-, selects, length, reads, first⟩
  · exact ends
  next chain target =>
  have stands := Program.streamReads_of_backed backed (segments 65537 lines cpu) device first
  have along : chain <+: bytesFrom (memory device) cpu.registers.pc 65537 :=
    prefix_bytesFrom (reads ▸ stands) (Nat.le_of_eq length)
  -- The chain is all of memory, and its first byte again.
  have whole : chain = memory device cpu.registers.pc ::
      bytesFrom (memory device) (cpu.registers.pc + 1) 65535 ++
        [memory device cpu.registers.pc] := by
    rw [along.eq_of_length (by simp [length]), bytesFrom_around]
    rfl
  rw [whole] at selects
  rcases selects.around with all | all
  · exact absurd (fun address => all _ (mem_bytesFrom _ _ address)) index
  · exact absurd (fun address => all _ (mem_bytesFrom _ _ address)) extended

/-- Whatever the first segment does, a run comes to a boundary, unless memory is made up of index
prefixes or of the extended prefix. -/
theorem segments_ends (backed : bus.Backed memory) (running : lines.wait = false)
    (index : ¬ MadeUpOf [0xDD, 0xFD] (memory device))
    (extended : ¬ MadeUpOf [0xED] (memory device)) :
    ended (runOn (segments 65538 lines) bus cpu device).value = true := by
  obtain ⟨busy, untouched⟩ := (step_delimits cpu lines).onBus bus device
  rw [segments]
  simp only [runOn_bind]
  split
  · next goes =>
    -- Memory is as it was, and a page is selected.
    have kept : memory (runOn (step lines) bus cpu device).device = memory device :=
      Program.memory_of_untouched backed (step lines cpu) device (untouched goes)
    rw [goes, running, Bool.false_or, eq_comm, Option.isSome_iff_exists] at busy
    obtain ⟨page, pending⟩ := busy
    generalize runOn (step lines) bus cpu device = stepped at *
    have fetches := Cpu.fetches_of_pending running pending
    simp only [runOn_bind, runOn_pure, ended_cons_of_busy goes]
    exact segments_ends_of_fetches backed running fetches (kept ▸ index) (kept ▸ extended)
  · next ends => simp [ended, ends]

/-- A run that begins an instruction in memory that is absorbed never comes to a boundary. -/
theorem segments_endless (backed : bus.Backed memory) (running : lines.wait = false)
    (begins : ((cpu.ready lines).turn lines).page? = some .main) {pages : List Page}
    {bytes : List Byte} (absorbs : Page.Absorbs pages bytes) (here : .main ∈ pages)
    (made : MadeUpOf bytes (memory device)) (fuel : Nat) :
    ended (runOn (segments fuel lines) bus cpu device).value = false := by
  rcases (segments_run cpu fuel running begins).onBus bus device with
    ⟨-, completes, -, -⟩ | ⟨goes, -, -, -, -⟩
  · exact absurd completes.spells
      (absorbs.not_spells here (mem_streamBytes backed made completes.first))
  · exact goes

/-- What a run up to the next boundary gives, by its segments. -/
theorem value_nextInstruction (cpu : Cpu) (device : σ) (lines : Lines) :
    (runOn (nextInstruction lines) bus cpu device).value =
      let run := (runOn (segments stepLimit (unheld lines)) bus cpu device).value
      if ended run then counted (run.map Segment.tacts).sum else none := by
  rw [nextInstruction_eq, runOn_bind, runOn_pure]

/-- A run up to the next boundary on a board comes to its end within 65538 segments, and its tacts
fit a count of thirty-two bits, unless memory is made up of index prefixes or of the extended
prefix. In such a memory a run that begins an instruction never comes to an end. -/
theorem nextInstruction_ends (cpu : Cpu) (board : Board) (lines : Lines) :
    let result := (runOn (nextInstruction lines) Board.bus cpu board).value
    let run (fuel : Nat) := (runOn (segments fuel (unheld lines)) Board.bus cpu board).value
    let index := MadeUpOf [0xDD, 0xFD] board.memory.read
    let extended := MadeUpOf [0xED] board.memory.read
    (¬ index → ¬ extended → ∃ whole : List Segment,
      (∀ fuel, 65538 ≤ fuel → run fuel = whole) ∧ ended whole = true ∧ whole.length ≤ 65538 ∧
        (whole.map Segment.tacts).sum < 2 ^ 32 ∧
        result = some (whole.map Segment.tacts).sum) ∧
    (index ∨ extended → cpu.Begins lines →
      result = none ∧
        ∀ fuel, (run fuel).length = fuel ∧ ∀ segment ∈ run fuel, segment.busy = true) := by
  intro result run index extended
  have value : result =
      if ended (run stepLimit) then counted ((run stepLimit).map Segment.tacts).sum else none :=
    value_nextInstruction cpu board lines
  have length (fuel : Nat) := (segments_length cpu fuel (unheld lines)).onBus Board.bus board
  constructor
  · intro notIndex notExtended
    have ends : ended (run 65538) = true :=
      segments_ends Board.bus_backed rfl notIndex notExtended
    have same (fuel : Nat) (enough : 65538 ≤ fuel) : run fuel = run 65538 := by
      obtain ⟨more, rfl⟩ := Nat.exists_eq_add_of_le enough
      exact congrArg Result.value (segments_of_ended 65538 more ends)
    have time : ((run 65538).map Segment.tacts).sum < 2 ^ 32 := by
      have most := Segment.sum_tacts_le (run 65538)
      have short : (run 65538).length ≤ 65538 := (length 65538).1
      omega
    refine ⟨run 65538, same, ends, (length 65538).1, time, ?_⟩
    rw [value, same stepLimit (by decide), if_pos ends, counted_of_lt time]
  · intro endless begins
    have goes (fuel : Nat) : ended (run fuel) = false := by
      rcases endless with made | made
      · exact segments_endless Board.bus_backed rfl begins.fetches Page.absorbs_index
          (by simp) made fuel
      · exact segments_endless Board.bus_backed rfl begins.fetches Page.absorbs_extended
          (by simp) made fuel
    refine ⟨?_, fun fuel => (length fuel).2 (goes fuel)⟩
    rw [value, goes, if_neg Bool.false_ne_true]

/-- A device injects an index prefix where memory holds index prefixes and, just below the program
counter, one extended prefix: the chain leads once around. Where memory holds extended prefixes
only, no instruction ends. -/
theorem ends_once_around :
    let injecting := Cpu.fresh.updateRegisters fun regs => { regs with iff1 := true }
    let around : Board :=
      { memory := (Memory.filled 0xDD).write 0xFFFF 0xED
        dataLines := 0xDD }
    let endless : Board := { memory := .filled 0xED }
    (∃ tacts < 2 ^ 32,
      (runOn (nextInstruction { int := true }) Board.bus injecting around).value = some tacts) ∧
    (runOn (nextInstruction {}) Board.bus Cpu.fresh endless).value = none := by
  intro injecting around endless
  have top : around.memory.read 0xFFFF = 0xED := Memory.read_write_same ..
  have bottom : around.memory.read 0x0000 = 0xDD := by
    rw [Memory.read_write_of_ne _ _ (by decide), Memory.read_filled]
  have index : ¬ MadeUpOf [0xDD, 0xFD] around.memory.read := by
    intro made
    have among := made 0xFFFF
    rw [top] at among
    exact absurd among (by decide)
  have extended : ¬ MadeUpOf [0xED] around.memory.read := by
    intro made
    have among := made 0x0000
    rw [bottom] at among
    exact absurd among (by decide)
  have begins : Cpu.fresh.Begins {} := ⟨rfl, rfl, .inr ⟨rfl, rfl, .inl rfl⟩, rfl⟩
  have filled : MadeUpOf [0xED] endless.memory.read := by
    intro address
    simp [endless]
  obtain ⟨whole, -, -, -, time, result⟩ :=
    (nextInstruction_ends injecting around { int := true }).1 index extended
  exact ⟨⟨_, time, result⟩, ((nextInstruction_ends Cpu.fresh endless {}).2 (.inr filled) begins).1⟩

end Exec

end Z80
