import Z80.Proofs.BlockTransfer
import Z80.Proofs.Interlude

/-!
# LDIR and LDDR under interrupts

Between two rounds a repeating block instruction is on a boundary, where an interrupt can be taken.
NMI pushes the address of the instruction, and RETN goes back to it and notes again whether it was
repeating, so that the copy goes on as if nothing had happened, if the stack, the instruction, the
handler and the bytes that are copied do not get in each other's way.

## Main definitions

* `Exec.interlude`: NMI and its handler
* `Exec.roundsUnder`: a block instruction with NMI before some of its rounds
* `Alike`: two machines agree on what a transfer depends on
* `BlockOperation.Apart`: the addresses that must not get in each other's way
* `BlockOperation.Abreast`: a copy that was interrupted next to one that was not

## Main results

* `Exec.interlude_alike`: an interlude changes nothing that a transfer depends on
* `Alike.round`: machines that are alike stay alike over a round
* `BlockOperation.Abreast.runs`: from one round to a run
* `BlockOperation.transferring_survives_nmi`: a copy ends the same under every schedule of NMI
-/

namespace Z80

open Exec

namespace Exec

/-- Take NMI and run the one instruction of its handler. The answer tells whether a repeating block
instruction is in progress after it. -/
def interlude : Exec Bool := do
  let _ ← step { nmi := true }
  let _ ← nextInstruction {}
  return (← get).looping

/-- Begin a round with an interlude if the schedule names the round. Its answer is added to those
found before. -/
def openRound (schedule : Nat → Bool) (round : Nat) (found : List Bool) : Exec (List Bool) := do
  if schedule round then
    let looping ← interlude
    return found ++ [looping]
  else return found

/-- Run a repeating block instruction round by round, with NMI asserted on the boundary before each
round that the schedule names, and gather what the interludes answer. Nothing comes back if `fuel`
rounds do not end the instruction. -/
def roundsUnder (schedule : Nat → Bool) : Nat → Nat → List Bool → Exec (Option (List Bool))
  | 0, _, _ => return none
  | fuel + 1, round, found => do
    let found ← openRound schedule round found
    let _ ← nextInstruction {}
    if (← get).looping then roundsUnder schedule fuel (round + 1) found
    else return some found

end Exec

/-! ### Machines that are alike -/

/-- Two machines agree on what a transfer depends on, apart from the two bytes below the stack
pointer, and the second one is some tacts later. -/
structure Alike (skew : Nat) (cpu : Cpu) (board : Board) (other : Cpu) (shown : Board) : Prop where
  memory : ∀ address, address ∉ stacked cpu.registers.sp →
    shown.memory.read address = board.memory.read address
  a : other.registers.a = cpu.registers.a
  s : other.registers.f.s = cpu.registers.f.s
  z : other.registers.f.z = cpu.registers.f.z
  c : other.registers.f.c = cpu.registers.f.c
  general : other.registers.general = cpu.registers.general
  sp : other.registers.sp = cpu.registers.sp
  pc : other.registers.pc = cpu.registers.pc
  iff2 : other.registers.iff2 = cpu.registers.iff2
  total : other.total = cpu.total.after skew

theorem Alike.refl (cpu : Cpu) (board : Board) : Alike 0 cpu board cpu board :=
  ⟨fun _ _ => rfl, rfl, rfl, rfl, rfl, rfl, rfl, rfl, rfl, by simp [Tacts.after]⟩

theorem Alike.trans {first second : Nat} {cpu other last : Cpu} {board shown final : Board}
    (before : Alike first cpu board other shown) (later : Alike second other shown last final) :
    Alike (first + second) cpu board last final where
  memory address unstacked := by
    have same : address ∉ stacked other.registers.sp := before.sp.symm ▸ unstacked
    rw [later.memory address same, before.memory address unstacked]
  a := later.a.trans before.a
  s := later.s.trans before.s
  z := later.z.trans before.z
  c := later.c.trans before.c
  general := later.general.trans before.general
  sp := later.sp.trans before.sp
  pc := later.pc.trans before.pc
  iff2 := later.iff2.trans before.iff2
  total := by rw [later.total, before.total, Tacts.after_after]

/-! ### Interludes -/

/-- The processor is on a boundary where it samples interrupts, and none is noted. -/
structure Cpu.Attentive (cpu : Cpu) : Prop where
  boundary : cpu.pending = none
  awake : cpu.halted = false
  undisturbed : cpu.nmiPending = false
  unsuppressed : cpu.suppressed = false

namespace Exec

variable {cpu : Cpu} {board : Board}

/-- An interlude takes twenty-five tacts and changes nothing else that a transfer depends on. -/
theorem interlude_alike (attentive : cpu.Attentive)
    (holds : (board.pushed cpu.registers.sp cpu.registers.pc).memory.HoldsRetn) :
    let run := runOn interlude Board.bus cpu board
    run.value = cpu.looping ∧ run.cpu.looping = cpu.looping ∧ run.cpu.Attentive ∧
      Alike 25 cpu board run.cpu run.device := by
  obtain ⟨-, after, memory⟩ := runOn_handler attentive.boundary holds
  simp only [interlude, runOn_bind, runOn_step_nmi attentive.boundary attentive.unsuppressed,
    runOn_get, runOn_pure, after]
  refine ⟨rfl, rfl, ⟨rfl, rfl, rfl, rfl⟩, ?_⟩
  constructor
  case memory =>
    intro address unstacked
    rw [memory, Board.read_pushed _ _ unstacked]
  case total => exact cpu.total_resumed
  case sp =>
    rw [cpu.registers_resumed]
    rfl
  all_goals rfl

end Exec

/-! ### A round -/

namespace BlockOperation

/-- A block instruction leaves alone the stack, the saved enable and the suppression. -/
theorem execute_spared (operation : BlockOperation) (cpu : Cpu) :
    operation.execute.Always cpu fun _ _ after =>
      after.registers.sp = cpu.registers.sp ∧ after.registers.iff2 = cpu.registers.iff2 ∧
        after.suppressed = cpu.suppressed := by
  obtain ⟨action, upward, repeats⟩ := operation
  cases action <;>
    simp [execute, act, transfer, compare, input, output, Registers.setHL, Registers.setDE,
      Registers.setBC]

theorem roundOn_spared (operation : BlockOperation) (cpu : Cpu) (board : Board) :
    let round := operation.roundOn cpu board
    round.cpu.registers.sp = cpu.registers.sp ∧ round.cpu.registers.iff2 = cpu.registers.iff2 ∧
      round.cpu.suppressed = false ∧
      round.cpu.total = cpu.total.after (if round.value then 21 else 16) := by
  intro round
  let decoded := cpu.decoded operation.opcode
  let fetched := fetchedFrom cpu.registers.pc board
  obtain ⟨sp, iff2, suppressed⟩ := (operation.execute_spared decoded).onBus Board.bus fetched
  have frame := (operation.execute_frame decoded).onBus Board.bus fetched
  have registers : round.cpu.registers =
      (runOn operation.execute Board.bus decoded fetched).cpu.registers := rfl
  have total : round.cpu.total = (cpu.total.after 4).after (if round.value then 17 else 12) :=
    congrArg (Tacts.after · _) frame.driver.total
  rw [Cpu.registers_decoded] at sp iff2
  rw [registers, sp, iff2, total, Tacts.after_after]
  refine ⟨rfl, rfl, suppressed, ?_⟩
  split <;> rfl

end BlockOperation

/-- A transfer writes all flags but sign, zero and carry. -/
theorem Arithmetic.blockTransfer_congr {flags other : Flags} (s : other.s = flags.s)
    (z : other.z = flags.z) (c : other.c = flags.c) {accumulator value : Byte} {count : Word}
    {rewound : Option Byte} :
    blockTransfer other accumulator value count rewound =
      blockTransfer flags accumulator value count rewound := by
  cases rewound <;> simp [blockTransfer, blockCopies, Flags.withCopies, s, z, c]

section Round

open BlockOperation

variable {skew : Nat} {cpu other : Cpu} {board shown : Board}

/-- Where machines are alike, a round does the same. -/
theorem Alike.round {upward : Bool} (alike : Alike skew cpu board other shown)
    (source : cpu.registers.hl ∉ stacked cpu.registers.sp) :
    let round := (transferring upward).roundOn cpu board
    let later := (transferring upward).roundOn other shown
    later.value = round.value ∧ later.cpu.registers.f = round.cpu.registers.f ∧
      Alike skew round.cpu round.device later.cpu later.device := by
  intro round later
  obtain ⟨value, memory, general, flags⟩ := roundOn_transferring upward cpu board
  obtain ⟨otherValue, otherMemory, otherGeneral, otherFlags⟩ :=
    roundOn_transferring upward other shown
  have shared := (transferring upward).roundOn_round cpu board
  have otherShared := (transferring upward).roundOn_round other shown
  obtain ⟨sp, iff2, -, total⟩ := (transferring upward).roundOn_spared cpu board
  obtain ⟨otherSp, otherIff2, -, otherTotal⟩ := (transferring upward).roundOn_spared other shown
  have bc : other.registers.bc = cpu.registers.bc := congrArg General.bc alike.general
  have de : other.registers.de = cpu.registers.de := congrArg General.de alike.general
  have hl : other.registers.hl = cpu.registers.hl := congrArg General.hl alike.general
  have byte : shown.memory.read other.registers.hl = board.memory.read cpu.registers.hl := by
    rw [hl, alike.memory _ source]
  -- From the same byte, count and address come the same decision to repeat and the same flags.
  have again : later.value = round.value := by rw [otherValue, value, bc]
  have f : later.cpu.registers.f = round.cpu.registers.f := by
    rw [otherFlags, flags, byte, bc, alike.a, alike.pc]
    exact Arithmetic.blockTransfer_congr alike.s alike.z alike.c
  refine ⟨again, f, ?_⟩
  constructor
  case memory =>
    -- Both write the same byte to the same place, and agreed everywhere else before.
    intro address unstacked
    rw [sp] at unstacked
    rw [otherMemory, memory, byte, de, Memory.read_write, Memory.read_write,
      alike.memory _ unstacked]
  case a => exact otherShared.a.trans (alike.a.trans shared.a.symm)
  case s => rw [f]
  case z => rw [f]
  case c => rw [f]
  case general => rw [otherGeneral, general, alike.general, hl, de, bc]
  case sp => rw [otherSp, sp, alike.sp]
  case pc =>
    rw [otherShared.pc, shared.pc, again, Cpu.registers_decoded, Cpu.registers_decoded, alike.pc]
  case iff2 => rw [otherIff2, iff2, alike.iff2]
  case total =>
    rw [otherTotal, total, again, alike.total, Tacts.after_after, Tacts.after_after, Nat.add_comm]

/-- A run up to the next boundary makes a round. -/
theorem Exec.runOn_nextInstruction_block {operation : BlockOperation}
    (stands : operation.Stands cpu board) (repeats : operation.repeats = true) :
    let run := runOn (nextInstruction {}) Board.bus cpu board
    run.cpu = (operation.roundOn cpu board).cpu ∧
      run.device = (operation.roundOn cpu board).device := by
  intro run
  have opened := runOn_nextInstruction_extended stands.boundary stands.awake stands.undisturbed
    stands.selector stands.opcode operation.role_opcode
  simp only [tacts_block repeats] at opened
  exact ⟨congrArg Result.cpu opened, congrArg Result.device opened⟩

/-- A round of a run under interrupts begins with its interlude and goes on if it repeats. -/
theorem Exec.runOn_roundsUnder {operation : BlockOperation} (repeats : operation.repeats = true)
    (schedule : Nat → Bool) (fuel count : Nat) (found : List Bool) :
    let opened := runOn (openRound schedule count found) Board.bus cpu board
    let round := operation.roundOn opened.cpu opened.device
    operation.Stands opened.cpu opened.device →
      runOn (roundsUnder schedule (fuel + 1) count found) Board.bus cpu board =
        if round.value then
          runOn (roundsUnder schedule fuel (count + 1) opened.value) Board.bus round.cpu round.device
        else ⟨some opened.value, round.cpu, round.device⟩ := by
  intro opened round stands
  obtain ⟨after, device⟩ := runOn_nextInstruction_block stands repeats
  have looping := (operation.roundOn_round opened.cpu opened.device).looping
  have unfolded : runOn (roundsUnder schedule (fuel + 1) count found) Board.bus cpu board =
      let run := runOn (nextInstruction {}) Board.bus opened.cpu opened.device
      if run.cpu.looping then
        runOn (roundsUnder schedule fuel (count + 1) opened.value) Board.bus run.cpu run.device
      else ⟨some opened.value, run.cpu, run.device⟩ := by
    simp only [roundsUnder, runOn_bind, runOn_ite, runOn_pure]
    rfl
  rw [unfolded]
  simp only [after, device, looping]
  rfl

end Round

/-! ### Two runs abreast -/

namespace BlockOperation

/-- The addresses of the instruction and of the handler of NMI. -/
def code (pc : Word) : List Word := [pc, pc + 1, 0x0066, 0x0067]

/-- The bytes that NMI pushes, the instruction and the handler are apart, and nothing is copied from
or to any of them. -/
@[mk_iff]
structure Apart (upward : Bool) (regs : Registers) : Prop where
  nodup : (stacked regs.sp ++ code regs.pc).Nodup
  source : ∀ i < rounds regs.bc,
    (transferring upward).far i regs.hl ∉ stacked regs.sp ++ code regs.pc
  target : ∀ i < rounds regs.bc,
    (transferring upward).far i regs.de ∉ stacked regs.sp ++ code regs.pc

instance (upward : Bool) (regs : Registers) : Decidable (Apart upward regs) :=
  decidable_of_iff' _ (apart_iff upward regs)

/-- A copy that was interrupted, next to one that was not, after the same rounds. -/
structure Abreast (upward : Bool) (start : Cpu) (memory : Memory) (count skew : Nat) (cpu : Cpu)
    (board : Board) (other : Cpu) (shown : Board) : Prop where
  stands : (transferring upward).Stands cpu board
  pc : cpu.registers.pc = start.registers.pc
  sp : cpu.registers.sp = start.registers.sp
  progress : Transferring upward start memory count cpu board
  attentive : other.Attentive
  looping : other.looping = (count != 0)
  alike : Alike skew cpu board other shown

section Apart

variable {upward : Bool} {regs : Registers} {address : Word} {count : Nat}

/-- A push does not write over the instruction or the handler. -/
theorem Apart.unstacked (apart : Apart upward regs) (own : address ∈ code regs.pc) :
    address ∉ stacked regs.sp := by
  intro hit
  exact (List.nodup_append.mp apart.nodup).2.2 address hit address own rfl

/-- A copy does not write over the instruction or the handler. -/
theorem Apart.read_copied (apart : Apart upward regs) (memory : Memory)
    (own : address ∈ code regs.pc) (within : count ≤ rounds regs.bc) :
    ((transferring upward).copied memory regs.hl regs.de count).read address =
      memory.read address := by
  apply BlockOperation.read_copied
  intro i below hit
  have hits : (transferring upward).far i regs.de ∈ stacked regs.sp ++ code regs.pc :=
    List.mem_append_right _ (hit ▸ own)
  exact absurd hits (apart.target i (Nat.lt_of_lt_of_le below within))

end Apart

namespace Abreast

variable {upward : Bool} {start cpu other : Cpu} {memory : Memory} {board shown : Board}
  {count skew : Nat} (apart : Apart upward start.registers)
  (abreast : Abreast upward start memory count skew cpu board other shown)

include apart abreast

/-- Neither copying nor pushing has changed the instruction or the handler. -/
theorem read_shown (within : count ≤ rounds start.registers.bc) {address : Word}
    (own : address ∈ code start.registers.pc) :
    shown.memory.read address = memory.read address := by
  have unstacked : address ∉ stacked cpu.registers.sp := abreast.sp.symm ▸ apart.unstacked own
  rw [abreast.alike.memory _ unstacked, abreast.progress.memory, apart.read_copied _ own within]

/-- NMI and its handler do not let a copy fall back. -/
theorem interlude (within : count ≤ rounds start.registers.bc) (holds : memory.HoldsRetn) :
    let run := runOn Exec.interlude Board.bus other shown
    run.value = (count != 0) ∧
      Abreast upward start memory count (skew + 25) cpu board run.cpu run.device := by
  have spared (address : Word) (own : address ∈ code start.registers.pc) :
      (shown.pushed other.registers.sp other.registers.pc).memory.read address =
        memory.read address := by
    have unstacked : address ∉ stacked other.registers.sp := by
      rw [abreast.alike.sp, abreast.sp]
      exact apart.unstacked own
    rw [Board.read_pushed _ _ unstacked, abreast.read_shown apart within own]
  have returns : (shown.pushed other.registers.sp other.registers.pc).memory.HoldsRetn :=
    ⟨(spared _ (by simp [code])).trans holds.selector,
      (spared _ (by simp [code])).trans holds.opcode⟩
  obtain ⟨value, looping, attentive, alike⟩ := interlude_alike abreast.attentive returns
  exact ⟨value.trans abreast.looping,
    { abreast with
      attentive
      looping := looping.trans abreast.looping
      alike := abreast.alike.trans alike }⟩

/-- The instruction stands before the copy that was interrupted, too. -/
theorem stands_other (within : count ≤ rounds start.registers.bc) :
    (transferring upward).Stands other shown := by
  have pc := abreast.alike.pc.trans abreast.pc
  have unmoved (address : Word) (own : address ∈ code start.registers.pc) :
      shown.memory.read address = board.memory.read address := by
    rw [abreast.read_shown apart within own, abreast.progress.memory,
      apart.read_copied _ own within]
  obtain ⟨boundary, awake, undisturbed, -⟩ := abreast.attentive
  refine ⟨boundary, awake, undisturbed, ?_, ?_⟩
  · rw [pc, unmoved _ (by simp [code]), ← abreast.pc, abreast.stands.selector]
  · rw [pc, unmoved _ (by simp [code]), ← abreast.pc, abreast.stands.opcode]

/-- Both copies make the same round. -/
theorem round_alike (within : count < rounds start.registers.bc) :
    let round := (transferring upward).roundOn cpu board
    let later := (transferring upward).roundOn other shown
    later.value = round.value ∧ later.cpu.registers.f = round.cpu.registers.f ∧
      Alike skew round.cpu round.device later.cpu later.device := by
  have source : cpu.registers.hl ∉ stacked cpu.registers.sp := by
    rw [abreast.progress.hl, abreast.sp]
    exact fun hit => apart.source count within (List.mem_append_left _ hit)
  exact abreast.alike.round source

/-- The round ends both copies, or they are abreast after it. -/
theorem round (within : count + 1 < rounds start.registers.bc) :
    let round := (transferring upward).roundOn cpu board
    let later := (transferring upward).roundOn other shown
    round.value = true ∧
      Abreast upward start memory (count + 1) skew round.cpu round.device later.cpu
        later.device := by
  intro round later
  have repeating : round.value = true := by
    rw [← Bool.not_eq_false, abreast.progress.done_iff (by omega)]
    omega
  obtain ⟨same, -, alike⟩ := abreast.round_alike apart (by omega)
  have progress := abreast.progress.round
  -- The copy that is not interrupted finds its instruction again, and the other one follows it.
  have kept (address : Word) (own : address ∈ code cpu.registers.pc) :
      round.device.memory.read address = board.memory.read address := by
    rw [abreast.pc] at own
    rw [progress.memory, abreast.progress.memory, apart.read_copied _ own (by omega),
      apart.read_copied _ own (by omega)]
  obtain ⟨pc, stands⟩ := abreast.stands.again repeating
    ((kept _ (by simp [code])).trans abreast.stands.selector)
    ((kept _ (by simp [code])).trans abreast.stands.opcode)
  have sp := ((transferring upward).roundOn_spared cpu board).1
  have unsuppressed := ((transferring upward).roundOn_spared other shown).2.2.1
  have shared := (transferring upward).roundOn_round other shown
  obtain ⟨boundary, awake, undisturbed⟩ := other.decoded_kept (transferring upward).opcode
  refine ⟨repeating, stands, pc.trans abreast.pc, sp.trans abreast.sp, progress, ?_, ?_, alike⟩
  · exact ⟨shared.pending.trans boundary, (shared.halted.trans awake).trans abreast.attentive.awake,
      (shared.nmiPending.trans undisturbed).trans abreast.attentive.undisturbed, unsuppressed⟩
  · rw [shared.looping, same, repeating]
    simp

/-- The copies are abreast whether the round begins with an interlude or not. -/
theorem openRound (within : count ≤ rounds start.registers.bc) (holds : memory.HoldsRetn)
    (schedule : Nat → Bool) (found : List Bool) :
    let times := [count].filter schedule
    let run := runOn (Exec.openRound schedule count found) Board.bus other shown
    run.value = found ++ times.map (· != 0) ∧
      Abreast upward start memory count (skew + 25 * times.length) cpu board run.cpu
        run.device := by
  intro times run
  by_cases named : schedule count
  · obtain ⟨value, resumed⟩ := abreast.interlude apart within holds
    simpa [times, run, named, Exec.openRound, value] using resumed
  · simpa [times, run, named, Exec.openRound] using abreast

/-- The rest of a copy ends the same under interrupts. -/
theorem runs (holds : memory.HoldsRetn) (schedule : Nat → Bool) (left : Nat)
    (sum : count + left + 1 = rounds start.registers.bc) (fuel spent : Nat)
    (enough : 2 * left + 2 ≤ fuel) (limit : Nat) (allowed : left + 1 ≤ limit)
    (found : List Bool) :
    let times := (List.range' count (left + 1)).filter schedule
    let undisturbed := runOn (unlooped fuel spent) Board.bus cpu board
    let disturbed := runOn (roundsUnder schedule limit count found) Board.bus other shown
    undisturbed.value = some (spent + (21 * left + 16)) ∧
      disturbed.value = some (found ++ times.map (· != 0)) ∧
      disturbed.cpu.registers.f = undisturbed.cpu.registers.f ∧
      undisturbed.cpu.registers.sp = start.registers.sp ∧
      Alike (skew + 25 * times.length) undisturbed.cpu undisturbed.device disturbed.cpu
        disturbed.device := by
  -- The induction is on the rounds that are left. The run that is not interrupted takes two steps
  -- of its fuel for each of them.
  induction left generalizing count skew cpu board other shown fuel spent limit found with
  | zero =>
    obtain ⟨fuel, rfl⟩ : ∃ more, fuel = more + 2 := ⟨fuel - 2, by omega⟩
    obtain ⟨limit, rfl⟩ : ∃ more, limit = more + 1 := ⟨limit - 1, by omega⟩
    obtain ⟨told, opened⟩ := abreast.openRound apart (by omega) holds schedule found
    have ended : ((transferring upward).roundOn cpu board).value = false :=
      (abreast.progress.done_iff (by omega)).mpr sum
    obtain ⟨same, flags, alike⟩ := opened.round_alike apart (by omega)
    have sp := ((transferring upward).roundOn_spared cpu board).1
    rw [runOn_unlooped_round rfl abreast.stands,
      runOn_roundsUnder rfl _ _ _ _ (opened.stands_other apart (by omega)), same]
    simp only [ended, told]
    exact ⟨rfl, rfl, flags, sp.trans abreast.sp, alike⟩
  | succ left ih =>
    obtain ⟨fuel, rfl⟩ : ∃ more, fuel = more + 2 := ⟨fuel - 2, by omega⟩
    obtain ⟨limit, rfl⟩ : ∃ more, limit = more + 1 := ⟨limit - 1, by omega⟩
    obtain ⟨told, opened⟩ := abreast.openRound apart (by omega) holds schedule found
    obtain ⟨same, -, -⟩ := opened.round_alike apart (by omega)
    obtain ⟨again, next⟩ := opened.round apart (by omega)
    have rest := ih next (by omega) fuel (spent + 21) (by omega) limit (by omega)
      (found ++ ([count].filter schedule).map (· != 0))
    rw [runOn_unlooped_round rfl abreast.stands,
      runOn_roundsUnder rfl _ _ _ _ (opened.stands_other apart (by omega)), same]
    simp only [again, told, if_true]
    have split : (List.range' count (left + 1 + 1)).filter schedule =
        [count].filter schedule ++ (List.range' (count + 1) (left + 1)).filter schedule := by
      rw [List.range'_succ, ← List.singleton_append, List.filter_append]
    have time : spent + 21 + (21 * left + 16) = spent + (21 * (left + 1) + 16) := by omega
    rw [split, List.map_append, List.length_append, Nat.mul_add 25, ← List.append_assoc,
      ← Nat.add_assoc skew, ← time]
    exact rest

end Abreast

/-- A copy survives interrupts. Under every schedule of NMI on the boundaries before its rounds it
ends as it does without, in memory but for the two bytes below the stack pointer, in A, F, BC, DE,
HL, SP, PC and in the saved enable, and it takes twenty-five tacts more for each NMI. After each
return the instruction is noted as repeating exactly if it has made a round. -/
theorem transferring_survives_nmi {upward : Bool} {cpu : Cpu} {board : Board}
    (stands : (transferring upward).Stands cpu board) (begins : cpu.looping = false)
    (unsuppressed : cpu.suppressed = false) (holds : board.memory.HoldsRetn)
    (apart : Apart upward cpu.registers) (schedule : Nat → Bool) :
    let times := (List.range (rounds cpu.registers.bc)).filter schedule
    let undisturbed := runOn (nextUnlooped {}) Board.bus cpu board
    let disturbed := runOn (roundsUnder schedule (2 ^ 16) 0 []) Board.bus cpu board
    let regs := undisturbed.cpu.registers
    let found := disturbed.cpu.registers
    undisturbed.value.isSome ∧ disturbed.value = some (times.map (· != 0)) ∧
      (∀ address, address ≠ cpu.registers.sp - 1 → address ≠ cpu.registers.sp - 2 →
        disturbed.device.memory.read address = undisturbed.device.memory.read address) ∧
      found.a = regs.a ∧ found.f = regs.f ∧ found.bc = regs.bc ∧ found.de = regs.de ∧
      found.hl = regs.hl ∧ found.sp = regs.sp ∧ found.pc = regs.pc ∧ found.iff2 = regs.iff2 ∧
      disturbed.cpu.total = undisturbed.cpu.total.after (25 * times.length) := by
  obtain ⟨last, counted⟩ : ∃ last, rounds cpu.registers.bc = last + 1 :=
    ⟨rounds cpu.registers.bc - 1, (Nat.succ_pred_eq_of_pos (rounds_pos _)).symm⟩
  have bound := rounds_le cpu.registers.bc
  have enough : 2 * last + 2 ≤ stepLimit := by
    have limit : stepLimit = 2 ^ 32 := rfl
    omega
  have progress : Transferring upward cpu board.memory 0 cpu board :=
    ⟨rfl, (far_zero ..).symm, (far_zero ..).symm, by simp, rfl, rfl, rfl⟩
  have attentive : cpu.Attentive :=
    ⟨stands.boundary, stands.awake, stands.undisturbed, unsuppressed⟩
  have abreast : Abreast upward cpu board.memory 0 0 cpu board cpu board :=
    ⟨stands, rfl, rfl, progress, attentive, begins, .refl cpu board⟩
  obtain ⟨time, told, flags, sp, alike⟩ := abreast.runs apart holds schedule last
    (by omega) stepLimit 0 enough (2 ^ 16) (by omega) []
  have fits : 0 + (21 * last + 16) < 2 ^ 32 := by omega
  rw [Nat.zero_add, ← counted, ← List.range_eq_range'] at alike
  rw [List.nil_append, ← counted, ← List.range_eq_range'] at told
  simp only [nextUnlooped_eq, runOn_map, time, Option.bind_some, counted_of_lt fits]
  refine ⟨rfl, told, ?_, alike.a, flags, congrArg General.bc alike.general,
    congrArg General.de alike.general, congrArg General.hl alike.general, alike.sp, alike.pc,
    alike.iff2, alike.total⟩
  intro address upper lower
  refine alike.memory address ?_
  rw [sp]
  exact notMem_stacked_iff.mpr ⟨upper, lower⟩

/-- LDIR copies three bytes, and NMI comes before the first of them and before the last. -/
theorem ldir_survives_nmi :
    let cpu := Cpu.fresh.updateRegisters fun regs =>
      ((regs.setHL 0x4000).setDE 0x5000).setBC 3
    let board := (Board.fresh.load 0x0000 [0xED, 0xB0]).load 0x0066 [0xED, 0x45]
    let undisturbed := runOn (nextUnlooped {}) Board.bus cpu board
    let disturbed := runOn (roundsUnder (· != 1) (2 ^ 16) 0 []) Board.bus cpu board
    disturbed.value = some [false, true] ∧
      disturbed.cpu.registers.f = undisturbed.cpu.registers.f ∧
      disturbed.cpu.registers.pc = undisturbed.cpu.registers.pc ∧
      disturbed.cpu.total = undisturbed.cpu.total.after 50 := by
  intro cpu board
  have stands : (transferring true).Stands cpu board := ⟨rfl, rfl, rfl, by decide, by decide⟩
  have apart : Apart true cpu.registers := by decide +kernel
  have three : rounds cpu.registers.bc = 3 := by decide
  obtain ⟨-, told, -, -, f, -, -, -, -, pc, -, total⟩ := transferring_survives_nmi stands rfl rfl
    ⟨by decide, by decide⟩ apart (· != 1)
  have times : (List.range 3).filter (· != 1) = [0, 2] := rfl
  rw [three, times] at told total
  exact ⟨told, f, pc, total⟩

end BlockOperation

end Z80
