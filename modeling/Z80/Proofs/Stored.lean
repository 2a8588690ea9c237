import Z80.Bus.Board
import Z80.Proofs.Decoding

/-!
# Instructions that stand in memory

A bus may have a memory behind it: reads show its bytes, and it stays as it is until the first
access to data or to a port. Since an instruction takes all its bytes before it makes an access,
what it fetches is what stood in memory when it began.

## Main definitions

* `Bus.Backed`: a bus with a memory behind it
* `bytesFrom`: the bytes of a memory from an address upwards

## Main results

* `Program.streamReads_of_backed`: what is fetched is what stands in memory
* `Exec.nextInstruction_decodes`: an instruction that stands at the program counter is run
-/

namespace Z80

/-- A bus with a memory behind it. Only an access to data or to a port may change the memory. -/
structure Bus.Backed {σ : Type} (bus : Bus σ) (memory : σ → Word → Byte) : Prop where
  shown : ∀ address access device, (bus.read address access device).1 = memory device address
  kept : ∀ request device,
    Exchange.isAccess ⟨request, (bus.answer request device).1⟩ = false →
      memory (bus.answer request device).2 = memory device

/-- The bytes of a memory from an address upwards and around the top. -/
def bytesFrom (memory : Word → Byte) (origin : Word) : Nat → List Byte
  | 0 => []
  | count + 1 => memory origin :: bytesFrom memory (origin + 1) count

/-- Bytes that stand in memory are the first of those found there. -/
theorem prefix_bytesFrom {memory : Word → Byte} {origin : Word} {bytes : List Byte} {count : Nat}
    (stored : ∀ spot ∈ placed origin bytes, memory spot.1 = spot.2)
    (enough : bytes.length ≤ count) : bytes <+: bytesFrom memory origin count := by
  induction bytes generalizing origin count with
  | nil => exact List.nil_prefix
  | cons byte rest ih =>
    cases count with
    | zero => cases enough
    | succ count =>
      rw [bytesFrom, stored (origin, byte) (List.mem_cons_self ..), List.cons_prefix_cons]
      refine ⟨rfl, ih (fun spot among => stored spot (List.mem_cons_of_mem _ among)) ?_⟩
      exact Nat.le_of_succ_le_succ enough

section Backed

variable {σ α : Type} {bus : Bus σ} {memory : σ → Word → Byte}

/-- A call to a bus with a memory behind it that reads the instruction stream reads the byte that
stands there. -/
theorem Bus.Backed.streamRead (backed : bus.Backed memory) (request : Request) (device : σ)
    {spot : Word × Byte}
    (reads : Exchange.streamRead? ⟨request, (bus.answer request device).1⟩ = some spot) :
    memory device spot.1 = spot.2 := by
  cases request with
  | read address access =>
    cases access <;> simp only [Exchange.streamRead?, Option.some.injEq, reduceCtorEq] at reads
    all_goals
      subst reads
      exact (backed.shown ..).symm
  | _ => cases reads

/-- What is fetched before the first access is what stands in memory. -/
theorem Program.streamReads_of_backed (backed : bus.Backed memory) (program : Program α)
    (device : σ) (first : StreamFirst (program.calls bus device)) :
    ∀ spot ∈ streamReads (program.calls bus device), memory device spot.1 = spot.2 := by
  induction program generalizing device with
  | done value => simp
  | call request next ih =>
    intro spot among
    rw [calls_call, streamReads_cons, List.mem_append, Option.mem_toList] at among
    rw [calls_call, streamFirst_cons] at first
    obtain ⟨late, first⟩ := first
    rcases among with here | later
    · exact backed.streamRead request device here
    · cases access : Exchange.isAccess ⟨request, (bus.answer request device).1⟩ with
      | true =>
        rw [late access] at later
        cases later
      | false => exact backed.kept request device access ▸ ih _ _ first spot later

/-- Calls that make no access leave the memory behind the bus as it was. -/
theorem Program.memory_of_untouched (backed : bus.Backed memory) (program : Program α) (device : σ)
    (untouched : ∀ call ∈ program.calls bus device, call.isAccess = false) :
    memory (program.run bus device).2 = memory device := by
  induction program generalizing device with
  | done value => rfl
  | call request next ih =>
    rw [calls_call, List.forall_mem_cons] at untouched
    rw [run_call, ih _ _ untouched.2]
    exact backed.kept request device untouched.1

end Backed

/-! ### Boards -/

namespace Board

@[simp] theorem memory_record (board : Board) (event : Event) :
    (board.record event).memory = board.memory := by
  unfold record
  split <;> rfl

@[simp] theorem ports_record (board : Board) (event : Event) :
    (board.record event).ports = board.ports := by
  unfold record
  split <;> rfl

@[simp] theorem outputs_record (board : Board) (event : Event) :
    (board.record event).outputs = board.outputs := by
  unfold record
  split <;> rfl

theorem bus_backed : bus.Backed fun board => board.memory.read where
  shown _ _ _ := rfl
  kept request device quiet := by
    cases request with
    | read address access => exact congrArg Memory.read (memory_record ..)
    | write address value => cases quiet
    | output port value => cases quiet
    | input port => exact congrArg Memory.read (memory_record ..)
    | dataLines => exact congrArg Memory.read (memory_record ..)
    | returned => exact congrArg Memory.read (memory_record ..)
    | acknowledge kind => exact congrArg Memory.read (memory_record ..)
    | _ => rfl

end Board

/-! ### Decoding -/

namespace Exec

variable {σ : Type} {bus : Bus σ} {memory : σ → Word → Byte} {cpu : Cpu} {device : σ}
  {lines : Lines} {page : Page} {opcode : Byte} {instruction : Instruction} {bytes : List Byte}

theorem length_prefixBytes_le (page : Page) : page.prefixBytes.length ≤ 2 := by
  cases page <;> decide

/-- If an instruction stands at the program counter, the run completes it. -/
theorem nextInstruction_of_stored (backed : bus.Backed memory) (begins : cpu.Begins lines)
    (spells : Page.main.Spells bytes page.prefixBytes page opcode instruction)
    (stored : ∀ spot ∈ placed cpu.registers.pc bytes, memory device spot.1 = spot.2) :
    let calls := callsOn (nextInstruction lines) bus cpu device
    let run := runOn (nextInstruction lines) bus cpu device
    run.value.isSome ∧ streamBytes calls = bytes ∧ ∃ chain taken,
      Page.main.Completes cpu chain page opcode instruction taken calls run.cpu := by
  intro calls run
  rcases (nextInstruction_completes cpu begins).onBus bus device with
    ⟨chain, target, found, meant, taken, completes, counts, -⟩ |
    ⟨-, chain, target, selects, length, reads, first⟩
  · -- What was fetched and what is stored begin the same bytes of memory.
    have stands : ∀ spot ∈ placed cpu.registers.pc (streamBytes calls),
        memory device spot.1 = spot.2 := by
      rw [← completes.placed]
      exact Program.streamReads_of_backed backed _ device completes.first
    have along := prefix_bytesFrom stands (Nat.le_add_left (streamBytes calls).length bytes.length)
    have head := prefix_bytesFrom stored (Nat.le_add_right bytes.length (streamBytes calls).length)
    obtain ⟨pages, opcodes, same⟩ := spells.unique completes.spells head along
    subst pages opcodes
    cases spells.role.symm.trans completes.spells.role
    have fits : 4 * chain.length + Segment.entryTacts page opcode taken < 2 ^ 32 := by
      have whole := spells.length
      have fetched := completes.spells.length
      have short := length_prefixBytes_le page
      have most := Segment.entryTacts_le page opcode taken
      rw [← same] at fetched
      omega
    have value : run.value.isSome = true := by
      rw [counts, counted_of_lt fits]
      rfl
    exact ⟨value, same.symm, chain, taken, completes⟩
  · -- The chain of prefix bytes that never ends would be longer than that of the entry.
    have stands : ∀ spot ∈ placed cpu.registers.pc chain, memory device spot.1 = spot.2 := by
      rw [← reads]
      exact Program.streamReads_of_backed backed _ device first
    have along := prefix_bytesFrom stands (Nat.le_add_left chain.length bytes.length)
    have head := prefix_bytesFrom stored (Nat.le_add_right bytes.length chain.length)
    have short := (spells.chain_prefix selects head along).length_le
    have least := length_prefixBytes_le page
    rw [length] at short
    exact absurd (Nat.le_trans short least) (by decide)

/-- Where the encoding of a table entry stands at the program counter, a run takes exactly its bytes
from the instruction stream, one address after the other, all of them before it makes an access, and
ends behind them if the instruction does not go elsewhere. No other encoding begins with it, and it
is the encoding of no other entry and of no other values of its operands. -/
theorem nextInstruction_decodes (backed : bus.Backed memory) (begins : cpu.Begins lines)
    (role : page.role opcode = .instruction instruction) (displacement : Byte) (immediate : Word)
    (stored : ∀ spot ∈ placed cpu.registers.pc
      ((page.entry opcode).encode displacement immediate), memory device spot.1 = spot.2) :
    let bytes := (page.entry opcode).encode displacement immediate
    let calls := callsOn (nextInstruction lines) bus cpu device
    let run := runOn (nextInstruction lines) bus cpu device
    run.value.isSome ∧ streamReads calls = placed cpu.registers.pc bytes ∧
      bytes.length = (page.entry opcode).length ∧ run.cpu.lastOpcode = opcode ∧
      StreamFirst calls ∧
      (¬ instruction.Departs cpu calls run.cpu → run.cpu.registers.pc =
        cpu.registers.pc + BitVec.ofNat 16 (page.entry opcode).length) ∧
      ∀ (other : Page) (found : Byte) (meant : Instruction),
        other.role found = .instruction meant → ∀ offset value,
        bytes <+: (other.entry found).encode offset value →
          bytes = (other.entry found).encode offset value ∧
            page.entry opcode = other.entry found ∧
            instruction.operands.Agree displacement offset immediate value := by
  intro bytes calls run
  have spells := Page.entry_spells role displacement immediate
  have length := Page.length_entry_encode role displacement immediate
  obtain ⟨returned, same, chain, taken, completes⟩ :=
    nextInstruction_of_stored backed begins spells stored
  have reads := completes.placed.trans (congrArg (placed _) same)
  have behind := completes.pc
  rw [same, length] at behind
  refine ⟨returned, reads, length, completes.lastOpcode, completes.first, behind, ?_⟩
  intro other found meant meaning offset value along
  obtain ⟨entries, agree⟩ := Page.entry_encode_inj role meaning along
  exact ⟨(spells.unique (Page.entry_spells meaning offset value) along (List.prefix_refl _)).2.2,
    entries, agree⟩

/-- The encoding of LD (IX+5),0x42 stands across the top of memory. -/
theorem decodes_across_top :
    let cpu := Cpu.fresh.updateRegisters fun regs => { regs with pc := 0xFFFE }
    let board := Board.fresh.load 0xFFFE [0xDD, 0x36, 0x05, 0x42]
    let calls := callsOn (nextInstruction {}) Board.bus cpu board
    let run := runOn (nextInstruction {}) Board.bus cpu board
    streamReads calls = [(0xFFFE, 0xDD), (0xFFFF, 0x36), (0x0000, 0x05), (0x0001, 0x42)] ∧
      run.cpu.lastOpcode = 0x36 ∧ run.cpu.registers.pc = 0x0002 := by
  have begins : (Cpu.fresh.updateRegisters fun regs => { regs with pc := 0xFFFE }).Begins {} :=
    ⟨rfl, rfl, .inr ⟨rfl, rfl, .inl rfl⟩, rfl⟩
  have role : Page.ix.role 0x36 = .instruction (.main .ix (.loadImmediate .memory)) := rfl
  have encoded : (Page.ix.entry 0x36).encode 0x05 0x42 = [0xDD, 0x36, 0x05, 0x42] := rfl
  have stored : ∀ spot ∈ placed 0xFFFE ((Page.ix.entry 0x36).encode 0x05 0x42),
      (Board.fresh.load 0xFFFE [0xDD, 0x36, 0x05, 0x42]).memory.read spot.1 = spot.2 := by
    rw [encoded]
    intro spot among
    simp only [placed, List.mem_cons, List.not_mem_nil, or_false] at among
    rcases among with rfl | rfl | rfl | rfl <;> rfl
  have decoded := nextInstruction_decodes Board.bus_backed begins role 0x05 0x42 stored
  have stays := decoded.2.2.2.2.2.1 (by simp [Instruction.Departs, Operation.redirects])
  exact ⟨decoded.2.1, decoded.2.2.2.1, stays⟩

end Exec

end Z80
