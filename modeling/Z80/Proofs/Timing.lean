import Z80.Bus.Board
import Z80.Proofs.Decoding

/-!
# The time of an instruction

A run over one instruction takes the time that the table gives for it, the extra time of the table
if its condition is met, and four tacts for each prefix byte that it did not need.

## Main results

* `Exec.nextInstruction_tacts`: the time of a run up to the next boundary
-/

namespace Z80

/-- The prefix bytes with the last segment take the time of the entry, and four tacts for each
prefix byte beyond those of the page. -/
theorem Segment.chain_add_entryTacts {chain : List Byte} {page : Page} {opcode : Byte}
    {instruction : Instruction} (selects : Page.main.Selects chain page)
    (role : page.role opcode = .instruction instruction) (taken : Bool) :
    4 * chain.length + entryTacts page opcode taken =
      4 * (chain.length - page.prefixBytes.length) + (page.entry opcode).tacts +
        if taken then (page.entry opcode).extraTacts else 0 := by
  have enough := selects.length_prefixBytes_le
  have least := Page.prefixTacts_lt_tacts role
  simp only [Page.prefixTacts, Page.prefixBytes, List.length_nil, entryTacts, Page.entry,
    Entry.tacts, role] at enough least ⊢
  omega

namespace Exec

variable {σ : Type}

/-- A run over one instruction takes the time of the entry that its bytes spell, its extra time
exactly if its condition is met, and four tacts for each prefix byte that was not needed, and a
count of thirty-two bits holds it. What is subtracted for the prefix bytes is never more than the
time of the entry. -/
theorem nextInstruction_tacts (bus : Bus σ) (cpu : Cpu) (device : σ) {lines : Lines} {tacts : Nat}
    (begins : cpu.Begins lines)
    (returns : (runOn (nextInstruction lines) bus cpu device).value = some tacts) :
    let calls := callsOn (nextInstruction lines) bus cpu device
    let after := (runOn (nextInstruction lines) bus cpu device).cpu
    ∃ chain page opcode instruction taken,
      Page.main.Spells (streamBytes calls) chain page opcode instruction ∧
        page.prefixBytes.length ≤ chain.length ∧
        tacts = 4 * (chain.length - page.prefixBytes.length) + (page.entry opcode).tacts +
          (if taken then (page.entry opcode).extraTacts else 0) ∧
        tacts < 2 ^ 32 ∧ (taken = true ↔ instruction.ConditionMet cpu calls after) ∧
        instruction.CountsDown cpu calls after ∧ after.total = cpu.total.after tacts ∧
        page.prefixTacts ≤ (page.entry opcode).tacts := by
  have run := (nextInstruction_completes cpu begins).onBus bus device
  rw [returns] at run
  obtain ⟨chain, page, opcode, instruction, taken, completes, counts, total⟩ | ⟨never, -⟩ := run
  case inr => cases never
  obtain ⟨fits, time⟩ := counted_eq_some_iff.mp counts.symm
  have selects := completes.spells.selects
  have role := completes.spells.role
  have enough := selects.length_prefixBytes_le
  have least := Page.prefixTacts_lt_tacts role
  refine ⟨chain, page, opcode, instruction, taken, completes.spells, ?_, ?_, time ▸ fits,
    completes.taken, completes.counts, time ▸ total, ?_⟩
  · simpa [Page.prefixBytes] using enough
  · rw [← time, Segment.chain_add_entryTacts selects role]
  · simpa [Page.entry, Entry.tacts, role] using Nat.le_of_lt least

/-- DJNZ behind two index prefixes, of which one was not needed, with a count that is not used
up. -/
theorem tacts_of_prefixed_djnz :
    let board := Board.fresh.load 0 [0xDD, 0xDD, 0x10, 0xFE]
    let run := runOn (nextInstruction {}) Board.bus Cpu.fresh board
    run.value = some 21 ∧ ∃ chain page opcode instruction, ∃ taken : Bool,
      Page.main.Spells (streamBytes (callsOn (nextInstruction {}) Board.bus Cpu.fresh board)) chain
          page opcode instruction ∧
        21 = 4 * (chain.length - page.prefixBytes.length) + (page.entry opcode).tacts +
          (if taken then (page.entry opcode).extraTacts else 0) ∧
        run.cpu.total = 21 := by
  have begins : Cpu.fresh.Begins {} := ⟨rfl, rfl, .inr ⟨rfl, rfl, .inl rfl⟩, rfl⟩
  obtain ⟨chain, page, opcode, instruction, taken, spells, -, time, -, -, -, total, -⟩ :=
    nextInstruction_tacts Board.bus Cpu.fresh
      (Board.fresh.load 0 [0xDD, 0xDD, 0x10, 0xFE]) begins rfl
  exact ⟨rfl, chain, page, opcode, instruction, taken, spells, time, total⟩

end Exec

end Z80
