import Z80.Arithmetic.Accumulator
import Z80.Arithmetic.Shift
import Z80.Arithmetic.Pair
import Z80.Arithmetic.Block
import Z80.Text.Hex
import Z80.Registers.Selection
import Z80.Instruction.Entry
import Z80.Lines
import Z80.Value
import Z80.Bus.Substitution
import Z80.Cpu.ExecuteBits
import Z80.Cpu.ExecuteExtended
import Z80.Cpu.Run
import Z80.Cpu.Log
import Z80.Cpu.Query
import Z80.Cpu.Align
import Z80.Document.Snapshot
import Z80.Proofs.Always
import Z80.Proofs.Access
import Z80.Proofs.Calls
import Z80.Proofs.Condition
import Z80.Proofs.Frame
import Z80.Proofs.Stream
import Z80.Proofs.Step
import Z80.Proofs.Ticks
import Z80.Proofs.Replay
import Z80.Proofs.Unread
import Z80.Proofs.Encoding
import Z80.Proofs.Decoding
import Z80.Proofs.Stored
import Z80.Proofs.Loaded
import Z80.Proofs.Journal
import Z80.Proofs.Timing
import Z80.Proofs.Runs
import Z80.Proofs.Acceptance
import Z80.Proofs.BlockRun
import Z80.Proofs.BlockTransfer
import Z80.Proofs.BlockCompare
import Z80.Proofs.BlockPort
import Z80.Proofs.NonMaskable
import Z80.Proofs.Unsplit
import Z80.Proofs.BlockInterrupted
import Z80.Proofs.Coherence
import Z80.Proofs.PrefixChain
import Z80.Proofs.Waiting
import Z80.Proofs.Refresh
import Z80.Proofs.Alignment
import Z80.Proofs.Blockwise
import Z80.Proofs.SavedLoop
import Z80.Proofs.Renamed
import Z80.Proofs.Halted
import Z80.Proofs.Redundant
import Z80.Proofs.Ageing
import Z80.Proofs.Reserved
import Z80.Proofs.Interlude
import Z80.Proofs.Suppression
import Z80.Proofs.Injection
import Z80.Proofs.Carry
import Z80.Proofs.LongNumbers
import Z80.Proofs.DecimalNumbers
import Z80.Proofs.Reset
import Z80.Proofs.Restart
import Z80.Proofs.Stack
import Z80.Proofs.ForcedReturn
import Z80.Proofs.IndexedBits
import Z80.Proofs.Substituted
import Z80.Proofs.RegisterViews
import Z80.Proofs.RegisterHistory
import Z80.Proofs.Names
import Z80.Proofs.Queries
import Z80.Proofs.Selected
import Z80.Proofs.SelectionText
import Z80.Proofs.StateText
import Z80.Proofs.Documents
import Z80.Proofs.Snapshots
