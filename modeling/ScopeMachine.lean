import ScopeMachine.Builder
import ScopeMachine.CallStack
import ScopeMachine.CodecError
import ScopeMachine.Command
import ScopeMachine.Command.Imagined
import ScopeMachine.Command.Path
import ScopeMachine.Command.Perform
import ScopeMachine.ControlFlow
import ScopeMachine.Error
import ScopeMachine.Error.Json
import ScopeMachine.Event
import ScopeMachine.Flags
import ScopeMachine.Flags.Text
import ScopeMachine.Host
import ScopeMachine.Id
import ScopeMachine.Instruction
import ScopeMachine.Instruction.Codec
import ScopeMachine.Instruction.Json
import ScopeMachine.Instruction.Text
import ScopeMachine.Json
import ScopeMachine.Json.Reader
import ScopeMachine.Json.Writer
import ScopeMachine.Machine
import ScopeMachine.Main
import ScopeMachine.Module
import ScopeMachine.Module.Json
import ScopeMachine.Module.Listing
import ScopeMachine.Module.Report
import ScopeMachine.ModuleId
import ScopeMachine.Opcode
import ScopeMachine.Operand
import ScopeMachine.OperandCheck
import ScopeMachine.Program
import ScopeMachine.Proofs.Blocks
import ScopeMachine.Proofs.Building
import ScopeMachine.Proofs.Codec
import ScopeMachine.Proofs.Conduct
import ScopeMachine.Proofs.Execution
import ScopeMachine.Proofs.Frames
import ScopeMachine.Proofs.Isolation
import ScopeMachine.Proofs.Opening
import ScopeMachine.Proofs.Paths
import ScopeMachine.Proofs.Refinement
import ScopeMachine.Proofs.Reliance
import ScopeMachine.Proofs.Safety
import ScopeMachine.Proofs.Sequencing
import ScopeMachine.Proofs.Solution
import ScopeMachine.Proofs.Start
import ScopeMachine.Proofs.Tracking
import ScopeMachine.Proofs.Verification
import ScopeMachine.Proofs.WellFormed
import ScopeMachine.Proofs.Words
import ScopeMachine.RegisterFile
import ScopeMachine.Registry
import ScopeMachine.Samples
import ScopeMachine.Scopes
import ScopeMachine.Slots
import ScopeMachine.Store
import ScopeMachine.Text
import ScopeMachine.Tracker
import ScopeMachine.Variable
import ScopeMachine.Varint
import ScopeMachine.Verifier
import ScopeMachine.Proofs.Compactness
import ScopeMachine.Proofs.Records
import ScopeMachine.Proofs.Operations
import ScopeMachine.Proofs.Replay
import ScopeMachine.Proofs.Import
import ScopeMachine.Proofs.Requests
import ScopeMachine.Proofs.Bookkeeping
import ScopeMachine.Proofs.Books
import ScopeMachine.Proofs.Errands
import ScopeMachine.Proofs.Residency
import ScopeMachine.Proofs.Lifecycle
import ScopeMachine.Proofs.Elements
import ScopeMachine.Proofs.Keeping
import ScopeMachine.Proofs.Heap
import ScopeMachine.Proofs.Reclaiming
import ScopeMachine.Proofs.Typing
import ScopeMachine.Proofs.Conformance
import ScopeMachine.Proofs.Effects
import ScopeMachine.Proofs.Easing
import ScopeMachine.Proofs.Upkeep
import ScopeMachine.Proofs.Provenance
import ScopeMachine.Proofs.Faults
import ScopeMachine.Proofs.Ownership
import ScopeMachine.Proofs.Stream
import ScopeMachine.Proofs.Bounds
import ScopeMachine.Proofs.Untrusted
import ScopeMachine.Proofs.Spelling
import ScopeMachine.Proofs.Texts
import ScopeMachine.Proofs.Exchange
import ScopeMachine.Proofs.Locals
import ScopeMachine.Proofs.Partition
import ScopeMachine.Proofs.Activations
import ScopeMachine.Proofs.Recursion
import ScopeMachine.Proofs.Invocation
import ScopeMachine.Proofs.Sorting
import ScopeMachine.Proofs.Footprint
import ScopeMachine.Proofs.Confinement
import ScopeMachine.Proofs.Atomicity
import ScopeMachine.Proofs.NullFrames
import ScopeMachine.Proofs.Sizes
import ScopeMachine.Proofs.Forms
import ScopeMachine.Proofs.CallDepth
import ScopeMachine.Proofs.Rejection
import ScopeMachine.Proofs.Windows
import ScopeMachine.Proofs.DataAccess
import ScopeMachine.Proofs.Sums
import ScopeMachine.Proofs.Mismatch
import ScopeMachine.Proofs.Truncation
import ScopeMachine.Varint.Shifts
import ScopeMachine.Proofs.Shifts
import ScopeMachine.Proofs.Minimality
import ScopeMachine.Proofs.Actions
import ScopeMachine.Proofs.Routines
import ScopeMachine.Proofs.Loading
import ScopeMachine.Proofs.Factors
import ScopeMachine.Proofs.Factorial
import ScopeMachine.Proofs.Worklist
import ScopeMachine.Proofs.Reports
import ScopeMachine.Proofs.Brackets
import ScopeMachine.Proofs.Listings
import ScopeMachine.Proofs.Locality
