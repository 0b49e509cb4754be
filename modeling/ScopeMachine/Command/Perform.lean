import ScopeMachine.Command
import ScopeMachine.Module.Json
import ScopeMachine.Module.Listing
import ScopeMachine.Module.Report
import ScopeMachine.Samples

/-! # Performing commands

`Request.perform` carries out a request. Files are reached through a `Directory`, so the same code
works on a real directory and on one that is only imagined. The result is what is to be written to
standard output and standard error, and the exit status. -/

namespace ScopeMachine

/-- How files are read and written; a failure is described by a text. -/
structure Directory (m : Type → Type) where
  /-- The text of a file. -/
  read : String → m (Except String String)
  /-- Replace the text of a file. -/
  write : String → String → m (Except String Unit)

/-- What a request leads to. -/
structure Outputs where
  /-- The exit status. -/
  exit : Nat
  /-- What goes to standard output. -/
  stdout : String
  /-- What goes to standard error. -/
  stderr : String

/-- The wording of an error that ends a command. The fault behind an execution error is named once
more. -/
def Error.report (error : Error) : String :=
  match error with
  | .execution fault => error.message ++ ": " ++ fault.message
  | _ => error.message

namespace Command

/-- Steps of a command. They can end with an error text, and keep the events so far, the latest
first. -/
abbrev Performing (m : Type → Type) := ExceptT String (StateT (List Event) m)

variable {m : Type → Type} [Monad m]

/-- Reach for a file. -/
def outside {α : Type} (action : m α) : Performing m α := ExceptT.lift (StateT.lift action)

/-- A result as a step. -/
def ofResult {α : Type} : Except String α → Performing m α
  | .ok value => pure value
  | .error text => throw text

/-- Carry out operations on a host that has one registry; the result, or the error. -/
def inHost {α : Type} (maxCallDepth : Nat) (action : (registry : Nat) → HostM α) :
    Performing m (Except Error α) := do
  let all := do
    let registry ← Host.newRegistry (.interpreter maxCallDepth)
    action registry
  match all Host.empty with
  | .ok value host =>
      modify (host.events ++ ·)
      return .ok value
  | .error error host =>
      modify (host.events ++ ·)
      return .error error

/-- Put a context in front of an error. -/
def withContext {α : Type} (context : String) : Except Error α → Except String α
  | .ok value => .ok value
  | .error error => .error (context ++ ": " ++ error.report)

/-- The text of an error without a context. -/
def withoutContext {α : Type} : Except Error α → Except String α
  | .ok value => .ok value
  | .error error => .error error.report

/-- Words on one line. -/
def wordLine (words : List Int64) : String :=
  String.intercalate " " (words.map fun word => word.toInt.repr) ++ "\n"

/-- The end of a call that did not come to an end. -/
def unfinished : String := "the call did not come to an end"

/-! ### Modules -/

/-- Read a module description from a file. -/
def readModule (directory : Directory m) (file : String) : Performing m Module := do
  match ← outside (directory.read file) with
  | .error text => throw ("Error reading file '" ++ file ++ "': " ++ text)
  | .ok text =>
      match Module.parse? text with
      | some module => return module
      | none => throw ("'" ++ file ++ "' is not a module description")

/-- The sample with a given name, or the module in a file, verified. -/
def load (directory : Directory m) (maxCallDepth : Nat) (fresh : ModuleId) (target : String) :
    Performing m Module := do
  match Samples.named? target with
  | some sample =>
      ofResult (withoutContext (← inHost maxCallDepth fun registry =>
        Samples.describe registry sample fresh))
  | none =>
      let module ← readModule directory target
      let builder ←
        ofResult (withContext ("module '" ++ target ++ "' is invalid") (Builder.ofModule module))
      ofResult (withContext ("module '" ++ target ++ "' failed verification")
        (← inHost maxCallDepth fun registry => do
          let id ← Host.newBuilder registry builder
          Host.finish id fresh))

/-! ### Runs -/

/-- Register a module, and carry out operations on a handle to it. -/
def onHandle {α : Type} (registry : Nat) (builder : Builder) (fresh : ModuleId)
    (action : (handle : Nat) → HostM α) : HostM α := do
  let id ← Host.newBuilder registry builder
  Host.create id fresh
  let handle ← Host.newHandle registry fresh
  action handle

/-- Register a sample, and carry out operations on a handle to it. -/
def onSample {α : Type} (sample : Build Unit) (registry : Nat) (fresh : ModuleId)
    (action : (handle : Nat) → HostM α) : HostM α := do
  Samples.register registry sample fresh
  let handle ← Host.newHandle registry fresh
  action handle

/-- Run a procedure of a registered module on words. -/
def runWords (handle : Nat) (proc : ProcId) (words : List Int64) (steps : Nat) :
    HostM Samples.WordCall := do
  Host.unpack handle
  let declared ← Host.proc handle proc
  let type ← Host.ptype handle declared.ptype
  let spec ← Host.reg handle type.io
  Samples.callOnWords handle spec.vtype proc words steps

/-- The output of a run, or its error text. A fault is given with its code. -/
def runOutput (call : Samples.WordCall) : Except String String :=
  match call.result with
  | .ok .returned => .ok (wordLine call.words)
  | .ok .unfinished => .error unfinished
  | .error (.execution fault) =>
      .error (fault.message ++ " (code " ++ fault.code.toInt.repr ++ ")")
  | .error error => .error error.report

/-! ### Commands -/

/-- Carry out a command; what goes to standard output. -/
def output (directory : Directory m) (maxCallDepth : Nat) (fresh : ModuleId) (steps : Nat) :
    Command → Performing m String
  | .factorial n => do
      let result ← ofResult (withoutContext (← inHost maxCallDepth fun registry =>
        onSample Samples.factorial registry fresh fun handle =>
          Samples.runFactorial handle n steps))
      match result with
      | some word => return wordLine [word]
      | none => throw unfinished
  | .sort words => do
      let result ← ofResult (withoutContext (← inHost maxCallDepth fun registry =>
        onSample Samples.quicksort registry fresh fun handle =>
          Samples.runSort handle words steps))
      match result with
      | some words => return wordLine words
      | none => throw unfinished
  | .check target => do
      let module ← load directory maxCallDepth fresh target
      return "✓ Verification OK\n\n'" ++ target ++ "' declares " ++ module.procs.size.repr
        ++ " procedures over " ++ module.regs.size.repr ++ " registers\n"
  | .inspect target json => do
      let module ← load directory maxCallDepth fresh target
      let report := module.report
      return if json then report.toJson.pretty ++ "\n" else report.text
  | .disassemble target => do
      let module ← load directory maxCallDepth fresh target
      return "Disassembly of '" ++ target ++ "':\n\n" ++ module.listing
  | .exportSample sample file => do
      match Samples.named? sample with
      | none =>
          throw ("unknown sample '" ++ sample ++ "' (expected factorial or quicksort)")
      | some action =>
          let module ← ofResult (withoutContext (← inHost maxCallDepth fun registry =>
            Samples.describe registry action fresh))
          match ← outside (directory.write file module.toJson.pretty) with
          | .error text => throw ("Error writing file '" ++ file ++ "': " ++ text)
          | .ok _ => return "Wrote " ++ sample ++ " to '" ++ file ++ "'\n"
  | .run file proc words => do
      let module ← readModule directory file
      let builder ←
        ofResult (withContext ("module '" ++ file ++ "' is invalid") (Builder.ofModule module))
      let call ← ofResult (withoutContext (← inHost maxCallDepth fun registry =>
        onHandle registry builder fresh fun handle => runWords handle ⟨proc⟩ words steps))
      ofResult (runOutput call)

end Command

namespace Request

variable {m : Type → Type} [Monad m]

/-- The exit status for arguments that make no request. -/
def usageStatus : Nat := 2

/-- The lines for the events that are to be shown: warnings, or also what is of interest to someone
who follows the life of modules. -/
def eventLines (verbose : Bool) (events : List Event) : String :=
  let least := if verbose then EventLevel.debug else EventLevel.warn
  String.join ((events.filter fun event => least.rank ≤ event.level.rank).map fun event =>
    event.text ++ "\n")

/-- Carry out a request. Identities are generated from `fresh`, and calls take at most `steps`
steps. -/
def perform (directory : Directory m) (fresh : ModuleId) (steps : Nat) : Request → m Outputs
  | .version => return ⟨0, "tessel 0.3.0\n", ""⟩
  | .help => return ⟨0, "", ""⟩
  | .ofCommand command maxCallDepth verbose => do
      let depth := maxCallDepth.getD defaultCallDepth
      let (result, events) ← ((command.output directory depth fresh steps).run).run []
      let lines := eventLines verbose events.reverse
      match result with
      | .ok text => return ⟨0, text, lines⟩
      | .error text => return ⟨1, "", lines ++ "Error: " ++ text ++ "\n"⟩

/-- Read arguments and carry out the request that they make. -/
def performAll (directory : Directory m) (fresh : ModuleId) (steps : Nat)
    (arguments : List String) : m Outputs :=
  match parse? arguments with
  | some request => request.perform directory fresh steps
  | none => return ⟨usageStatus, "", "error: invalid arguments\n"⟩

end Request

end ScopeMachine
