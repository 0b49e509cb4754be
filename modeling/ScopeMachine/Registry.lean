import ScopeMachine.Builder
import ScopeMachine.Program

/-! # Registries

A registry keeps modules by identity. Each entry counts the references to it, its own included. A
registered module is structural, compiled or destroyed. A destroyed module can no longer be found,
but its entry stays until the last reference to it has been given back. Destruction is marked twice:
by the stage, which whoever works with the module looks at, and by a flag of the entry, which the
registry looks at.

* `Registry.insert`, `Registry.retain?` and `Registry.release` change entries and counts;
* `Registry.destroy` sets both marks of destruction;
* `Registry.liveIds` lists the modules that have not been destroyed. -/

namespace ScopeMachine

/-! ### Lifecycle -/

/-- How modules of a registry are compiled. -/
inductive Backend where
  /-- By the interpreter, with the largest number of nested calls. -/
  | interpreter (maxCallDepth : Nat)
  /-- Not at all. -/
  | unavailable
deriving DecidableEq

/-- The name of a backend. -/
def Backend.name : Backend → String
  | interpreter _ => "interpreter"
  | unavailable => "unavailable"

/-- The stages in the life of a registered module. -/
inductive Stage where
  /-- The description only. -/
  | structural (module : Module)
  /-- The description and an executable form. -/
  | compiled (module : Module) (program : Program)
  /-- Nothing is left. -/
  | destroyed
deriving DecidableEq

namespace Stage

/-- The name of a stage. -/
def name : Stage → String
  | structural _ => "structural"
  | compiled .. => "compiled"
  | destroyed => "destroyed"

/-- Whether nothing is left of the module. -/
def isDestroyed : Stage → Bool
  | destroyed => true
  | _ => false

/-- The executable form, if there is one. -/
def program? : Stage → Option Program
  | compiled _ program => some program
  | _ => none

/-- The description, as long as the module has not been destroyed. -/
def module? : Stage → Option Module
  | structural module | compiled module _ => some module
  | destroyed => none

/-- There is an executable form exactly where a module is compiled. -/
theorem program?_eq_some {stage : Stage} {program : Program} :
    stage.program? = some program ↔ ∃ module, stage = .compiled module program := by
  cases stage <;> simp [program?]

end Stage

/-! ### Entries -/

/-- A registered module. -/
structure Entry where
  /-- The identity of the module. -/
  id : ModuleId
  /-- Where the module is in its life. -/
  stage : Stage
  /-- Whether the module has been destroyed. -/
  destroyed : Bool
  /-- The number of references, the registry's own included. -/
  refs : Nat
deriving DecidableEq

/-- The modules that are registered together. -/
structure Registry where
  /-- How modules are compiled. -/
  backend : Backend
  /-- The entries, the latest first. -/
  entries : List Entry
deriving DecidableEq

namespace Registry

/-- A registry without modules. -/
def empty (backend : Backend) : Registry := ⟨backend, []⟩

/-- The entry with a given identity. -/
def find? (registry : Registry) (id : ModuleId) : Option Entry :=
  registry.entries.find? fun entry => entry.id == id

/-- Change the entry with a given identity. -/
def modifyEntry (registry : Registry) (id : ModuleId) (change : Entry → Entry) : Registry :=
  { registry with
    entries := registry.entries.map fun entry => if entry.id = id then change entry else entry }

/-- Move the module with a given identity to another stage. -/
def setStage (registry : Registry) (id : ModuleId) (stage : Stage) : Registry :=
  registry.modifyEntry id fun entry => { entry with stage }

/-- Mark the module with a given identity as destroyed. -/
def destroy (registry : Registry) (id : ModuleId) : Registry :=
  registry.modifyEntry id fun entry => { entry with stage := .destroyed, destroyed := true }

/-- Register a finished module. -/
def insert (registry : Registry) (module : Module) : Registry :=
  { registry with
    entries := ⟨module.id, .structural module, false, 1⟩
      :: registry.entries.filter fun entry => entry.id != module.id }

/-- Take a reference to a module that has not been destroyed. -/
def retain? (registry : Registry) (id : ModuleId) : Option Registry :=
  match registry.find? id with
  | some entry =>
      if entry.destroyed then none
      else some (registry.modifyEntry id fun entry => { entry with refs := entry.refs + 1 })
  | none => none

/-- Whether the entry goes with the next reference that is given back. -/
def isLastRelease (registry : Registry) (id : ModuleId) : Bool :=
  (registry.find? id).any fun entry => entry.refs - 1 ≤ 1 && entry.destroyed

/-- Give a reference back. The entry of a destroyed module goes with the last one. -/
def release (registry : Registry) (id : ModuleId) : Registry :=
  if registry.isLastRelease id then
    { registry with entries := registry.entries.filter fun entry => entry.id != id }
  else registry.modifyEntry id fun entry => { entry with refs := entry.refs - 1 }

/-- Whether a module has been destroyed; one without an entry counts as destroyed. -/
def isDestroyed (registry : Registry) (id : ModuleId) : Bool :=
  (registry.find? id).all Entry.destroyed

/-- The number of references to a module, the registry's own included. -/
def refCount? (registry : Registry) (id : ModuleId) : Option Nat :=
  (registry.find? id).map Entry.refs

/-- Whether there is an entry for a module, destroyed or not. -/
def isResident (registry : Registry) (id : ModuleId) : Bool := (registry.find? id).isSome

/-- The number of entries. -/
def size (registry : Registry) : Nat := registry.entries.length

/-- The modules that have not been destroyed. -/
def liveIds (registry : Registry) : List ModuleId :=
  (registry.entries.filter fun entry => !entry.destroyed).map Entry.id

/-- The storage of the persistent registers of all compiled modules. -/
def persistents (registry : Registry) : List VarId :=
  registry.entries.flatMap fun entry => (entry.stage.program?.map Program.persistents).getD []

/-- A registry as one line of text. -/
def text (registry : Registry) : String :=
  "Registry \x7b backend: \"" ++ registry.backend.name ++ "\", entries: " ++ registry.size.repr
    ++ " \x7d"

end Registry

end ScopeMachine
