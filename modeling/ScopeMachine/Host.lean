import ScopeMachine.Machine
import ScopeMachine.Registry

/-! # Hosts

A host is what a program that embeds the machine works with: registries, builders, handles to
modules, references, compiled programs and variables, each by identity. Operations are actions of
`HostM`, whose result tells the host's state also after an error.

Variables live as long as something refers to them: the host itself, an owned slot of another
variable, or a persistent register of an executable form. Every operation that gives up a reference
ends in `Host.reclaim`. -/

namespace ScopeMachine

/-! ### Objects -/

/-- A handle names a module of a registry and takes a reference to it when it is first used. -/
structure Handle where
  /-- The registry in which the module is looked up. -/
  registry : Nat
  /-- The module. -/
  module : ModuleId
  /-- Whether the handle holds a reference. -/
  resolved : Bool
deriving DecidableEq

/-- A handle as one line of text. -/
def Handle.text (handle : Handle) : String :=
  "Module \x7b id: " ++ handle.module.text ++ ", resolved: "
    ++ (if handle.resolved then "true" else "false") ++ " \x7d"

/-- A counted reference to a registered module. -/
structure ModuleRef where
  /-- The registry of the module. -/
  registry : Nat
  /-- The module. -/
  module : ModuleId
deriving DecidableEq

/-- A builder together with the registry it registers into. -/
structure Workbench where
  /-- The registry for created modules. -/
  registry : Nat
  /-- The module under construction. -/
  builder : Builder
deriving DecidableEq

/-- Everything that an embedding program works with. -/
structure Host where
  /-- All variables. -/
  store : Store
  /-- The variables that the embedding program holds, once for each time. -/
  held : List VarId
  /-- Registries, by identity. -/
  registries : Slots Registry
  /-- The registries that the embedding program holds. -/
  heldRegistries : List Nat
  /-- Builders, by identity. -/
  builders : Slots Workbench
  /-- Handles, by identity. -/
  handles : Slots Handle
  /-- References, by identity. -/
  refs : Slots ModuleRef
  /-- Programs compiled outside any registry, by identity. -/
  programs : Slots Program
  /-- The events so far, the latest first. -/
  events : List Event
deriving DecidableEq

/-- Operations on a host. -/
abbrev HostM := EStateM Error Host

namespace Host

/-- A host without objects. -/
def empty : Host :=
  ⟨Slots.empty, [], Slots.empty, [], Slots.empty, Slots.empty, Slots.empty, Slots.empty, []⟩

/-- Look at the host. -/
@[inline] def inspect {α : Type} (look : Host → Except Error α) : HostM α := do
  match look (← get) with
  | .ok value => pure value
  | .error error => throw error

/-- Report an event. -/
def emit (event : Event) : HostM Unit :=
  modify fun host => { host with events := event :: host.events }

/-! ### Variables -/

/-- The variables that are held from outside the store. -/
def roots (host : Host) : List VarId :=
  host.held ++ host.registries.values.flatMap Registry.persistents
    ++ host.programs.values.flatMap Program.persistents

/-- The number of references to a variable. -/
def refCount (host : Host) (var : VarId) : Nat :=
  match host.store.get? var with
  | some _ => host.store.refCount host.roots var
  | none => 0

/-- Remove the variables that nothing keeps. -/
def reclaim : HostM Unit :=
  modify fun host => { host with store := host.store.reclaim host.roots }

/-- Hold a variable once more. -/
def hold (var : VarId) : HostM Unit :=
  modify fun host => { host with held := var :: host.held }

/-- Stop holding a variable once. -/
def unhold (var : VarId) : HostM Unit := do
  modify fun host => { host with held := host.held.erase var }
  reclaim

/-- Put a variable into the store and hold it. -/
def newVar (var : Variable) : HostM VarId := do
  let id := (← get).store.next
  modify fun host => { host with store := host.store.insert var }
  hold id
  return id

/-- Change a variable by an operation that can fail. -/
def changeVar (id : VarId) (change : Variable → Except Error Variable) : HostM Unit := do
  match (← get).store.get? id with
  | none => pure ()
  | some var =>
      match change var with
      | .error error => throw error
      | .ok changed =>
          modify fun host => { host with store := host.store.modify id fun _ => changed }

/-- Store a word at the front of an element of a variable. -/
def setWord (id : VarId) (element : Nat) (word : Int64) : HostM Unit := do
  inspect fun host =>
    match host.store.get? id with
    | none => .ok ()
    | some var =>
        if var.hasWord element then .ok () else .error (.range (.noWord element var.count))
  modify fun host => { host with store := host.store.modify id (·.putWord element word) }

/-- Store a reference in an owned slot. -/
def setOwnedRef (owner : VarId) (element slot : Nat) (referent : Option VarId) : HostM Unit := do
  let store ← inspect fun host => host.store.setOwnedRef owner element slot referent
  modify fun host => { host with store }
  reclaim

/-- Apply the native in a slot to the variable itself; whether there is one. -/
def applyNative (id : VarId) (element slot : Nat) : HostM Bool := do
  match ((← get).store.get? id).bind fun var => var.nativeRef? element slot with
  | none => return false
  | some native =>
      changeVar id (·.applyNative native)
      return true

/-! ### Registries -/

/-- A registry without modules, held by the embedding program. -/
def newRegistry (backend : Backend) : HostM Nat := do
  let id := (← get).registries.next
  modify fun host =>
    { host with
      registries := host.registries.insert (Registry.empty backend)
      heldRegistries := id :: host.heldRegistries }
  return id

/-- The registry with a given identity. -/
def registry (host : Host) (id : Nat) : Registry :=
  (host.registries.get? id).getD (Registry.empty .unavailable)

/-- Change a registry. -/
def updateRegistry (id : Nat) (change : Registry → Registry) : HostM Unit :=
  modify fun host => { host with registries := host.registries.modify id change }

/-- Whether something still uses a registry. -/
def usesRegistry (host : Host) (id : Nat) : Bool :=
  host.heldRegistries.contains id || host.builders.values.any (·.registry == id)
    || host.handles.values.any (·.registry == id) || host.refs.values.any (·.registry == id)

/-- Let a registry go, with all its modules, unless something still uses it. -/
def retireRegistry (id : Nat) : HostM Unit := do
  if !(← get).usesRegistry id then
    modify fun host => { host with registries := host.registries.erase id }
    reclaim

/-- Stop holding a registry. -/
def dropRegistry (id : Nat) : HostM Unit := do
  modify fun host => { host with heldRegistries := host.heldRegistries.erase id }
  retireRegistry id

/-- Take a reference to a module; whether it could be found. -/
def retainModule (registry : Nat) (id : ModuleId) : HostM Bool := do
  match ((← get).registry registry).retain? id with
  | none => return false
  | some retained =>
      updateRegistry registry fun _ => retained
      return true

/-- Give a reference to a module back. -/
def releaseModule (registry : Nat) (id : ModuleId) : HostM Unit := do
  let last := ((← get).registry registry).isLastRelease id
  updateRegistry registry (·.release id)
  if last then emit (.erased id)

/-! ### Lifecycle of a module -/

/-- The stage of a module; a module without an entry counts as destroyed. -/
def stage (host : Host) (registry : Nat) (id : ModuleId) : Stage :=
  (((host.registry registry).find? id).map Entry.stage).getD .destroyed

/-- The description of a module. -/
def describeModule (registry : Nat) (id : ModuleId) : HostM Module :=
  inspect fun host => orError (.missing (.destroyed id)) (host.stage registry id).module?

/-- Whether a module is compiled. -/
def isCompiledModule (registry : Nat) (id : ModuleId) : HostM Bool := do
  match (← get).stage registry id with
  | .structural _ => return false
  | .compiled .. => return true
  | .destroyed => throw (.missing (.destroyed id))

/-- Compile a description, allocating its persistent registers. -/
def compile (module : Module) (maxCallDepth : Nat) : HostM Program := do
  match Program.compile module maxCallDepth (← get).store with
  | .error error _ => throw error
  | .ok program store =>
      modify fun host => { host with store }
      emit (.compiled module.id program.procs.size)
      return program

/-- Give a module an executable form, unless it has one. -/
def unpackModule (registry : Nat) (id : ModuleId) : HostM Unit := do
  match (← get).stage registry id with
  | .compiled .. => pure ()
  | .destroyed => throw (.missing (.destroyed id))
  | .structural module =>
      let backend := ((← get).registry registry).backend
      match backend with
      | .unavailable => throw .noCodeGenerator
      | .interpreter maxCallDepth =>
          let program ← compile module maxCallDepth
          updateRegistry registry (·.setStage id (.compiled module program))
          emit (.unpacked id backend.name)

/-- Discard the executable form of a module, if it has one. -/
def packModule (registry : Nat) (id : ModuleId) : HostM Unit := do
  match (← get).stage registry id with
  | .structural _ => pure ()
  | .destroyed => throw (.missing (.destroyed id))
  | .compiled module _ =>
      updateRegistry registry (·.setStage id (.structural module))
      emit (.packed id)
      reclaim

/-- Destroy a module for everyone. -/
def destroyModule (registry : Nat) (id : ModuleId) : HostM Unit := do
  packModule registry id
  updateRegistry registry (·.destroy id)
  emit (.destroyed id)

/-! ### Executions -/

/-- Whether a call came to an end within the steps it was given. -/
inductive CallStatus where
  /-- The procedure returned. -/
  | returned
  /-- The procedure was still running. -/
  | unfinished
deriving DecidableEq

/-- Take over what a machine did to the store, and its events. -/
def settle (machine : Machine) (completion : Machine.Completion) : HostM CallStatus := do
  modify fun host =>
    { host with store := machine.store, events := machine.events ++ host.events }
  reclaim
  match completion with
  | .returned => return .returned
  | .failed error => throw error
  | .running => return .unfinished

/-- Run an entry point of a program, for at most `steps` steps. -/
def invokeProgram (program : Program) (proc : ProcId) (io : VarId) (steps : Nat) :
    HostM CallStatus := do
  let store ← modifyGet fun host => (host.store, { host with store := Slots.empty })
  let (machine, completion) := Machine.invoke program proc io steps store
  settle machine completion

/-- Run any procedure of a program without an argument, for at most `steps` steps. -/
def runProgram (program : Program) (proc : ProcId) (steps : Nat) : HostM CallStatus := do
  let store ← modifyGet fun host => (host.store, { host with store := Slots.empty })
  let (machine, completion) := Machine.runProc program proc steps store
  settle machine completion

/-- Run an entry point of a compiled module, for at most `steps` steps. A fault is reported. -/
def callModule (registry : Nat) (id : ModuleId) (proc : ProcId) (io : VarId) (steps : Nat) :
    HostM CallStatus := do
  match (← get).stage registry id with
  | .structural _ => throw (.misuse (.notCompiled id))
  | .destroyed => throw (.missing (.destroyed id))
  | .compiled _ program =>
      if (program.entryPoint? proc).isNone then throw (.missing (.entryPointIn proc id))
      try invokeProgram program proc io steps
      catch error =>
        if let .execution fault := error then emit (.faulted id proc fault)
        throw error

/-! ### References -/

/-- Keep a reference to a module, if it can be found. -/
def newRef (registry : Nat) (id : ModuleId) : HostM (Option Nat) := do
  if ← retainModule registry id then
    let ref := (← get).refs.next
    modify fun host => { host with refs := host.refs.insert ⟨registry, id⟩ }
    return some ref
  return none

/-- Give a reference back. -/
def dropRef (id : Nat) : HostM Unit := do
  if let some ref := (← get).refs.get? id then
    modify fun host => { host with refs := host.refs.erase id }
    releaseModule ref.registry ref.module
    retireRegistry ref.registry

/-- A reference as one line of text. -/
def refText (host : Host) (ref : ModuleRef) : String :=
  "ModuleRef(ModuleUnit \x7b id: " ++ ref.module.text ++ ", state: \""
    ++ (host.stage ref.registry ref.module).name ++ "\" \x7d)"

/-! ### Handles -/

/-- A handle that has not been used. -/
def newHandle (registry : Nat) (module : ModuleId) : HostM Nat := do
  let id := (← get).handles.next
  modify fun host => { host with handles := host.handles.insert ⟨registry, module, false⟩ }
  return id

/-- The handle with a given identity. -/
def handle (host : Host) (id : Nat) : Handle :=
  (host.handles.get? id).getD ⟨0, ModuleId.nil, false⟩

/-- Change a handle. -/
def updateHandle (id : Nat) (change : Handle → Handle) : HostM Unit :=
  modify fun host => { host with handles := host.handles.modify id change }

/-- Make sure that a handle holds a reference; the handle. -/
def resolve (id : Nat) : HostM Handle := do
  let handle := (← get).handle id
  if handle.resolved then return handle
  if ← retainModule handle.registry handle.module then
    updateHandle id ({ · with resolved := true })
    return { handle with resolved := true }
  throw (.missing (.unregistered handle.module))

/-- Give back the reference that a handle holds, if any. -/
def releaseHandle (id : Nat) : HostM Unit := do
  let handle := (← get).handle id
  if handle.resolved then
    updateHandle id ({ · with resolved := false })
    releaseModule handle.registry handle.module

/-- Point a handle at another module. -/
def bindHandle (id : Nat) (module : ModuleId) : HostM Unit := do
  releaseHandle id
  updateHandle id ({ · with module })

/-- A handle to the same module that has not been used. -/
def cloneHandle (id : Nat) : HostM Nat := do
  let handle := (← get).handle id
  newHandle handle.registry handle.module

/-- Give up a handle. -/
def dropHandle (id : Nat) : HostM Unit := do
  let handle := (← get).handle id
  releaseHandle id
  modify fun host => { host with handles := host.handles.erase id }
  retireRegistry handle.registry

/-- The description of a handle's module. -/
def describe (id : Nat) : HostM Module := do
  let handle ← resolve id
  describeModule handle.registry handle.module

/-- Whether a handle's module is compiled. -/
def isCompiled (id : Nat) : HostM Bool := do
  let handle ← resolve id
  isCompiledModule handle.registry handle.module

/-- Give a handle's module an executable form, unless it has one. -/
def unpack (id : Nat) : HostM Unit := do
  let handle ← resolve id
  unpackModule handle.registry handle.module

/-- Discard the executable form of a handle's module, if it has one. -/
def pack (id : Nat) : HostM Unit := do
  let handle ← resolve id
  packModule handle.registry handle.module

/-- Destroy a handle's module for everyone, and give the handle's reference back, also if the
module had been destroyed before. -/
def destroy (id : Nat) : HostM Unit := do
  let handle ← resolve id
  try destroyModule handle.registry handle.module
  catch error =>
    releaseHandle id
    throw error
  releaseHandle id

/-- Run an entry point of a handle's module, for at most `steps` steps. -/
def call (id : Nat) (proc : ProcId) (io : VarId) (steps : Nat) : HostM CallStatus := do
  let handle ← resolve id
  callModule handle.registry handle.module proc io steps

/-- The variable type of a handle's module with a given identifier. -/
def vtype (id : Nat) (vtype : VarTypeId) : HostM VarType := do
  let module ← describe id
  inspect fun _ => module.requireVtype vtype

/-- The procedure type of a handle's module with a given identifier. -/
def ptype (id : Nat) (ptype : ProcTypeId) : HostM ProcType := do
  let module ← describe id
  inspect fun _ => module.requirePtype ptype

/-- The register of a handle's module with a given identifier. -/
def reg (id : Nat) (reg : RegId) : HostM RegSpec := do
  let module ← describe id
  inspect fun _ => orError (.missing (.register reg)) (module.reg? reg)

/-- The procedure of a handle's module with a given identifier. -/
def proc (id : Nat) (proc : ProcId) : HostM ProcDef := do
  let module ← describe id
  inspect fun _ => orError (.missing (.procedure proc)) (module.proc? proc)

/-- A fresh variable of a type of a handle's module, held by the embedding program. -/
def newVariable (id : Nat) (vtype : VarTypeId) (count : Nat) : HostM VarId := do
  let type ← Host.vtype id vtype
  let layout : Layout := ⟨vtype, type⟩
  let count ← inspect fun _ => layout.resolveCount count
  if UInt32.size ≤ count * layout.elementBytes then throw (.range (.variableSize count vtype))
  newVar (Variable.zeroed layout count)

/-! ### Builders -/

/-- A builder for a registry. -/
def newBuilder (registry : Nat) (builder : Builder) : HostM Nat := do
  let id := (← get).builders.next
  modify fun host => { host with builders := host.builders.insert ⟨registry, builder⟩ }
  return id

/-- Give up a builder. -/
def dropBuilder (id : Nat) : HostM Unit := do
  if let some workbench := (← get).builders.get? id then
    modify fun host => { host with builders := host.builders.erase id }
    retireRegistry workbench.registry

/-- The builder with a given identity. -/
def workbench (host : Host) (id : Nat) : Workbench :=
  (host.builders.get? id).getD ⟨0, Builder.initial⟩

/-- Carry out an operation of a builder. -/
def build {α : Type} (id : Nat) (action : Build α) : HostM α := do
  match (← get).workbench id with
  | ⟨registry, builder⟩ =>
      modify fun host => { host with builders := host.builders.erase id }
      match action builder with
      | .ok value builder =>
          modify fun host => { host with builders := host.builders.put id ⟨registry, builder⟩ }
          return value
      | .error error builder =>
          modify fun host => { host with builders := host.builders.put id ⟨registry, builder⟩ }
          throw error

/-- Finish the module under construction, under a fresh identity. -/
def finish (id : Nat) (fresh : ModuleId) : HostM Module := do
  let module ← build id (Builder.finish fresh)
  emit (.verified module.id module.vtypes.size module.regs.size module.procs.size)
  return module

/-- Finish the module under construction and register it, under a fresh identity. -/
def create (id : Nat) (fresh : ModuleId) : HostM Unit := do
  let module ← finish id fresh
  updateRegistry ((← get).workbench id).registry (·.insert module)
  emit (.registered fresh)

/-! ### Programs outside registries -/

/-- Keep the executable form of a description. -/
def newProgram (module : Module) (maxCallDepth : Nat) : HostM Nat := do
  let program ← compile module maxCallDepth
  let id := (← get).programs.next
  modify fun host => { host with programs := host.programs.insert program }
  return id

/-- Give up a program. -/
def dropProgram (id : Nat) : HostM Unit := do
  modify fun host => { host with programs := host.programs.erase id }
  reclaim

end Host

end ScopeMachine
