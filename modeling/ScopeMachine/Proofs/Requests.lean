import ScopeMachine.Host
import ScopeMachine.Proofs.Building

/-! # Requests and histories

An embedding program drives a host by requests, one after the other, some of which fail. A history
is what has happened so far: each request together with the host that it met.

* `Host.Request` lists the requests, `Host.Request.perform` carries one out, and
  `Host.Request.isAllowed` says that it names only objects that are there, and gives no identity to
  a second module;
* `History` holds of the turns that lead from an empty host to a given one;
* `Deed` lists what can happen to a registered module, and `record` what has happened to it;
* `advance` carries out a list of requests, and `history_of_advance` says that it makes a
  history. -/

namespace ScopeMachine

/-! ### What can be asked of a module -/

/-- Who asks something of a registered module. -/
inductive Party where
  /-- A reference. -/
  | ref (id : Nat)
  /-- A handle. -/
  | handle (id : Nat)
deriving DecidableEq

/-- What can be asked of a registered module. -/
inductive Errand where
  /-- For its description. -/
  | describe
  /-- Whether it is compiled. -/
  | isCompiled
  /-- For an executable form. -/
  | unpack
  /-- To discard the executable form. -/
  | pack
  /-- To be destroyed. -/
  | destroy
  /-- To run an entry point. -/
  | call (proc : ProcId) (io : VarId) (steps : Nat)
deriving DecidableEq

/-- What a registered module answers. -/
inductive Answer where
  /-- Its description. -/
  | description (module : Module)
  /-- Whether it is compiled. -/
  | form (compiled : Bool)
  /-- That it is done. -/
  | done
  /-- How a call ended. -/
  | status (status : Host.CallStatus)
deriving DecidableEq

/-- An errand for a module of a registry. -/
def Errand.atModule (registry : Nat) (id : ModuleId) : Errand → HostM Answer
  | describe => do return .description (← Host.describeModule registry id)
  | isCompiled => do return .form (← Host.isCompiledModule registry id)
  | unpack => do Host.unpackModule registry id; return .done
  | pack => do Host.packModule registry id; return .done
  | destroy => do Host.destroyModule registry id; return .done
  | call proc io steps => do return .status (← Host.callModule registry id proc io steps)

/-- An errand for the module of a handle. -/
def Errand.atHandle (handle : Nat) : Errand → HostM Answer
  | describe => do return .description (← Host.describe handle)
  | isCompiled => do return .form (← Host.isCompiled handle)
  | unpack => do Host.unpack handle; return .done
  | pack => do Host.pack handle; return .done
  | destroy => do Host.destroy handle; return .done
  | call proc io steps => do return .status (← Host.call handle proc io steps)

namespace Host

/-- The registry and the module that a party speaks of. -/
def subject? (host : Host) : Party → Option ModuleRef
  | .ref id => host.refs.get? id
  | .handle id => (host.handles.get? id).map fun handle => ⟨handle.registry, handle.module⟩

/-- Ask something of a party's module. -/
def ask (party : Party) (errand : Errand) : HostM Answer := do
  match party with
  | .handle id => errand.atHandle id
  | .ref id =>
      match (← get).refs.get? id with
      | some ref => errand.atModule ref.registry ref.module
      | none => return .done

end Host

/-! ### Requests -/

/-- A part of a description that can be looked up. -/
inductive Part where
  /-- A variable type. -/
  | vtype (id : VarTypeId)
  /-- A procedure type. -/
  | ptype (id : ProcTypeId)
  /-- A register. -/
  | reg (id : RegId)
  /-- A procedure. -/
  | proc (id : ProcId)
deriving DecidableEq

/-- Look a part up in the description of a handle's module. -/
def Part.lookUp (handle : Nat) : Part → HostM Unit
  | vtype id => discard (Host.vtype handle id)
  | ptype id => discard (Host.ptype handle id)
  | reg id => discard (Host.reg handle id)
  | proc id => discard (Host.proc handle id)

/-- What an embedding program can do to the contents of a variable, apart from its owned slots. -/
inductive Edit where
  /-- Store a word at the front of an element. -/
  | word (element : Nat) (word : Int64)
  /-- Write bytes over an element's payload, from a position within the element. -/
  | bytes (element position : Nat) (bytes : Array UInt8)
  /-- Store a native in a slot, or take it out. -/
  | native (element slot : Nat) (native : Option Native)
  /-- Apply the native in a slot. -/
  | apply (element slot : Nat)

/-- Edit a variable. Bytes that do not fit into the element are left out. -/
def Edit.perform (var : VarId) : Edit → HostM Unit
  | word element value => Host.setWord var element value
  | bytes element position written =>
      Host.changeVar var fun var =>
        if element < var.count then
          .ok (var.writeBytes element position (written.take (var.layout.elementBytes - position)))
        else .ok var
  | native element slot stored => Host.changeVar var fun var => var.setNativeRef element slot stored
  | apply element slot => discard (Host.applyNative var element slot)

/-- What an embedding program can ask of a host. -/
inductive Host.Request where
  /-- Make a registry. -/
  | newRegistry (backend : Backend)
  /-- Stop holding a registry. -/
  | dropRegistry (registry : Nat)
  /-- Let compiling start to fail, or to succeed again. -/
  | setBackend (registry : Nat) (backend : Backend)
  /-- Make a builder. -/
  | newBuilder (registry : Nat)
  /-- Make a builder from a description. -/
  | reopen (registry : Nat) (description : Module)
  /-- Carry out an operation of a builder. -/
  | build (builder : Nat) (call : Builder.Call)
  /-- Finish the module under construction and register it. -/
  | create (builder : Nat) (fresh : ModuleId)
  /-- Give up a builder. -/
  | dropBuilder (builder : Nat)
  /-- Take a reference to a module. -/
  | retain (registry : Nat) (module : ModuleId)
  /-- Give a reference back. -/
  | dropRef (ref : Nat)
  /-- Make a handle. -/
  | newHandle (registry : Nat) (module : ModuleId)
  /-- Make a handle to the same module. -/
  | cloneHandle (handle : Nat)
  /-- Point a handle at another module. -/
  | bind (handle : Nat) (module : ModuleId)
  /-- Give back the reference that a handle holds. -/
  | release (handle : Nat)
  /-- Give up a handle. -/
  | dropHandle (handle : Nat)
  /-- Ask something of a module. -/
  | ask (party : Party) (errand : Errand)
  /-- Look something up in the description of a handle's module. -/
  | lookUp (handle : Nat) (part : Part)
  /-- Make a variable of a type of a handle's module. -/
  | newVariable (handle : Nat) (vtype : VarTypeId) (count : Nat)
  /-- Make a variable of any layout, without a module. -/
  | newVar (layout : Layout) (count : Nat)
  /-- Hold a variable once more. -/
  | hold (var : VarId)
  /-- Stop holding a variable once. -/
  | unhold (var : VarId)
  /-- Edit a variable. -/
  | edit (var : VarId) (edit : Edit)
  /-- Store a reference in an owned slot, or take it out. -/
  | setOwnedRef (owner : VarId) (element slot : Nat) (referent : Option VarId)

namespace Host.Request

/-- Carry out a request. -/
def perform : Request → HostM Unit
  | newRegistry backend => discard (Host.newRegistry backend)
  | dropRegistry registry => Host.dropRegistry registry
  | setBackend registry backend => Host.updateRegistry registry ({ · with backend })
  | newBuilder registry => discard (Host.newBuilder registry Builder.initial)
  | reopen registry description =>
      match Builder.ofModule description with
      | .ok builder => discard (Host.newBuilder registry builder)
      | .error error => throw error
  | build builder call => Host.build builder (modify fun state => call.perform state)
  | create builder fresh => Host.create builder fresh
  | dropBuilder builder => Host.dropBuilder builder
  | retain registry module => discard (Host.newRef registry module)
  | dropRef ref => Host.dropRef ref
  | newHandle registry module => discard (Host.newHandle registry module)
  | cloneHandle handle => discard (Host.cloneHandle handle)
  | bind handle module => Host.bindHandle handle module
  | release handle => Host.releaseHandle handle
  | dropHandle handle => Host.dropHandle handle
  | ask party errand => discard (Host.ask party errand)
  | lookUp handle part => part.lookUp handle
  | newVariable handle vtype count => discard (Host.newVariable handle vtype count)
  | newVar layout count => discard (Host.newVar (Variable.zeroed layout count))
  | hold var => Host.hold var
  | unhold var => Host.unhold var
  | edit var change => change.perform var
  | setOwnedRef owner element slot referent => Host.setOwnedRef owner element slot referent

end Host.Request

/-! ### Turns -/

namespace Host

variable {α : Type}

/-- The host after an action, successful or not. -/
def after (host : Host) (action : HostM α) : Host :=
  match action host with
  | .ok _ changed | .error _ changed => changed

/-- Whether an action succeeds. -/
def succeeds (host : Host) (action : HostM α) : Bool :=
  match action host with
  | .ok .. => true
  | .error .. => false

end Host

/-- A request together with the host that it met. -/
structure Turn where
  /-- The host before the request. -/
  host : Host
  /-- The request. -/
  request : Host.Request

namespace Turn

/-- The host after the request, successful or not. -/
def after (turn : Turn) : Host := turn.host.after turn.request.perform

/-- Whether the request succeeded. -/
def succeeded (turn : Turn) : Bool := turn.host.succeeds turn.request.perform

end Turn

/-! ### Deeds -/

/-- What can happen to a module. -/
inductive Deed where
  /-- It was registered. -/
  | registered (module : Module)
  /-- It was asked for an executable form, and has one. -/
  | unpacked
  /-- It was asked to discard the executable form, and has none. -/
  | packed
  /-- It was destroyed. -/
  | destroyed
deriving DecidableEq

/-- What a successful errand does to a module. -/
def Errand.deeds : Errand → List Deed
  | unpack => [.unpacked]
  | pack => [.packed]
  | destroy => [.destroyed]
  | describe | isCompiled | call .. => []

/-- What a successful request does to a module of a registry. -/
def Host.Request.deeds (request : Request) (host : Host) (registry : Nat) (id : ModuleId) :
    List Deed :=
  match request with
  | create builder fresh =>
      let bench := host.workbench builder
      if bench.registry = registry ∧ fresh = id then
        [.registered { bench.builder.module with id := fresh }]
      else []
  | ask party errand =>
      if host.subject? party = some ⟨registry, id⟩ then errand.deeds else []
  | _ => []

/-- What a turn did to a module of a registry; a request that failed did nothing. -/
def Turn.deeds (turn : Turn) (registry : Nat) (id : ModuleId) : List Deed :=
  if turn.succeeded then turn.request.deeds turn.host registry id else []

/-- What has happened to a module of a registry, the latest first. -/
def record (turns : List Turn) (registry : Nat) (id : ModuleId) : List Deed :=
  turns.flatMap fun turn => turn.deeds registry id

/-- The last of the deeds that has to do with the executable form. -/
def lastForm (deeds : List Deed) : Option Deed :=
  deeds.find? fun deed => deed = .unpacked || deed = .packed

/-- A module has been registered. -/
def Registered (deeds : List Deed) : Prop := ∃ module, .registered module ∈ deeds

/-- Whether a deed registers a module. -/
def Deed.isRegistered : Deed → Bool
  | registered _ => true
  | _ => false

/-! ### Histories -/

/-- Whether a request may be made: every object that it names is there, and no identity is given to
a second module of a registry. -/
def Host.Request.isAllowed (request : Request) (turns : List Turn) (host : Host) : Bool :=
  match request with
  | dropRegistry registry | setBackend registry _ | newBuilder registry | reopen registry _
  | retain registry _ | newHandle registry _ => (host.registries.get? registry).isSome
  | build builder _ | dropBuilder builder => (host.builders.get? builder).isSome
  | create builder fresh =>
      (host.builders.get? builder).any fun bench =>
        (record turns bench.registry fresh).all fun deed => !deed.isRegistered
  | dropRef ref => (host.refs.get? ref).isSome
  | cloneHandle handle | bind handle _ | release handle | dropHandle handle | lookUp handle _
  | newVariable handle _ _ => (host.handles.get? handle).isSome
  | ask party errand =>
      (host.subject? party).isSome &&
        match errand with
        | .call _ io _ => (host.store.get? io).isSome
        | _ => true
  | hold var | edit var _ => (host.store.get? var).isSome
  | setOwnedRef owner _ _ referent =>
      (host.store.get? owner).isSome && referent.all fun var => (host.store.get? var).isSome
  | newRegistry _ | newVar _ _ | unhold _ => true

/-- The turns, the latest first, that lead from an empty host to a given one. -/
inductive History : List Turn → Host → Prop
  /-- Nothing has happened. -/
  | start : History [] Host.empty
  /-- One more request. -/
  | next {turns : List Turn} {host : Host} {request : Host.Request} (history : History turns host)
      (allowed : request.isAllowed turns host = true) :
      History (⟨host, request⟩ :: turns) (Turn.after ⟨host, request⟩)

/-- What holds at the start and is kept by every request holds after every history. -/
theorem History.holds {invariant : List Turn → Host → Prop} (start : invariant [] Host.empty)
    (step : ∀ {turns host request}, History turns host → invariant turns host →
      request.isAllowed turns host = true →
      invariant (⟨host, request⟩ :: turns) (Turn.after ⟨host, request⟩))
    {turns : List Turn} {host : Host} (history : History turns host) : invariant turns host := by
  induction history with
  | start => exact start
  | next history allowed ih => exact step history ih allowed

/-- Turns lead to one host only. -/
theorem History.unique {turns : List Turn} {left right : Host} (first : History turns left)
    (second : History turns right) : left = right := by
  cases first with
  | start =>
      cases second
      rfl
  | next =>
      cases second
      rfl

/-! ### Carrying out requests -/

/-- Carry out requests one after the other, as long as they are allowed. -/
def advance : List Host.Request → List Turn → Host → Option (List Turn × Host)
  | [], turns, host => some (turns, host)
  | request :: requests, turns, host =>
      if request.isAllowed turns host then
        advance requests (⟨host, request⟩ :: turns) (Turn.after ⟨host, request⟩)
      else none

/-- **Requests that are allowed make a history.** -/
theorem history_of_advance {requests : List Host.Request} {before turns : List Turn}
    {host after : Host} (history : History before host)
    (advanced : advance requests before host = some (turns, after)) : History turns after := by
  induction requests generalizing before host with
  | nil =>
      cases advanced
      exact history
  | cons request requests ih =>
      unfold advance at advanced
      split at advanced
      next allowed => exact ih (history.next allowed) advanced
      next => cases advanced

end ScopeMachine
