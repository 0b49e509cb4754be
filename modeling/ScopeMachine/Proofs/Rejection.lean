import ScopeMachine.Proofs.Lifecycle

/-! # Rejected calls leave no trace

A builder is used by calls that answer with a value or fail. Each checks all its arguments before it
changes anything, so a call that fails leaves the builder, its trackers and the registries as they
are. Therefore the calls that have failed can be left out of a sequence, and nothing else changes.

* `Builder.Reply` lists what calls answer, `Host.Operation` the calls of all builders of a host, and
  `Host.trace` is a sequence of them with what each has answered;
* `Builder.Careful` says that an action fails before it changes anything, as `Builder.careful_act`
  shows of every call;
* `Host.Operation.perform_eq` says what an operation does in terms of its builder alone;
* `Host.trace_accepted` leaves out the operations that have failed, by induction on the sequence;
* `Host.Renamed` relates hosts that differ in generated identities, and `Host.Renamed.trace` says
  that operations keep to it. -/

namespace ScopeMachine

/-- An action whose value is looked at in another way. -/
theorem map_apply {ε σ α β : Type} (change : α → β) (action : EStateM ε σ α) (state : σ) :
    (change <$> action) state =
      match action state with
      | .ok value after => .ok (change value) after
      | .error error after => .error error after := by
  show EStateM.map change action state = _
  unfold EStateM.map
  cases action state <;> rfl

/-! ### Calls and replies -/

namespace Builder

/-- What a call answers. -/
inductive Reply where
  /-- The identifier of a variable type. -/
  | vtype (id : VarTypeId)
  /-- The number of a slot. -/
  | slot (index : UInt32)
  /-- The identifier of a register. -/
  | reg (id : RegId)
  /-- The identifier of a procedure type. -/
  | ptype (id : ProcTypeId)
  /-- The identifier of a procedure. -/
  | proc (id : ProcId)
  /-- The number of instructions of a procedure. -/
  | size (count : Nat)
  /-- A finished module. -/
  | finished (module : Module)
  /-- The identity of a registered module. -/
  | created (id : ModuleId)
deriving DecidableEq

/-- Carry out a call. -/
def Call.act : Call → Build Reply
  | varType count bytes => Reply.vtype <$> addVarType count bytes
  | ownedSlot vtype target => Reply.slot <$> addOwnedSlot vtype target
  | nativeSlot vtype ptype => Reply.slot <$> addNativeSlot vtype ptype
  | reg vtype count flags => Reply.reg <$> addReg vtype count flags
  | constReg vtype init => Reply.reg <$> addConstReg vtype init
  | procType flags io => Reply.ptype <$> addProcType flags io
  | proc flags ptype => Reply.proc <$> addProc flags ptype
  | instruction target appended => Reply.size <$> addInstruction target appended
  | finish id => Reply.finished <$> Builder.finish id

/-! ### Failing before changing -/

/-- An action that fails has changed nothing. -/
def Careful {α : Type} (action : Build α) : Prop :=
  ∀ builder error after, action builder = .error error after → after = builder

section
variable {α β : Type}

/-- An action that cannot fail. -/
theorem careful_of_ok {action : Build α}
    (succeeds : ∀ builder, ∃ value after, action builder = .ok value after) : Careful action := by
  intro builder error after failed
  obtain ⟨value, changed, done⟩ := succeeds builder
  rw [done] at failed
  cases failed

/-- A check in front of a careful action. -/
theorem Careful.demand {check : Module → Except Error α} {next : α → Build β}
    (careful : ∀ value, Careful (next value)) : Careful (Builder.demand check >>= next) := by
  intro builder error after failed
  unfold Builder.demand at failed
  rw [bind_apply, get_bind_apply] at failed
  cases checked : check builder.module with
  | error reason =>
      rw [checked] at failed
      cases failed
      rfl
  | ok value =>
      rw [checked] at failed
      exact careful value builder error after failed

/-- A careful action whose value is looked at in another way. -/
theorem Careful.map {action : Build α} (careful : Careful action) (change : α → β) :
    Careful (change <$> action) := by
  intro builder error after failed
  rw [map_apply] at failed
  cases done : action builder with
  | ok value changed =>
      rw [done] at failed
      cases failed
  | error reason changed =>
      rw [done] at failed
      cases failed
      exact careful builder error after done

end

/-- Declaring a checked register. -/
theorem careful_pushReg (spec : RegSpec) : Careful (pushReg spec) :=
  Careful.demand fun _ => careful_of_ok fun _ => ⟨_, _, rfl⟩

/-- Finishing. -/
theorem careful_finish (id : ModuleId) : Careful (Builder.finish id) :=
  Careful.demand fun _ => careful_of_ok fun _ => ⟨_, _, rfl⟩

/-- **Every call checks before it changes.** -/
theorem careful_act (call : Call) : Careful call.act := by
  cases call with
  | varType count bytes =>
      refine Careful.map ?_ _
      unfold addVarType
      split
      · rintro builder error after ⟨⟩
        rfl
      · exact careful_of_ok fun _ => ⟨_, _, rfl⟩
  | ownedSlot | nativeSlot =>
      refine Careful.map
        (Careful.demand fun _ => Careful.demand fun _ => Careful.demand fun _ => ?_) _
      exact careful_of_ok fun _ => ⟨_, _, rfl⟩
  | reg | constReg => exact (Careful.demand careful_pushReg).map _
  | procType | proc =>
      exact (Careful.demand fun _ => careful_of_ok fun _ => ⟨_, _, rfl⟩).map _
  | finish id => exact (careful_finish id).map _
  | instruction target appended =>
      refine Careful.map ?_ _
      intro builder error after failed
      unfold addInstruction at failed
      rw [get_bind_apply] at failed
      cases checked : builder.checkInstruction target appended with
      | error reason =>
          rw [checked] at failed
          cases failed
          rfl
      | ok update =>
          rw [checked] at failed
          cases failed

/-- Finishing looks at the module once. -/
theorem finish_apply (id : ModuleId) (builder : Builder) :
    finish id builder =
      match verifyModule builder.module with
      | .ok _ => .ok { builder.module with id } initial
      | .error error => .error error builder := by
  unfold finish demand
  rw [bind_apply, get_bind_apply]
  cases verifyModule builder.module <;> rfl

end Builder

/-- A value that is taken out and put back. -/
theorem Slots.put_erase {α : Type} {slots : Slots α} {id : Nat} {value : α}
    (found : slots.get? id = some value) : (slots.erase id).put id value = slots := by
  obtain ⟨cells⟩ := slots
  have cell : cells[id]? = some (some value) := Option.join_eq_some_iff.mp found
  unfold erase put
  congr 1
  apply Array.ext_getElem?
  intro other
  rw [Array.getElem?_setIfInBounds, Array.size_setIfInBounds, Array.getElem?_setIfInBounds]
  obtain ⟨inside, -⟩ := Array.getElem?_eq_some_iff.mp cell
  by_cases same : id = other
  · subst same
    rw [if_pos rfl, if_pos inside, cell]
  · rw [if_neg same, if_neg same]

/-! ### Operations of a host -/

namespace Host

/-- What can be asked of a builder of a host. -/
inductive Operation where
  /-- To carry out a call. -/
  | call (builder : Nat) (call : Builder.Call)
  /-- To finish the module under construction and register it. -/
  | create (builder : Nat) (fresh : ModuleId)

namespace Operation

/-- The builder that is asked. -/
def builder : Operation → Nat
  | call builder _ | create builder _ => builder

/-- Carry out an operation. -/
def perform : Operation → HostM Builder.Reply
  | call builder (.finish fresh) => Builder.Reply.finished <$> Host.finish builder fresh
  | call builder asked => Host.build builder asked.act
  | create builder fresh => (fun _ => Builder.Reply.created fresh) <$> Host.create builder fresh

/-- What an operation does to a builder: the reply, the changed builder, and the module that is to
be registered, if any. -/
def effect (operation : Operation) (builder : Builder) :
    Except Error (Builder.Reply × Builder × Option Module) :=
  match operation with
  | call _ asked =>
      match asked.act builder with
      | .ok reply changed => .ok (reply, changed, none)
      | .error error _ => .error error
  | create _ fresh =>
      match Builder.finish fresh builder with
      | .ok module changed => .ok (.created fresh, changed, some module)
      | .error error _ => .error error

end Operation

/-- The registries after a module has been registered in one of them, if there is one to be. -/
def enroll (registries : Slots Registry) (registry : Nat) : Option Module → Slots Registry
  | none => registries
  | some module => registries.modify registry (·.insert module)

/-- The host after an operation that has succeeded, with what has been reported. -/
def changed (host : Host) (key : Nat) (bench : Workbench) (builder : Builder)
    (module : Option Module) (events : List Event) : Host :=
  { host with
    builders := (host.builders.erase key).put key ⟨bench.registry, builder⟩
    registries := enroll host.registries bench.registry module
    events }

section
variable {host : Host} {key : Nat} {bench : Workbench}

/-- A careful action on a builder fails and leaves the host as it is, or it changes the builder. -/
theorem build_eq {α : Type} (found : host.builders.get? key = some bench) {action : Build α}
    (careful : Builder.Careful action) :
    build key action host =
      match action bench.builder with
      | .ok value builder => .ok value (host.changed key bench builder none host.events)
      | .error error _ => .error error host := by
  rw [build_apply found]
  cases acted : action bench.builder with
  | ok value builder => rfl
  | error error builder =>
      obtain rfl := careful _ _ _ acted
      dsimp only
      rw [Slots.put_erase found]

/-- Finishing that fails leaves the host as it is; otherwise the builder starts anew. -/
theorem finish_eq (found : host.builders.get? key = some bench) (fresh : ModuleId) :
    match Builder.finish fresh bench.builder with
    | .ok module builder => ∃ events, Host.finish key fresh host =
        .ok module (host.changed key bench builder none events)
    | .error error _ => Host.finish key fresh host = .error error host := by
  have built := build_eq found (Builder.careful_finish fresh)
  unfold Host.finish
  cases finished : Builder.finish fresh bench.builder with
  | ok module builder =>
      rw [finished] at built
      refine ⟨.verified module.id module.vtypes.size module.regs.size module.procs.size
        :: host.events, ?_⟩
      rw [bind_apply, built]
      rfl
  | error error builder =>
      rw [finished] at built
      dsimp only
      rw [bind_apply, built]

/-- Registering that fails leaves the host as it is; otherwise the builder starts anew and the
module is registered. -/
theorem create_eq (found : host.builders.get? key = some bench) (fresh : ModuleId) :
    match Builder.finish fresh bench.builder with
    | .ok module builder => ∃ events, Host.create key fresh host =
        .ok () (host.changed key bench builder (some module) events)
    | .error error _ => Host.create key fresh host = .error error host := by
  have finishes := finish_eq found fresh
  unfold Host.create
  cases finished : Builder.finish fresh bench.builder with
  | ok module builder =>
      rw [finished] at finishes
      obtain ⟨events, finishes⟩ := finishes
      -- the registry is looked up once more, in the builder that has started anew
      have renewed : (host.changed key bench builder none events).workbench key =
          ⟨bench.registry, builder⟩ := by
        refine workbench_eq ?_
        show ((host.builders.erase key).put key _).get? key = _
        rw [Slots.get?_put, Slots.next_erase, if_pos ⟨rfl, Slots.lt_next_of_get? found⟩]
      refine ⟨.registered fresh :: events, ?_⟩
      rw [bind_apply, finishes]
      dsimp only
      rw [get_bind_apply, renewed]
      rfl
  | error error builder =>
      rw [finished] at finishes
      dsimp only at finishes ⊢
      rw [bind_apply, finishes]

/-- Any call but the last is made on the builder alone. -/
theorem Operation.perform_call {asked : Builder.Call}
    (unfinished : ∀ fresh, asked ≠ .finish fresh) :
    (Operation.call key asked).perform = Host.build key asked.act := by
  cases asked with
  | finish fresh => exact absurd rfl (unfinished fresh)
  | _ => rfl

/-- **What an operation does** is decided by its builder: it fails and leaves the host as it is, or
the builder changes, and a module may be registered. -/
theorem Operation.perform_eq {operation : Operation}
    (found : host.builders.get? operation.builder = some bench) :
    match operation.effect bench.builder with
    | .ok (reply, builder, module) => ∃ events, operation.perform host =
        .ok reply (host.changed operation.builder bench builder module events)
    | .error error => operation.perform host = .error error host := by
  cases operation with
  | create key fresh =>
      have creates := create_eq found fresh
      rw [effect, perform, map_apply]
      dsimp only [builder] at creates ⊢
      cases finished : Builder.finish fresh bench.builder with
      | ok module changed =>
          rw [finished] at creates
          obtain ⟨events, creates⟩ := creates
          exact ⟨events, by rw [creates]⟩
      | error error changed =>
          rw [finished] at creates
          dsimp only at creates ⊢
          rw [creates]
  | call key asked =>
      -- finishing is reported, and so it is more than a call of the builder
      rw [effect]
      by_cases isLast : ∃ fresh, asked = .finish fresh
      · obtain ⟨fresh, rfl⟩ := isLast
        have finishes := finish_eq found fresh
        rw [perform, map_apply, Builder.Call.act, map_apply]
        dsimp only [builder] at finishes ⊢
        cases finished : Builder.finish fresh bench.builder with
        | ok module changed =>
            rw [finished] at finishes
            obtain ⟨events, finishes⟩ := finishes
            exact ⟨events, by rw [finishes]⟩
        | error error changed =>
            rw [finished] at finishes
            dsimp only at finishes ⊢
            rw [finishes]
      · have built := build_eq found (Builder.careful_act asked)
        rw [perform_call fun fresh same => isLast ⟨fresh, same⟩]
        dsimp only [builder] at built ⊢
        rw [built]
        cases asked.act bench.builder with
        | ok reply changed => exact ⟨host.events, rfl⟩
        | error error changed => rfl

end

/-! ### Sequences of operations -/

/-- Carry out operations one after the other: each with what it has answered, and the host at the
end. -/
def trace : (operations : List Operation) → Host →
    List (Operation × Except Error Builder.Reply) × Host
  | [], host => ([], host)
  | operation :: operations, host =>
      let (later, final) := trace operations (host.after operation.perform)
      ((operation, host.outcome operation.perform) :: later, final)

/-- Whether an operation has succeeded. -/
def accepted (entry : Operation × Except Error Builder.Reply) : Bool := entry.2.isOk

/-- The builders that operations are about are there. -/
def Provides (host : Host) (operations : List Operation) : Prop :=
  ∀ operation ∈ operations, ∃ bench, host.builders.get? operation.builder = some bench

section
variable {host : Host} {operation : Operation} {operations : List Operation}

/-- Builders stay where they are. -/
theorem Provides.changed (provides : host.Provides operations) {key : Nat} {bench : Workbench}
    (found : host.builders.get? key = some bench) (builder : Builder) (module : Option Module)
    (events : List Event) : (host.changed key bench builder module events).Provides operations := by
  intro operation member
  show ∃ bench, ((host.builders.erase key).put key _).get? operation.builder = some bench
  rw [Slots.get?_put, Slots.next_erase, Slots.get?_erase]
  by_cases same : operation.builder = key
  · exact ⟨_, if_pos ⟨same, Slots.lt_next_of_get? found⟩⟩
  · rw [if_neg fun both => same both.1, if_neg same]
    exact provides operation member

/-- An operation that has failed is part of the trace, and the rest follows from the same host. -/
theorem trace_cons_of_error {error : Error} (failed : operation.perform host = .error error host) :
    trace (operation :: operations) host =
      ((operation, .error error) :: (trace operations host).1, (trace operations host).2) := by
  rw [trace, after, outcome, failed]

/-- An operation that has succeeded is part of the trace, and the rest follows from the host that it
has led to. -/
theorem trace_cons_of_ok {reply : Builder.Reply} {next : Host}
    (done : operation.perform host = .ok reply next) :
    trace (operation :: operations) host =
      ((operation, .ok reply) :: (trace operations next).1, (trace operations next).2) := by
  rw [trace, after, outcome, done]

/-- The trace has the operations that have been carried out. -/
theorem map_fst_trace (operations : List Operation) (host : Host) :
    (trace operations host).1.map Prod.fst = operations := by
  induction operations generalizing host with
  | nil => rfl
  | cons operation operations ih => exact congrArg (operation :: ·) (ih _)

/-- **Operations that have failed can be left out**: all others answer as before, and the host at
the end is the same. -/
theorem trace_accepted (provides : host.Provides operations) :
    trace (((trace operations host).1.filter accepted).map Prod.fst) host =
      ((trace operations host).1.filter accepted, (trace operations host).2) := by
  induction operations generalizing host with
  | nil => rfl
  | cons operation operations ih =>
      obtain ⟨⟨bench, found⟩, providesLater⟩ := List.forall_mem_cons.mp provides
      have performs := Operation.perform_eq found
      cases effect : operation.effect bench.builder with
      | error error =>
          rw [effect] at performs
          -- the host is as before, so the others may come next
          rw [trace_cons_of_error performs]
          exact ih providesLater
      | ok result =>
          obtain ⟨reply, builder, module⟩ := result
          rw [effect] at performs
          obtain ⟨events, performs⟩ := performs
          rw [trace_cons_of_ok performs]
          have later := ih (Provides.changed providesLater found builder module events)
          rw [List.filter_cons_of_pos rfl, List.map_cons, trace_cons_of_ok performs, later]

end

end Host

/-! ### Generated identities -/

section
variable (naming : ModuleId → ModuleId)

/-- A description under another identity. -/
def Module.rename (module : Module) : Module := { module with id := naming module.id }

/-- A stage with modules under other identities. -/
def Stage.rename : Stage → Stage
  | structural module => .structural (module.rename naming)
  | compiled module program =>
      .compiled (module.rename naming) { program with module := naming program.module }
  | destroyed => .destroyed

/-- An entry under another identity. -/
def Entry.rename (entry : Entry) : Entry :=
  { entry with id := naming entry.id, stage := entry.stage.rename naming }

/-- A registry with its modules under other identities. -/
def Registry.rename (registry : Registry) : Registry :=
  { registry with entries := registry.entries.map (Entry.rename naming) }

/-- A reply with generated identities replaced. -/
def Builder.Reply.rename : Reply → Reply
  | finished module => .finished (module.rename naming)
  | created id => .created (naming id)
  | reply => reply

/-- A call that is given another identity for the module that it finishes. -/
def Builder.Call.rename : Call → Call
  | finish id => .finish (naming id)
  | call => call

/-- An operation that is given another identity for the module that it finishes. -/
def Host.Operation.rename : Operation → Operation
  | call builder asked => .call builder (asked.rename naming)
  | create builder fresh => .create builder (naming fresh)

end

section
variable {naming : ModuleId → ModuleId}

/-- Registering a module under another identity. -/
theorem Registry.rename_insert (injective : Function.Injective naming) (registry : Registry)
    (module : Module) :
    (registry.insert module).rename naming =
      (registry.rename naming).insert (module.rename naming) := by
  have others : (registry.entries.filter fun entry => entry.id != module.id).map
      (Entry.rename naming) = (registry.entries.map (Entry.rename naming)).filter
        fun entry => entry.id != naming module.id := by
    rw [List.filter_map]
    congr 1
    refine List.filter_congr fun entry _ => ?_
    show (entry.id != module.id) = (naming entry.id != naming module.id)
    rw [Bool.eq_iff_iff, bne_iff_ne, bne_iff_ne, Ne, Ne, injective.eq_iff]
  unfold Registry.rename Registry.insert
  dsimp only
  rw [List.map_cons, others]
  rfl

/-- Replies without a generated identity stay as they are. -/
theorem Builder.Reply.rename_map {α : Type} {wrap : α → Reply}
    (plain : ∀ value, (wrap value).rename naming = wrap value) (action : Build α) :
    (wrap <$> action : Build Reply) = Reply.rename naming <$> wrap <$> action := by
  funext builder
  rw [map_apply, map_apply, map_apply]
  cases action builder with
  | ok value changed =>
      dsimp only
      rw [plain]
  | error error changed => rfl

/-- What a call does depends on the identity that it is given only in giving it. -/
theorem Builder.Call.act_rename (asked : Call) :
    (asked.rename naming).act = Reply.rename naming <$> asked.act := by
  cases asked with
  | finish id =>
      funext builder
      show (Reply.finished <$> Builder.finish (naming id)) builder =
        (Reply.rename naming <$> Reply.finished <$> Builder.finish id) builder
      rw [map_apply, map_apply, map_apply, finish_apply, finish_apply]
      cases verifyModule builder.module <;> rfl
  | varType | ownedSlot | nativeSlot | reg | constReg | procType | proc | instruction =>
      exact Reply.rename_map (fun _ => rfl) _

/-- The same of an operation. -/
theorem Host.Operation.effect_rename (operation : Operation) (builder : Builder) :
    (operation.rename naming).effect builder = (operation.effect builder).map
      fun (reply, changed, module) =>
        (reply.rename naming, changed, module.map (Module.rename naming)) := by
  cases operation with
  | call key asked =>
      rw [Operation.rename, effect, effect, Builder.Call.act_rename, map_apply]
      cases asked.act builder <;> rfl
  | create key fresh =>
      rw [Operation.rename, effect, effect, Builder.finish_apply, Builder.finish_apply]
      cases verifyModule builder.module <;> rfl

/-! ### Operations under other identities -/

/-- The other host has the same builders, and the same registries with modules under other
identities. -/
structure Host.Renamed (naming : ModuleId → ModuleId) (host other : Host) : Prop where
  /-- The builders are the same. -/
  builders : other.builders = host.builders
  /-- The registries are renamed. -/
  registries : ∀ key, other.registries.get? key =
    (host.registries.get? key).map (Registry.rename naming)

/-- An entry of a trace with generated identities replaced. -/
def Host.renameEntry (naming : ModuleId → ModuleId)
    (entry : Operation × Except Error Builder.Reply) : Operation × Except Error Builder.Reply :=
  (entry.1.rename naming, entry.2.map (Builder.Reply.rename naming))

/-- The same change under other identities. -/
theorem Host.Renamed.changed {host other : Host} (renamed : Renamed naming host other)
    (injective : Function.Injective naming) (key : Nat) (bench : Workbench) (builder : Builder)
    (module : Option Module) (events otherEvents : List Event) :
    Renamed naming (host.changed key bench builder module events)
      (other.changed key bench builder (module.map (Module.rename naming)) otherEvents) := by
  refine ⟨?_, ?_⟩
  · show (other.builders.erase key).put key _ = (host.builders.erase key).put key _
    rw [renamed.builders]
  · intro registry
    cases module with
    | none => exact renamed.registries registry
    | some module =>
        show (other.registries.modify bench.registry
            (·.insert (module.rename naming))).get? registry =
          ((host.registries.modify bench.registry (·.insert module)).get? registry).map _
        rw [Slots.get?_modify, Slots.get?_modify, renamed.registries]
        by_cases same : registry = bench.registry
        · -- distinct identities stay distinct, so the module takes the place of the same one
          rw [if_pos same, if_pos same, Option.map_map, Option.map_map]
          refine congrArg (Option.map · _) (funext fun found => ?_)
          exact (found.rename_insert injective module).symm
        · rw [if_neg same, if_neg same]

/-- **Operations under other identities** answer alike, and lead to hosts that differ in these
identities only. -/
theorem Host.Renamed.trace {host other : Host} (renamed : Renamed naming host other)
    (injective : Function.Injective naming) {operations : List Operation}
    (provides : host.Provides operations) :
    ∃ last, Host.trace (operations.map (Operation.rename naming)) other =
        ((Host.trace operations host).1.map (renameEntry naming), last) ∧
      Renamed naming (Host.trace operations host).2 last := by
  induction operations generalizing host other with
  | nil => exact ⟨other, rfl, renamed⟩
  | cons operation operations ih =>
      obtain ⟨⟨bench, found⟩, providesLater⟩ := List.forall_mem_cons.mp provides
      have sameBuilder : (operation.rename naming).builder = operation.builder := by
        cases operation <;> rfl
      have foundOther : other.builders.get? (operation.rename naming).builder = some bench := by
        rw [sameBuilder, renamed.builders]
        exact found
      have performs := Operation.perform_eq found
      have performsOther := Operation.perform_eq foundOther
      rw [Operation.effect_rename] at performsOther
      cases effect : operation.effect bench.builder with
      | error error =>
          rw [effect] at performs performsOther
          obtain ⟨last, later, renamedLast⟩ := ih renamed providesLater
          refine ⟨last, ?_, ?_⟩
          · rw [List.map_cons, trace_cons_of_error performsOther, trace_cons_of_error performs,
              later]
            rfl
          · rw [trace_cons_of_error performs]
            exact renamedLast
      | ok result =>
          obtain ⟨reply, builder, module⟩ := result
          rw [effect] at performs performsOther
          obtain ⟨events, performs⟩ := performs
          obtain ⟨otherEvents, performsOther⟩ := performsOther
          rw [sameBuilder] at performsOther
          obtain ⟨last, later, renamedLast⟩ :=
            ih (renamed.changed injective operation.builder bench builder module events otherEvents)
              (Provides.changed providesLater found builder module events)
          refine ⟨last, ?_, ?_⟩
          · rw [List.map_cons, trace_cons_of_ok performsOther, trace_cons_of_ok performs, later]
            rfl
          · rw [trace_cons_of_ok performs]
            exact renamedLast

end

/-! ### The calls that have failed -/

/-- **Rejected calls leave no trace.** Of any sequence of operations on builders that are there,
those that have failed can be left out: the others answer with the same values, and the host is the
same in the end, with its builders, their trackers and all registries. And if generated identities
come out differently the second time, the values and the registries differ in these identities only,
and the builders not at all. -/
theorem rejected_calls_leave_no_trace {host : Host} {operations : List Host.Operation}
    (provides : host.Provides operations)
    {trace : List (Host.Operation × Except Error Builder.Reply)} {final : Host}
    (runs : Host.trace operations host = (trace, final)) :
    Host.trace ((trace.filter Host.accepted).map Prod.fst) host =
      (trace.filter Host.accepted, final) ∧
    ∀ naming : ModuleId → ModuleId, Function.Injective naming →
      (∀ key registry, host.registries.get? key = some registry →
        registry.rename naming = registry) →
      ∃ last, Host.trace (((trace.filter Host.accepted).map Prod.fst).map
          (Host.Operation.rename naming)) host =
          ((trace.filter Host.accepted).map (Host.renameEntry naming), last) ∧
        last.builders = final.builders ∧
        ∀ key, last.registries.get? key =
          (final.registries.get? key).map (Registry.rename naming) := by
  have again := Host.trace_accepted provides
  rw [runs] at again
  refine ⟨again, fun naming injective kept => ?_⟩
  have renamed : Host.Renamed naming host host := by
    refine ⟨rfl, fun key => ?_⟩
    cases found : host.registries.get? key with
    | none => rfl
    | some registry => rw [Option.map_some, kept key registry found]
  have providesAgain : host.Provides ((trace.filter Host.accepted).map Prod.fst) := by
    intro operation member
    have isOne : operation ∈ trace.map Prod.fst := (List.filter_sublist.map _).subset member
    have operationsOf := Host.map_fst_trace operations host
    rw [runs] at operationsOf
    exact provides operation (operationsOf ▸ isOne)
  obtain ⟨last, later, renamedLast⟩ := renamed.trace injective providesAgain
  rw [again] at later renamedLast
  exact ⟨last, later, renamedLast.builders, renamedLast.registries⟩

namespace Samples

/-- A host with a registry and a builder for it. -/
def workshop : Host :=
  (Host.empty.after (Host.newRegistry (.interpreter 10))).after (Host.newBuilder 0 Builder.initial)

/-- A procedure that returns at once is built, with four calls that are rejected on the way: a
register of an unknown type, an instruction that closes a scope which is not open, and twice a
module that is not finished. -/
def clumsy (fresh : ModuleId) : List Host.Operation :=
  [.call 0 (.reg ⟨7⟩ 0 Flags.empty),
    .call 0 (.reg VarTypeId.word 0 Flags.empty),
    .call 0 (.procType entryFlags (reg 1)),
    .call 0 (.proc Flags.empty ⟨0⟩),
    .call 0 (.finish fresh),
    .call 0 (.instruction entry (.frs (reg 1))),
    .create 0 fresh,
    .call 0 (.instruction entry .ret),
    .create 0 fresh]

end Samples

/-- Four of the nine calls are rejected; without them the other five register the same module, and
under another identity if they are given another one. -/
theorem clumsy_traceless :
    ∃ trace final last, Host.trace (Samples.clumsy ⟨1⟩) Samples.workshop = (trace, final) ∧
      trace.map Host.accepted = [false, true, true, true, false, false, false, true, true] ∧
      Host.trace ((trace.filter Host.accepted).map Prod.fst) Samples.workshop =
        (trace.filter Host.accepted, final) ∧
      Host.trace (((trace.filter Host.accepted).map Prod.fst).map
          (Host.Operation.rename fun id => ⟨id.bits + 1⟩)) Samples.workshop =
        ((trace.filter Host.accepted).map (Host.renameEntry fun id => ⟨id.bits + 1⟩), last) ∧
      (final.registries.get? 0).map Registry.liveIds = some [⟨1⟩] ∧
      (last.registries.get? 0).map Registry.liveIds = some [⟨2⟩] := by
  have provides : Samples.workshop.Provides (Samples.clumsy ⟨1⟩) := by
    have all : ∀ operation ∈ Samples.clumsy ⟨1⟩, operation.builder = 0 := by
      simp [Samples.clumsy, Host.Operation.builder]
    intro operation member
    rw [all operation member]
    exact ⟨⟨0, Builder.initial⟩, rfl⟩
  have injective : Function.Injective fun id : ModuleId => (⟨id.bits + 1⟩ : ModuleId) := by
    rintro ⟨first⟩ ⟨second⟩ same
    exact congrArg ModuleId.mk ((BitVec.add_left_inj 1).mp (congrArg ModuleId.bits same))
  have kept : ∀ key registry, Samples.workshop.registries.get? key = some registry →
      registry.rename (fun id => ⟨id.bits + 1⟩) = registry := by
    intro key registry found
    have registries : Samples.workshop.registries =
        Slots.empty.insert (Registry.empty (.interpreter 10)) := rfl
    rw [registries, Slots.get?_insert, Slots.get?_empty] at found
    split at found
    · cases found
      rfl
    · cases found
  obtain ⟨again, others⟩ := rejected_calls_leave_no_trace provides rfl
  obtain ⟨last, renamed, -, registries⟩ := others _ injective kept
  refine ⟨_, _, last, rfl, by decide +kernel, again, renamed, by decide +kernel, ?_⟩
  rw [registries]
  decide +kernel

end ScopeMachine
