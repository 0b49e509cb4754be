import ScopeMachine.Proofs.Bookkeeping

/-! # References, handles and errands

How references to modules are taken and given back, on their own and by handles, and what is done to
modules meanwhile. Each operation is described by what it makes of a host, and then by what that
does to the books.

* `Host.leads_create` registers a module;
* `Host.leads_resolve` and `Host.leads_releaseHandle` take and give back the reference of a handle;
* `Host.unpackModule_cases`, `Host.packModule_cases` and `Host.destroyModule_cases` say what becomes
  of a module in each of its stages;
* `Host.leads_ask` puts together all that can be asked of a module, by a reference or a handle. -/

namespace ScopeMachine

open Books

namespace Host

open Tables

/-! ### Registering -/

section
variable {host : Host} {key : Nat} {bench : Workbench}

/-- Registering a module makes an entry for it, if it is the first of its identity. -/
theorem leads_create {record : Nat → ModuleId → List Deed} (orderly : host.tables.Orderly record)
    (found : host.builders.get? key = some bench) {fresh : ModuleId}
    (first : ¬ Registered (record bench.registry fresh)) :
    Leads host.tables
      (if host.succeeds (create key fresh) then
        only bench.registry fresh [.registered { bench.builder.module with id := fresh }]
      else nothing)
      (host.after (create key fresh)).tables := by
  have grounded := orderly.grounded
  obtain ⟨has, reachable⟩ := grounded.builders found
  rcases create_apply found fresh with ⟨error, failed⟩ | ⟨events, -, registers⟩
  · simp only [after, succeeds, failed]
    exact leads_build grounded found reachable
  · simp only [after, succeeds, registers, if_true]
    have built := leads_build grounded found Builder.Reachable.initial
    refine built.then ?_
    obtain ⟨registry, isRegistry⟩ := Option.isSome_iff_exists.mp has
    -- nothing of the module is in the books before
    have agrees := orderly.agrees fresh has
    have empty : registry.find? fresh = none ∧ host.tables.liveRefs bench.registry fresh = 0 := by
      unfold books at agrees
      rw [isRegistry, Option.bind_some] at agrees
      generalize registry.find? fresh = entry at agrees ⊢
      generalize host.tables.liveRefs bench.registry fresh = live at agrees ⊢
      generalize record bench.registry fresh = deeds at agrees first
      cases agrees with
      | unknown | erased => exact ⟨rfl, rfl⟩
      | living named | lingering named => exact absurd ⟨_, (named _).mpr rfl⟩ first
    refine built.grounded.leads_modify isRegistry rfl
      ((grounded.distinct isRegistry).insert _) ?_ (fun _ _ _ => rfl) ?_
      ⟨built.grounded.held, built.grounded.builders, built.grounded.handles, built.grounded.refs⟩
    · intro other differs
      rw [Registry.find?_insert, if_neg differs]
    · show Course ⟨registry.find? fresh, host.tables.liveRefs bench.registry fresh⟩ _
        ⟨_, host.tables.liveRefs bench.registry fresh⟩
      rw [empty.1, empty.2, Registry.find?_insert, if_pos rfl]
      exact (Step.registers _).course

end

/-! ### References -/

section
variable {host : Host} {key : Nat} {id : ModuleId}

/-- The registry with a given identity. -/
theorem registry_eq {registry : Registry} (found : host.registries.get? key = some registry) :
    host.registry key = registry := by
  rw [Host.registry, found]
  rfl

/-- What taking a reference does. -/
theorem newRef_apply (host : Host) (key : Nat) (id : ModuleId) :
    newRef key id host =
      match (host.registry key).retain? id with
      | none => .ok none host
      | some retained => .ok (some host.refs.next) { host with
          registries := host.registries.modify key fun _ => retained
          refs := host.refs.insert ⟨key, id⟩ } := by
  unfold newRef retainModule
  rw [bind_apply, get_bind_apply]
  cases (host.registry key).retain? id <;> rfl

/-- A reference is taken. -/
theorem leads_newRef (grounded : host.tables.Grounded) (has : host.tables.Has key) :
    Leads host.tables nothing (host.after (newRef key id)).tables := by
  obtain ⟨registry, found⟩ := Option.isSome_iff_exists.mp has
  unfold after
  rw [newRef_apply, registry_eq found]
  cases retains : registry.retain? id with
  | none => exact .refl grounded
  | some retained =>
      refine grounded.leads_take found retains rfl ?_ ⟨grounded.held, grounded.builders,
        grounded.handles, ?_⟩
      · intro otherKey other
        simp only [Tables.liveRefs, Host.tables, Slots.count_values_insert, ModuleRef.mk.injEq,
          eq_comm (a := key), eq_comm (a := id)]
        omega
      · intro otherKey ref isRef
        have isRef : (host.refs.insert ⟨key, id⟩).get? otherKey = some ref := isRef
        rw [Slots.get?_insert] at isRef
        split at isRef
        · cases isRef
          exact has
        · exact grounded.refs isRef

/-- What giving a reference back does to a registry. -/
theorem releaseModule_apply (host : Host) (key : Nat) (id : ModuleId) :
    ∃ events, releaseModule key id host = .ok () { host with
      registries := host.registries.modify key (·.release id)
      events } := by
  unfold releaseModule
  rw [get_bind_apply]
  cases (host.registry key).isLastRelease id with
  | true => exact ⟨.erased id :: host.events, rfl⟩
  | false => exact ⟨host.events, rfl⟩

/-- A reference is given back. -/
theorem leads_dropRef {record : Nat → ModuleId → List Deed} (orderly : host.tables.Orderly record)
    {ref : ModuleRef} (found : host.refs.get? key = some ref) :
    Leads host.tables nothing (host.after (dropRef key)).tables := by
  have grounded := orderly.grounded
  have live : ∀ otherKey other, (host.refs.erase key).values.count ⟨otherKey, other⟩ +
      host.handles.values.count ⟨otherKey, other, true⟩ +
        (if otherKey = ref.registry ∧ other = ref.module then 1 else 0) =
          host.tables.liveRefs otherKey other := by
    intro otherKey other
    have counted := Slots.count_values_erase found ⟨otherKey, other⟩
    have same : (ref = ⟨otherKey, other⟩) = (otherKey = ref.registry ∧ other = ref.module) := by
      obtain ⟨registry, module⟩ := ref
      simp only [ModuleRef.mk.injEq, eq_comm]
    simp only [same] at counted
    simp only [Tables.liveRefs, Host.tables]
    omega
  have held : 0 < host.tables.liveRefs ref.registry ref.module := by
    rw [← live, if_pos ⟨rfl, rfl⟩]
    omega
  obtain ⟨registry, entry, isRegistry, isEntry, enough⟩ :=
    orderly.exists_entry (grounded.refs found) held
  let without : Host := { host with refs := host.refs.erase key }
  obtain ⟨events, releases⟩ := releaseModule_apply without ref.registry ref.module
  let middle : Host := { without with
    registries := host.registries.modify ref.registry (·.release ref.module)
    events }
  have leads : Leads host.tables nothing middle.tables := by
    refine grounded.leads_giveBack isRegistry isEntry enough rfl live ⟨grounded.held,
      grounded.builders, grounded.handles, ?_⟩
    intro otherKey other isRef
    have isRef : (host.refs.erase key).get? otherKey = some other := isRef
    rw [Slots.get?_erase] at isRef
    split at isRef
    · cases isRef
    · exact grounded.refs isRef
  have same : host.after (dropRef key) = middle.after (retireRegistry ref.registry) := by
    have drops : dropRef key host =
        (releaseModule ref.registry ref.module >>= fun _ =>
          retireRegistry ref.registry) without := by
      unfold dropRef
      rw [get_bind_apply, found]
      rfl
    unfold after
    rw [drops, bind_apply, releases]
  rw [same]
  exact leads.then (leads_retireRegistry leads.grounded)

end

/-! ### Handles -/

section
variable {host : Host} {key : Nat} {handle : Handle}

/-- The handle with a given identity. -/
theorem handle_eq (found : host.handles.get? key = some handle) : host.handle key = handle := by
  rw [Host.handle, found]
  rfl

/-- A handle that holds no reference enters. -/
theorem leads_newHandle {id : ModuleId} (grounded : host.tables.Grounded)
    (has : host.tables.Has key) :
    Leads host.tables nothing (host.after (newHandle key id)).tables := by
  refine grounded.leads_tables rfl ?_ ⟨grounded.held, grounded.builders, ?_, grounded.refs⟩
  · intro otherKey other
    show host.refs.values.count _ + (host.handles.insert ⟨key, id, false⟩).values.count _ = _
    rw [Slots.count_values_insert, if_neg (by simp)]
    rfl
  · intro otherKey other isHandle
    have isHandle : (host.handles.insert ⟨key, id, false⟩).get? otherKey = some other := isHandle
    rw [Slots.get?_insert] at isHandle
    split at isHandle
    · cases isHandle
      exact has
    · exact grounded.handles isHandle

/-- A handle is there twice. -/
theorem leads_cloneHandle (grounded : host.tables.Grounded)
    (found : host.handles.get? key = some handle) :
    Leads host.tables nothing (host.after (cloneHandle key)).tables := by
  have same : host.after (cloneHandle key) =
      host.after (newHandle handle.registry handle.module) := by
    unfold cloneHandle after
    rw [get_bind_apply, handle_eq found]
  rw [same]
  exact leads_newHandle grounded (grounded.handles found)

/-- A handle is there if another has been changed. -/
theorem rooted_modifyHandle (grounded : host.tables.Grounded)
    (found : host.handles.get? key = some handle) {change : Handle → Handle}
    (same : (change handle).registry = handle.registry) (registries : Slots Registry) :
    Rooted { host.tables with registries, handles := host.handles.modify key change }
      host.tables.Has := by
  refine ⟨grounded.held, grounded.builders, ?_, grounded.refs⟩
  intro otherKey other isHandle
  dsimp only at isHandle
  rw [Slots.get?_modify] at isHandle
  split at isHandle
  next isKey =>
    rw [isKey, found] at isHandle
    cases isHandle
    rw [same]
    exact grounded.handles found
  next => exact grounded.handles isHandle

/-- What resolving a handle does. -/
theorem resolve_apply (found : host.handles.get? key = some handle) :
    resolve key host =
      if handle.resolved then .ok handle host
      else match (host.registry handle.registry).retain? handle.module with
        | none => .error (.missing (.unregistered handle.module)) host
        | some retained => .ok { handle with resolved := true } { host with
            registries := host.registries.modify handle.registry fun _ => retained
            handles := host.handles.modify key ({ · with resolved := true }) } := by
  unfold resolve retainModule
  rw [get_bind_apply, handle_eq found]
  cases handle.resolved with
  | true => rfl
  | false =>
      show ((get >>= fun host => _ : HostM Bool) >>= _) host = _
      rw [bind_apply, get_bind_apply]
      cases (host.registry handle.registry).retain? handle.module <;> rfl

/-- A handle that has been resolved is found so. -/
theorem get?_of_resolve {resolved : Handle} {after : Host}
    (found : host.handles.get? key = some handle)
    (resolves : resolve key host = .ok resolved after) :
    after.handles.get? key = some resolved := by
  rw [resolve_apply found] at resolves
  split at resolves
  · cases resolves
    exact found
  · split at resolves
    · cases resolves
    · cases resolves
      dsimp only
      rw [Slots.get?_modify, if_pos rfl, found]
      rfl

/-- **Resolving a handle.** It takes a reference unless the handle holds one, or fails and changes
nothing. -/
theorem leads_resolve (grounded : host.tables.Grounded)
    (found : host.handles.get? key = some handle) :
    (∃ middle, resolve key host = .ok { handle with resolved := true } middle ∧
      middle.store = host.store ∧
      middle.handles.get? key = some { handle with resolved := true } ∧
      Leads host.tables nothing middle.tables) ∨
    (handle.resolved = false ∧ (host.registry handle.registry).retain? handle.module = none ∧
      resolve key host = .error (.missing (.unregistered handle.module)) host) := by
  rw [resolve_apply found]
  cases resolved : handle.resolved with
  | true =>
      have same : { handle with resolved := true } = handle := by
        rw [← resolved]
      rw [same]
      exact .inl ⟨host, rfl, rfl, found, .refl grounded⟩
  | false =>
      obtain ⟨registry, isRegistry⟩ := Option.isSome_iff_exists.mp (grounded.handles found)
      rw [if_neg (by decide), registry_eq isRegistry]
      cases retains : registry.retain? handle.module with
      | none => exact .inr ⟨rfl, rfl, rfl⟩
      | some retained =>
          refine .inl ⟨_, rfl, rfl, ?_, ?_⟩
          · dsimp only
            rw [Slots.get?_modify, if_pos rfl, found]
            rfl
          · refine grounded.leads_take isRegistry retains rfl ?_
              (rooted_modifyHandle grounded found rfl _)
            intro otherKey other
            have counted := Slots.count_values_modify found ({ · with resolved := true })
              ⟨otherKey, other, true⟩
            have before : ¬ handle = ⟨otherKey, other, true⟩ := by
              rintro rfl
              cases resolved
            have now : ({ handle with resolved := true } = (⟨otherKey, other, true⟩ : Handle)) =
                (otherKey = handle.registry ∧ other = handle.module) := by
              simp only [Handle.mk.injEq, and_true, eq_comm]
            simp only [before, now, if_false] at counted
            simp only [Tables.liveRefs, Host.tables]
            omega

/-- A handle that holds a reference is counted. -/
theorem liveRefs_pos (found : host.handles.get? key = some handle)
    (resolved : handle.resolved = true) :
    0 < host.tables.liveRefs handle.registry handle.module := by
  have counted := Slots.count_values_erase found handle
  rw [if_pos rfl] at counted
  have same : (⟨handle.registry, handle.module, true⟩ : Handle) = handle := by
    rw [← resolved]
  simp only [Tables.liveRefs, Host.tables, same]
  omega

/-- **Releasing a handle.** It gives back the reference that the handle holds, if any. -/
theorem leads_releaseHandle {record : Nat → ModuleId → List Deed}
    (orderly : host.tables.Orderly record) (found : host.handles.get? key = some handle) :
    ∃ after, releaseHandle key host = .ok () after ∧ after.store = host.store ∧
      after.handles.get? key = some { handle with resolved := false } ∧
      Leads host.tables nothing after.tables := by
  have grounded := orderly.grounded
  cases resolved : handle.resolved with
  | false =>
      have same : { handle with resolved := false } = handle := by
        rw [← resolved]
      refine ⟨host, ?_, rfl, same ▸ found, .refl grounded⟩
      unfold releaseHandle
      rw [get_bind_apply, handle_eq found, resolved]
      rfl
  | true =>
      have held := liveRefs_pos found resolved
      obtain ⟨registry, entry, isRegistry, isEntry, enough⟩ :=
        orderly.exists_entry (grounded.handles found) held
      let without : Host := { host with
        handles := host.handles.modify key ({ · with resolved := false }) }
      obtain ⟨events, releases⟩ := releaseModule_apply without handle.registry handle.module
      refine ⟨{ without with
        registries := host.registries.modify handle.registry (·.release handle.module)
        events }, ?_, rfl, ?_, ?_⟩
      · unfold releaseHandle
        rw [get_bind_apply, handle_eq found, resolved]
        exact releases
      · show (host.handles.modify key _).get? key = _
        rw [Slots.get?_modify, if_pos rfl, found]
        rfl
      · refine grounded.leads_giveBack isRegistry isEntry enough rfl ?_
          (rooted_modifyHandle grounded found rfl _)
        intro otherKey other
        have counted := Slots.count_values_modify found ({ · with resolved := false })
          ⟨otherKey, other, true⟩
        have before : (handle = ⟨otherKey, other, true⟩) =
            (otherKey = handle.registry ∧ other = handle.module) := by
          obtain ⟨registry, module, _⟩ := handle
          cases resolved
          simp only [Handle.mk.injEq, and_true, eq_comm]
        have now : ¬ { handle with resolved := false } = (⟨otherKey, other, true⟩ : Handle) := by
          simp
        simp only [before, now, if_false] at counted
        show host.refs.values.count _ + (host.handles.modify key _).values.count _ + _ =
          host.refs.values.count _ + host.handles.values.count _
        omega

/-- A handle that holds no reference is pointed at another module. -/
theorem leads_bindHandle {record : Nat → ModuleId → List Deed}
    (orderly : host.tables.Orderly record) (found : host.handles.get? key = some handle)
    (id : ModuleId) : Leads host.tables nothing (host.after (bindHandle key id)).tables := by
  obtain ⟨middle, released, -, isHandle, leads⟩ := leads_releaseHandle orderly found
  unfold bindHandle
  rw [after_bind, released]
  refine leads.then (leads.grounded.leads_tables rfl ?_
    (rooted_modifyHandle leads.grounded isHandle rfl _))
  intro otherKey other
  have counted := Slots.count_values_modify isHandle ({ · with module := id })
    ⟨otherKey, other, true⟩
  simp only [Handle.mk.injEq, and_false, if_false, Bool.false_eq_true] at counted
  exact congrArg (middle.refs.values.count _ + ·) counted

/-- A handle goes. -/
theorem leads_dropHandle {record : Nat → ModuleId → List Deed}
    (orderly : host.tables.Orderly record) (found : host.handles.get? key = some handle) :
    Leads host.tables nothing (host.after (dropHandle key)).tables := by
  obtain ⟨middle, released, -, isHandle, leads⟩ := leads_releaseHandle orderly found
  let without : Host := { middle with handles := middle.handles.erase key }
  have same : host.after (dropHandle key) = without.after (retireRegistry handle.registry) := by
    unfold dropHandle after
    rw [get_bind_apply, handle_eq found, bind_apply, released]
    rfl
  have erased : Leads middle.tables nothing without.tables := by
    refine leads.grounded.leads_tables rfl ?_ ⟨leads.grounded.held, leads.grounded.builders, ?_,
      leads.grounded.refs⟩
    · intro otherKey other
      have counted := Slots.count_values_erase isHandle ⟨otherKey, other, true⟩
      simp only [Handle.mk.injEq, and_false, if_false, Bool.false_eq_true] at counted
      exact congrArg (middle.refs.values.count _ + ·) counted
    · intro otherKey other isOther
      have isOther : (middle.handles.erase key).get? otherKey = some other := isOther
      rw [Slots.get?_erase] at isOther
      split at isOther
      · cases isOther
      · exact leads.grounded.handles isOther
  rw [same]
  exact (leads.then erased).then (leads_retireRegistry erased.grounded)

end

/-! ### Errands -/

section
variable {host : Host} {key : Nat} {id : ModuleId}

/-- The stage of a module is that of its entry. -/
theorem stage_eq {registry : Registry} {entry : Entry}
    (found : host.registries.get? key = some registry) (isEntry : registry.find? id = some entry) :
    host.stage key id = entry.stage := by
  rw [stage, registry_eq found, isEntry]
  rfl

/-- A module that is not destroyed has an entry. -/
theorem exists_entry_of_stage {stage : Stage} (isStage : host.stage key id = stage)
    (living : stage ≠ .destroyed) :
    ∃ registry entry, host.registries.get? key = some registry ∧
      registry.find? id = some entry ∧ entry.stage = stage := by
  unfold Host.stage Host.registry at isStage
  cases found : host.registries.get? key with
  | none =>
      rw [found] at isStage
      exact absurd isStage.symm living
  | some registry =>
      rw [found, Option.getD_some] at isStage
      cases isEntry : registry.find? id with
      | none =>
          rw [isEntry] at isStage
          exact absurd isStage.symm living
      | some entry =>
          rw [isEntry] at isStage
          exact ⟨registry, entry, rfl, isEntry, isStage⟩

/-- What compiling does to a host. -/
theorem compile_apply (module : Module) (maxCallDepth : Nat) (host : Host) :
    compile module maxCallDepth host =
      match Program.compile module maxCallDepth host.store with
      | .error error _ => .error error host
      | .ok program store => .ok program { host with
          store
          events := .compiled module.id program.procs.size :: host.events } := by
  unfold compile
  rw [get_bind_apply]
  cases Program.compile module maxCallDepth host.store <;> rfl

/-- **What asking for an executable form does.** A compiled module stays as it is, and a structural
one is compiled. Otherwise it fails, and nothing changes. -/
theorem unpackModule_cases (host : Host) (key : Nat) (id : ModuleId) :
    (∃ module program, host.stage key id = .compiled module program ∧
      unpackModule key id host = .ok () host) ∨
    (∃ module maxCallDepth program store events, host.stage key id = .structural module ∧
      (host.registry key).backend = .interpreter maxCallDepth ∧
      Program.compile module maxCallDepth host.store = .ok program store ∧
      unpackModule key id host = .ok () { host with
        store
        registries := host.registries.modify key (·.setStage id (.compiled module program))
        events }) ∨
    ∃ error, unpackModule key id host = .error error host := by
  unfold unpackModule
  simp only [get_bind_apply]
  cases isStage : host.stage key id with
  | compiled module program => exact .inl ⟨module, program, rfl, rfl⟩
  | destroyed => exact .inr (.inr ⟨_, rfl⟩)
  | structural module =>
      dsimp only
      rw [get_bind_apply]
      cases backend : (host.registry key).backend with
      | unavailable => exact .inr (.inr ⟨_, rfl⟩)
      | interpreter maxCallDepth =>
          dsimp only
          rw [bind_apply, compile_apply]
          cases compiled : Program.compile module maxCallDepth host.store with
          | error error store => exact .inr (.inr ⟨error, rfl⟩)
          | ok program store =>
              exact .inr (.inl ⟨module, maxCallDepth, program, store, _, rfl, rfl, compiled, rfl⟩)

/-- **What discarding the executable form does.** A structural module stays as it is, and a compiled
one becomes structural. For a destroyed one it fails, and nothing changes. -/
theorem packModule_cases (host : Host) (key : Nat) (id : ModuleId) :
    (∃ module, host.stage key id = .structural module ∧ packModule key id host = .ok () host) ∨
    (∃ module program store events, host.stage key id = .compiled module program ∧
      packModule key id host = .ok () { host with
        store
        registries := host.registries.modify key (·.setStage id (.structural module))
        events }) ∨
    (host.stage key id = .destroyed ∧
      packModule key id host = .error (.missing (.destroyed id)) host) := by
  unfold packModule
  simp only [get_bind_apply]
  cases isStage : host.stage key id with
  | structural module => exact .inl ⟨module, rfl, rfl⟩
  | compiled module program => exact .inr (.inl ⟨module, program, _, _, rfl, rfl⟩)
  | destroyed => exact .inr (.inr ⟨rfl, rfl⟩)

/-- **What destroying does.** A module that is not destroyed is marked in both ways. For one that
is, it fails, and nothing changes. -/
theorem destroyModule_cases (host : Host) (key : Nat) (id : ModuleId) :
    (host.stage key id ≠ .destroyed ∧ ∃ store events, destroyModule key id host = .ok () { host with
      store
      registries := host.registries.modify key (·.destroy id)
      events }) ∨
    (host.stage key id = .destroyed ∧
      destroyModule key id host = .error (.missing (.destroyed id)) host) := by
  unfold destroyModule
  rw [bind_apply]
  rcases packModule_cases host key id with
    ⟨module, isStage, packed⟩ | ⟨module, program, store, events, isStage, packed⟩ |
      ⟨isStage, failed⟩
  · rw [packed, isStage]
    exact .inl ⟨by simp, host.store, .destroyed id :: host.events, rfl⟩
  · rw [packed, isStage]
    refine .inl ⟨by simp, store, .destroyed id :: events, ?_⟩
    have once : (host.registries.modify key (·.setStage id (.structural module))).modify key
        (·.destroy id) = host.registries.modify key (·.destroy id) := by
      rw [Slots.modify_modify]
      simp only [Registry.destroy_setStage]
    rw [← once]
    rfl
  · rw [failed]
    exact .inr ⟨isStage, rfl⟩

/-- What a value is made into does not change what is done. -/
theorem after_bind_pure {α β : Type} (host : Host) (action : HostM α) (make : α → β) :
    host.after (action >>= fun value => pure (make value)) = host.after action := by
  rw [after_bind, after]
  cases action host <;> rfl

/-- What a value is made into does not change whether there is one. -/
theorem succeeds_bind_pure {α β : Type} (host : Host) (action : HostM α) (make : α → β) :
    host.succeeds (action >>= fun value => pure (make value)) = host.succeeds action := by
  unfold succeeds
  rw [bind_apply]
  cases action host <;> rfl

/-- A change of the stage of a module. -/
theorem leads_changeEntry {after : Host} {registry : Registry} {entry : Entry}
    {change : Entry → Entry} {deeds : List Deed} (grounded : host.tables.Grounded)
    (found : host.registries.get? key = some registry) (isEntry : registry.find? id = some entry)
    (keepsId : ∀ entry, (change entry).id = entry.id)
    (tables : after.tables = { host.tables with
      registries := host.registries.modify key (·.modifyEntry id change) })
    (step : ∀ live, live = host.tables.liveRefs key id →
      Step ⟨some entry, live⟩ deeds ⟨some (change entry), live⟩) :
    Leads host.tables (only key id deeds) after.tables := by
  rw [tables]
  refine grounded.leads_modify found rfl ((grounded.distinct found).modifyEntry keepsId) ?_
    (fun _ _ _ => rfl) ?_
    ⟨grounded.held, grounded.builders, grounded.handles, grounded.refs⟩
  · intro other differs
    rw [Registry.find?_modifyEntry keepsId, if_neg differs]
  · rw [Registry.find?_modifyEntry keepsId, if_pos rfl, isEntry]
    exact (step _ rfl).course

/-- An errand that stays with the books as they are. -/
theorem leads_same {after : Host} {registry : Registry} {entry : Entry} {deeds : List Deed}
    (grounded : host.tables.Grounded) (found : host.registries.get? key = some registry)
    (isEntry : registry.find? id = some entry) (tables : after.tables = host.tables)
    (step : ∀ live, Step ⟨some entry, live⟩ deeds ⟨some entry, live⟩) :
    Leads host.tables (only key id deeds) after.tables := by
  rw [tables]
  refine ⟨grounded, rfl, ?_⟩
  intro otherKey other has
  refine ⟨has, ?_⟩
  unfold only
  by_cases same : otherKey = key ∧ other = id
  · obtain ⟨rfl, rfl⟩ := same
    rw [if_pos ⟨rfl, rfl⟩]
    unfold books
    rw [show host.tables.registries.get? otherKey = some registry from found, Option.bind_some,
      isEntry]
    exact (step _).course
  · rw [if_neg same]
    exact .refl _

/-- An action that leaves the tables as they are. -/
theorem Obeys.leads {α : Type} {action : HostM α} (spares : Spares action)
    (grounded : host.tables.Grounded) :
    Leads host.tables nothing (host.after action).tables := by
  rw [spares host]
  exact .refl grounded

/-- Whoever destroys a module must have a reference to it. -/
theorem leads_destroyModule (grounded : host.tables.Grounded)
    (held : 0 < host.tables.liveRefs key id) :
    Leads host.tables
      (if host.succeeds (destroyModule key id) then only key id [.destroyed] else nothing)
      (host.after (destroyModule key id)).tables := by
  rcases destroyModule_cases host key id with ⟨living, store, events, done⟩ | ⟨isStage, failed⟩
  · obtain ⟨registry, entry, found, isEntry, stage⟩ := exists_entry_of_stage rfl living
    simp only [after, succeeds, done, if_true]
    refine leads_changeEntry grounded found isEntry (by intro entry; rfl) rfl fun live isLive => ?_
    obtain ⟨others, rfl⟩ : ∃ others, live = others + 1 := ⟨live - 1, by omega⟩
    exact .destroys (stage ▸ living)
  · simp only [after, succeeds, failed]
    exact .refl grounded

/-- **Errands for a module** do to the books what they should, if they succeed, and nothing if they
fail. -/
theorem leads_atModule (errand : Errand) (grounded : host.tables.Grounded)
    (held : 0 < host.tables.liveRefs key id) :
    Leads host.tables
      (if host.succeeds (errand.atModule key id) then only key id errand.deeds else nothing)
      (host.after (errand.atModule key id)).tables := by
  have plain : ∀ {α : Type} {action : HostM α} (make : α → Answer), Spares action →
      Leads host.tables
        (if host.succeeds (action >>= fun value => pure (make value)) then only key id []
          else nothing)
        (host.after (action >>= fun value => pure (make value))).tables := by
    intro α action make spares
    rw [only_nil, ite_self]
    exact (spares.bind fun _ => obeys_pure _).leads grounded
  cases errand with
  | describe => exact plain _ (obeys_inspect _)
  | isCompiled =>
      refine plain _ (obeys_get_bind fun host => ?_)
      cases host.stage key id with
      | structural | compiled => exact obeys_pure _
      | destroyed => exact obeys_throw _
  | call proc io steps => exact plain _ (spares_callModule key id proc io steps)
  | unpack =>
      show Leads _ (if host.succeeds (unpackModule key id >>= fun _ => pure Answer.done) then _
        else _) (host.after (unpackModule key id >>= fun _ => pure Answer.done)).tables
      rw [after_bind_pure, succeeds_bind_pure]
      rcases unpackModule_cases host key id with
        ⟨module, program, isStage, done⟩ |
          ⟨module, depth, program, store, events, isStage, -, -, done⟩ | ⟨error, failed⟩
      · obtain ⟨registry, entry, found, isEntry, stage⟩ :=
          exists_entry_of_stage isStage (by simp)
        simp only [after, succeeds, done, if_true]
        exact leads_same grounded found isEntry rfl fun _ => .unpacksAgain stage
      · obtain ⟨registry, entry, found, isEntry, stage⟩ :=
          exists_entry_of_stage isStage (by simp)
        simp only [after, succeeds, done, if_true]
        exact leads_changeEntry grounded found isEntry (by intro entry; rfl) rfl
          fun _ _ => .unpacks program stage
      · simp only [after, succeeds, failed]
        exact .refl grounded
  | pack =>
      show Leads _ (if host.succeeds (packModule key id >>= fun _ => pure Answer.done) then _
        else _) (host.after (packModule key id >>= fun _ => pure Answer.done)).tables
      rw [after_bind_pure, succeeds_bind_pure]
      rcases packModule_cases host key id with
        ⟨module, isStage, done⟩ | ⟨module, program, store, events, isStage, done⟩ |
          ⟨isStage, failed⟩
      · obtain ⟨registry, entry, found, isEntry, stage⟩ :=
          exists_entry_of_stage isStage (by simp)
        simp only [after, succeeds, done, if_true]
        exact leads_same grounded found isEntry rfl fun _ => .packsAgain stage
      · obtain ⟨registry, entry, found, isEntry, stage⟩ :=
          exists_entry_of_stage isStage (by simp)
        simp only [after, succeeds, done, if_true]
        exact leads_changeEntry grounded found isEntry (by intro entry; rfl) rfl
          fun _ _ => .packs stage
      · simp only [after, succeeds, failed]
        exact .refl grounded
  | destroy =>
      show Leads _ (if host.succeeds (destroyModule key id >>= fun _ => pure Answer.done) then _
        else _) (host.after (destroyModule key id >>= fun _ => pure Answer.done)).tables
      rw [after_bind_pure, succeeds_bind_pure]
      exact leads_destroyModule grounded held

end

section
variable {host : Host} {key : Nat} {handle : Handle} {record : Nat → ModuleId → List Deed}

/-- An errand of a handle is one for its module, after the handle has been resolved. Only destroying
does more. -/
theorem atHandle_eq {errand : Errand} (other : errand ≠ .destroy) (key : Nat) :
    errand.atHandle key =
      resolve key >>= fun handle => errand.atModule handle.registry handle.module := by
  cases errand with
  | destroy => exact absurd rfl other
  | _ =>
      simp only [Errand.atHandle, Errand.atModule, describe, isCompiled, unpack, pack, call,
        bind_assoc]

/-- What follows the resolving of a handle. -/
theorem leads_resolve_bind {α : Type} {action : Handle → HostM α}
    {deeds : Nat → ModuleId → List Deed} (orderly : host.tables.Orderly record)
    (found : host.handles.get? key = some handle)
    (next : ∀ middle : Host, middle.tables.Orderly record →
      middle.handles.get? key = some { handle with resolved := true } →
      Leads middle.tables (if middle.succeeds (action { handle with resolved := true }) then deeds
        else nothing) (middle.after (action { handle with resolved := true })).tables) :
    Leads host.tables (if host.succeeds (resolve key >>= action) then deeds else nothing)
      (host.after (resolve key >>= action)).tables := by
  have grounded := orderly.grounded
  rcases leads_resolve grounded found with
    ⟨middle, resolves, -, isHandle, leads⟩ | ⟨-, -, failed⟩
  · have sameAfter : host.after (resolve key >>= action) =
        middle.after (action { handle with resolved := true }) := by
      rw [after_bind, resolves]
    have sameSucceeds : host.succeeds (resolve key >>= action) =
        middle.succeeds (action { handle with resolved := true }) := by
      unfold succeeds
      rw [bind_apply, resolves]
    rw [sameAfter, sameSucceeds]
    exact leads.then (next middle (orderly.leads_nothing leads) isHandle)
  · have sameAfter : host.after (resolve key >>= action) = host := by
      rw [after_bind, failed]
    have fails : host.succeeds (resolve key >>= action) = false := by
      unfold succeeds
      rw [bind_apply, failed]
    rw [sameAfter, fails]
    exact .refl grounded

/-- What follows the resolving of a handle leaves the tables as they are. -/
theorem leads_resolve_spares {α : Type} {action : Handle → HostM α}
    (orderly : host.tables.Orderly record) (found : host.handles.get? key = some handle)
    (spares : ∀ handle, Spares (action handle)) :
    Leads host.tables nothing (host.after (resolve key >>= action)).tables := by
  have leads : Leads host.tables (if host.succeeds (resolve key >>= action) then nothing
      else nothing) (host.after (resolve key >>= action)).tables :=
    leads_resolve_bind orderly found fun middle orderly _ => by
      rw [ite_self]
      exact (spares _).leads orderly.grounded
  rwa [ite_self] at leads

/-- Destroying a handle's module, and releasing the handle in any case. -/
theorem destroy_apply {middle : Host} (resolves : resolve key host = .ok handle middle) :
    destroy key host =
      match destroyModule handle.registry handle.module middle with
      | .ok _ marked => releaseHandle key marked
      | .error error marked =>
          (releaseHandle key >>= fun _ => throw error : HostM Unit) marked := by
  unfold destroy
  rw [bind_apply, resolves]
  dsimp only
  rw [bind_apply, tryCatch_apply]
  cases destroyModule handle.registry handle.module middle with
  | ok _ marked => rfl
  | error error marked =>
      dsimp only
      rw [bind_apply]
      cases releaseHandle key marked <;> rfl

/-- Destroying a handle's module also gives the handle's reference back, whether it succeeds or
not. -/
theorem leads_destroy (orderly : host.tables.Orderly record)
    (found : host.handles.get? key = some handle) :
    Leads host.tables
      (if host.succeeds (destroy key) then only handle.registry handle.module [.destroyed]
        else nothing)
      (host.after (destroy key)).tables := by
  rcases leads_resolve orderly.grounded found with
    ⟨middle, resolves, -, isHandle, leads⟩ | ⟨-, -, failed⟩
  · have ordered := orderly.leads_nothing leads
    have held := liveRefs_pos isHandle rfl
    have destroys := leads_destroyModule ordered.grounded held
    refine leads.then ?_
    unfold after succeeds at destroys ⊢
    rw [destroy_apply resolves]
    rcases destroyModule_cases middle handle.registry handle.module with
      ⟨-, store, events, done⟩ | ⟨-, failed⟩
    · rw [done] at destroys ⊢
      simp only [if_true] at destroys ⊢
      have marked := ordered.leads destroys (by
        intro otherKey other module member
        unfold only at member
        split at member <;> simp at member) (by
        intro otherKey other
        unfold only
        split <;> simp)
      obtain ⟨last, releases, -, -, leadsLast⟩ := leads_releaseHandle marked isHandle
      simp only [releases, if_true]
      exact destroys.and_then leadsLast
    · obtain ⟨last, releases, -, -, leadsLast⟩ := leads_releaseHandle ordered isHandle
      simp only [failed, bind_apply, releases]
      exact leadsLast
  · have fails : destroy key host = .error (.missing (.unregistered handle.module)) host := by
      unfold destroy
      rw [bind_apply, failed]
    simp only [after, succeeds, fails]
    exact .refl orderly.grounded

/-- A reference asks its module directly. -/
theorem ask_ref {ref : ModuleRef} (found : host.refs.get? key = some ref) (errand : Errand) :
    ask (.ref key) errand host = errand.atModule ref.registry ref.module host := by
  unfold ask
  dsimp only
  rw [get_bind_apply, found]

/-- **Asking something of a module** does to the books what it should, if it succeeds, and nothing
if it fails. -/
theorem leads_ask {party : Party} {subject : ModuleRef} (errand : Errand)
    (orderly : host.tables.Orderly record) (speaks : host.subject? party = some subject) :
    Leads host.tables
      (if host.succeeds (ask party errand) then only subject.registry subject.module errand.deeds
        else nothing)
      (host.after (ask party errand)).tables := by
  cases party with
  | ref key =>
      have found : host.refs.get? key = some subject := speaks
      have held : 0 < host.tables.liveRefs subject.registry subject.module := by
        have counted := Slots.count_values_erase found ⟨subject.registry, subject.module⟩
        rw [if_pos rfl] at counted
        simp only [Tables.liveRefs, Host.tables]
        omega
      have leads := leads_atModule errand orderly.grounded held
      unfold after succeeds at leads ⊢
      rwa [ask_ref found]
  | handle key =>
      obtain ⟨handle, found, rfl⟩ := Option.map_eq_some_iff.mp speaks
      show Leads _ (if host.succeeds (errand.atHandle key) then _ else _)
        (host.after (errand.atHandle key)).tables
      by_cases isDestroy : errand = .destroy
      · subst isDestroy
        have leads := leads_destroy orderly found
        rwa [← after_bind_pure _ _ fun _ => Answer.done,
          ← succeeds_bind_pure _ _ fun _ => Answer.done] at leads
      · rw [atHandle_eq isDestroy]
        refine leads_resolve_bind orderly found fun middle ordered isHandle => ?_
        exact leads_atModule errand ordered.grounded (liveRefs_pos isHandle rfl)

/-- Looking something up in the description of a handle's module. -/
theorem leads_lookUp (orderly : host.tables.Orderly record)
    (found : host.handles.get? key = some handle) (part : Part) :
    Leads host.tables nothing (host.after (part.lookUp key)).tables := by
  have looks : ∀ {α : Type} (look : Module → Except Error α),
      Leads host.tables nothing
        (host.after (discard (describe key >>= fun module =>
          inspect fun _ => look module))).tables := by
    intro α look
    have same : host.after (discard (describe key >>= fun module => inspect fun _ => look module)) =
        host.after (resolve key >>= fun handle =>
          describeModule handle.registry handle.module >>= fun module =>
            inspect fun _ => look module) := by
      unfold describe after
      rw [discard_apply, bind_assoc]
      cases (resolve key >>= fun handle => describeModule handle.registry handle.module >>=
        fun module => inspect fun _ => look module) host <;> rfl
    rw [same]
    exact leads_resolve_spares orderly found fun handle =>
      (obeys_inspect _).bind fun _ => obeys_inspect _
  cases part with
  | vtype id => exact looks _
  | ptype id => exact looks _
  | reg id => exact looks _
  | proc id => exact looks _

/-- Making a variable of a type of a handle's module. -/
theorem leads_newVariable (orderly : host.tables.Orderly record)
    (found : host.handles.get? key = some handle) (vtype : VarTypeId) (count : Nat) :
    Leads host.tables nothing (host.after (newVariable key vtype count)).tables := by
  unfold newVariable Host.vtype describe
  rw [bind_assoc, bind_assoc]
  refine leads_resolve_spares orderly found fun handle => ?_
  refine (obeys_inspect _).bind fun module => (obeys_inspect _).bind fun type => ?_
  refine (obeys_inspect _).bind fun count => ?_
  split
  · exact (obeys_throw _).bind fun _ => spares_newVar _
  · exact spares_newVar _

end

end Host

end ScopeMachine
