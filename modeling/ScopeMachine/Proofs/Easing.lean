import ScopeMachine.Proofs.Lifecycle
import ScopeMachine.Proofs.Reclaiming

/-! # Requests that let variables go

Most requests make and change no variables. They may let some go that nothing needs any more.

* `Host.Eases` says that a host has come from another in this way;
* `Host.Tames` says of a registry that no module of it has come to an executable form;
* `Host.eases_ask` and the lemmas before it say so of the operations, one by one. -/

namespace ScopeMachine

namespace Host

/-! ### Letting go -/

/-- A host has come from another without new variables, changes of variables or new executable
forms. Variables have gone only if nothing needed them. -/
structure Eases (before after : Host) : Prop where
  /-- Executable forms were there before. -/
  stages : ∀ {key : Nat} {id : ModuleId} {module : Module} {program : Program},
    after.stage key id = .compiled module program → before.stage key id = .compiled module program
  /-- No identity is given out or taken back. -/
  next : after.store.next = before.store.next
  /-- Variables were there before. -/
  found : ∀ {id : VarId} {var : Variable}, after.store.get? id = some var →
    before.store.get? id = some var
  /-- References keep leading to variables. -/
  resolves : before.store.Resolves → after.store.Resolves
  /-- The storage of executable forms is kept. -/
  persistents : ∀ {key : Nat} {id : ModuleId} {module : Module} {program : Program} {var : VarId},
    after.stage key id = .compiled module program → var ∈ program.persistents →
      after.store.get? var = before.store.get? var

instance : Order Eases where
  refl _ := ⟨fun isStage => isStage, rfl, fun found => found, fun resolves => resolves,
    fun _ _ => rfl⟩
  trans first second := by
    refine ⟨fun isStage => first.stages (second.stages isStage), second.next.trans first.next,
      fun found => first.found (second.found found),
      fun resolves => second.resolves (first.resolves resolves), ?_⟩
    intro key id module program var isStage member
    exact (second.persistents isStage member).trans
      (first.persistents (second.stages isStage) member)

section
variable {host before after : Host} {key : Nat} {id : ModuleId} {module : Module}
  {program : Program}

/-- The store is the same. -/
theorem eases_of_store (store : after.store = before.store)
    (stages : ∀ {key : Nat} {id : ModuleId} {module : Module} {program : Program},
      after.stage key id = .compiled module program →
        before.stage key id = .compiled module program) : before.Eases after := by
  refine ⟨stages, by rw [store], ?_, ?_, ?_⟩
  · intro id var found
    rwa [store] at found
  · intro resolves
    rwa [store]
  · intro key id module program var _ _
    rw [store]

/-- The stages are those of the registries. -/
theorem stage_congr (registries : after.registries = before.registries) (key : Nat)
    (id : ModuleId) : after.stage key id = before.stage key id := by
  unfold stage registry
  rw [registries]

/-- Neither the store nor the registries have changed. -/
theorem eases_same (store : after.store = before.store)
    (registries : after.registries = before.registries) : before.Eases after :=
  eases_of_store store fun isStage => (stage_congr registries _ _).symm.trans isStage

/-- A change of something else. -/
theorem eases_modify {change : Host → Host} (store : ∀ host, (change host).store = host.store)
    (registries : ∀ host, (change host).registries = host.registries) :
    Obeys Eases (modify change) :=
  obeys_modify fun host => eases_same (store host) (registries host)

/-- A compiled module has an entry. -/
theorem stage_eq_compiled : host.stage key id = .compiled module program ↔
    ∃ registry entry, host.registries.get? key = some registry ∧
      registry.find? id = some entry ∧ entry.stage = .compiled module program := by
  constructor
  · intro isStage
    exact exists_entry_of_stage isStage (by simp)
  · rintro ⟨registry, entry, found, isEntry, isStage⟩
    rw [stage_eq found isEntry, isStage]

/-- The storage of executable forms is held. -/
theorem mem_roots {var : VarId} (isStage : host.stage key id = .compiled module program)
    (member : var ∈ program.persistents) : var ∈ host.roots := by
  obtain ⟨registry, entry, found, isEntry, isStage⟩ := stage_eq_compiled.mp isStage
  refine List.mem_append_left _ (List.mem_append_right _ ?_)
  refine List.mem_flatMap.mpr ⟨registry, Slots.mem_values.mpr ⟨key, found⟩, ?_⟩
  refine List.mem_flatMap.mpr ⟨entry, List.mem_of_find?_eq_some isEntry, ?_⟩
  rw [isStage]
  exact member

/-- **Reclaiming lets go what nothing needs.** -/
theorem eases_reclaim : Obeys Eases reclaim := by
  intro host
  have prunes := host.store.prunes_reclaim host.roots
  refine ⟨fun isStage => isStage, prunes.next, prunes.found, prunes.resolves, ?_⟩
  intro key id module program var isStage member
  replace isStage : host.stage key id = .compiled module program := isStage
  exact prunes.kept (mem_roots isStage member)

/-- Reporting an event. -/
theorem eases_emit (event : Event) : Obeys Eases (emit event) :=
  eases_modify (by intro host; rfl) (by intro host; rfl)

/-- Letting a variable go. -/
theorem eases_unhold (var : VarId) : Obeys Eases (unhold var) :=
  (eases_modify (by intro host; rfl) (by intro host; rfl)).bind fun _ => eases_reclaim

end

/-! ### Registries -/

/-- No module of a registry has come to an executable form. -/
def Tames (before after : Registry) : Prop :=
  ∀ ⦃id : ModuleId⦄ ⦃entry : Entry⦄ ⦃module : Module⦄ ⦃program : Program⦄,
    after.find? id = some entry → entry.stage = .compiled module program →
      ∃ old, before.find? id = some old ∧ old.stage = .compiled module program

section
variable {registry : Registry} {target : ModuleId}

/-- An entry is changed and does not come to an executable form. -/
theorem tames_modifyEntry {change : Entry → Entry} (keepsId : ∀ entry, (change entry).id = entry.id)
    (keeps : ∀ entry module program, (change entry).stage = .compiled module program →
      entry.stage = .compiled module program) :
    Tames registry (registry.modifyEntry target change) := by
  intro id entry module program found isStage
  rw [Registry.find?_modifyEntry keepsId] at found
  split at found
  · obtain ⟨old, isOld, rfl⟩ := Option.map_eq_some_iff.mp found
    exact ⟨old, isOld, keeps old module program isStage⟩
  · exact ⟨entry, found, isStage⟩

/-- A module is registered. -/
theorem tames_insert (module : Module) : Tames registry (registry.insert module) := by
  intro id entry other program found isStage
  rw [Registry.find?_insert] at found
  split at found
  · cases found
    cases isStage
  · exact ⟨entry, found, isStage⟩

/-- A reference is given back. -/
theorem tames_release : Tames registry (registry.release target) := by
  intro id entry module program found isStage
  rw [Registry.find?_release] at found
  split at found
  · obtain ⟨old, isOld, left⟩ := Option.bind_eq_some_iff.mp found
    refine ⟨old, isOld, ?_⟩
    unfold Entry.giveBack at left
    split at left
    · cases left
    · cases left
      exact isStage
  · exact ⟨entry, found, isStage⟩

/-- A reference is taken. -/
theorem tames_retain {retained : Registry} (retains : registry.retain? target = some retained) :
    Tames registry retained := by
  obtain ⟨entry, -, -, rfl⟩ := Registry.retain?_eq_some.mp retains
  exact tames_modifyEntry (by intro entry; rfl) fun _ _ _ isStage => isStage

end

section
variable {host : Host} {key : Nat} {id : ModuleId}

/-- A registry is changed. -/
theorem eases_registry {after : Host} {change : Registry → Registry}
    (store : after.store = host.store)
    (registries : after.registries = host.registries.modify key change)
    (tames : ∀ registry, host.registries.get? key = some registry →
      Tames registry (change registry)) :
    host.Eases after := by
  refine eases_of_store store ?_
  intro otherKey other module program isStage
  obtain ⟨registry, entry, found, isEntry, isStage⟩ := stage_eq_compiled.mp isStage
  rw [registries, Slots.get?_modify] at found
  refine stage_eq_compiled.mpr ?_
  split at found
  next same =>
    subst same
    obtain ⟨old, isOld, rfl⟩ := Option.map_eq_some_iff.mp found
    obtain ⟨oldEntry, isOldEntry, isOldStage⟩ := tames old isOld isEntry isStage
    exact ⟨old, oldEntry, isOld, isOldEntry, isOldStage⟩
  next => exact ⟨registry, entry, found, isEntry, isStage⟩

/-- A registry is changed in a way that suits every registry. -/
theorem eases_updateRegistry {change : Registry → Registry}
    (tames : ∀ registry, Tames registry (change registry)) :
    Obeys Eases (updateRegistry key change) :=
  fun _ => eases_registry rfl rfl fun registry _ => tames registry

/-- Registries go. -/
theorem eases_retireRegistry (key : Nat) : Obeys Eases (retireRegistry key) := by
  refine obeys_get_bind fun host => ?_
  have erases : Obeys Eases
      (modify fun host : Host => { host with registries := host.registries.erase key }) := by
    refine obeys_modify fun host => eases_of_store rfl ?_
    intro otherKey other module program isStage
    obtain ⟨registry, entry, found, isEntry, isStage⟩ := stage_eq_compiled.mp isStage
    replace found : (host.registries.erase key).get? otherKey = some registry := found
    rw [Slots.get?_erase] at found
    split at found
    · cases found
    · exact stage_eq_compiled.mpr ⟨registry, entry, found, isEntry, isStage⟩
  split
  · exact erases.bind fun _ => eases_reclaim
  · exact obeys_pure _

/-- A registry is let go. -/
theorem eases_dropRegistry (key : Nat) : Obeys Eases (dropRegistry key) :=
  (eases_modify (by intro host; rfl) (by intro host; rfl)).bind fun _ => eases_retireRegistry key

/-- A registry is made. -/
theorem eases_newRegistry (backend : Backend) : Obeys Eases (newRegistry backend) := by
  refine obeys_get_bind fun _ => Obeys.bind (obeys_modify fun host => ?_) fun _ => obeys_pure _
  refine eases_of_store rfl ?_
  intro otherKey other module program isStage
  obtain ⟨registry, entry, found, isEntry, isStage⟩ := stage_eq_compiled.mp isStage
  replace found : (host.registries.insert (Registry.empty backend)).get? otherKey =
    some registry := found
  rw [Slots.get?_insert] at found
  split at found
  · cases found
    cases isEntry
  · exact stage_eq_compiled.mpr ⟨registry, entry, found, isEntry, isStage⟩

/-- References to modules are taken. -/
theorem eases_retainModule (key : Nat) (id : ModuleId) : Obeys Eases (retainModule key id) := by
  intro host
  cases retains : (host.registry key).retain? id with
  | none =>
      have same : retainModule key id host = .ok false host := by
        unfold retainModule
        rw [get_bind_apply, retains]
        rfl
      unfold after
      rw [same]
      exact Order.refl host
  | some retained =>
      have same : retainModule key id host = .ok true { host with
          registries := host.registries.modify key fun _ => retained } := by
        unfold retainModule
        rw [get_bind_apply, retains]
        rfl
      unfold after
      rw [same]
      refine eases_registry rfl rfl ?_
      intro registry found
      rw [registry_eq found] at retains
      exact tames_retain retains

/-- References to modules are given back. -/
theorem eases_releaseModule (key : Nat) (id : ModuleId) : Obeys Eases (releaseModule key id) := by
  refine obeys_get_bind fun host => (eases_updateRegistry fun _ => tames_release).bind fun _ => ?_
  split
  · exact eases_emit _
  · exact obeys_pure _

/-- References are kept. -/
theorem eases_newRef (key : Nat) (id : ModuleId) : Obeys Eases (newRef key id) := by
  refine (eases_retainModule key id).bind fun found => ?_
  split
  · refine obeys_get_bind fun _ => ?_
    exact (eases_modify (by intro host; rfl) (by intro host; rfl)).bind fun _ => obeys_pure _
  · exact obeys_pure _

/-- References are given up. -/
theorem eases_dropRef (key : Nat) : Obeys Eases (dropRef key) := by
  refine obeys_get_bind fun host => ?_
  split
  · exact (eases_modify (by intro host; rfl) (by intro host; rfl)).bind fun _ =>
      (eases_releaseModule _ _).bind fun _ => eases_retireRegistry _
  · exact obeys_pure _

/-! ### Handles -/

/-- Handles are made. -/
theorem eases_newHandle (key : Nat) (id : ModuleId) : Obeys Eases (newHandle key id) :=
  obeys_get_bind fun _ =>
    (eases_modify (by intro host; rfl) (by intro host; rfl)).bind fun _ => obeys_pure _

/-- Handles are released. -/
theorem eases_releaseHandle (key : Nat) : Obeys Eases (releaseHandle key) := by
  refine obeys_get_bind fun host => ?_
  dsimp only
  split
  · exact (eases_modify (by intro host; rfl) (by intro host; rfl)).bind fun _ =>
      eases_releaseModule _ _
  · exact obeys_pure _

/-- Handles are pointed at other modules. -/
theorem eases_bindHandle (key : Nat) (id : ModuleId) : Obeys Eases (bindHandle key id) :=
  (eases_releaseHandle key).bind fun _ => eases_modify (by intro host; rfl) (by intro host; rfl)

/-- Handles are given up. -/
theorem eases_dropHandle (key : Nat) : Obeys Eases (dropHandle key) :=
  obeys_get_bind fun _ => (eases_releaseHandle key).bind fun _ =>
    (eases_modify (by intro host; rfl) (by intro host; rfl)).bind fun _ => eases_retireRegistry _

/-- Handles are resolved. -/
theorem eases_resolve (key : Nat) : Obeys Eases (resolve key) := by
  refine obeys_get_bind fun host => ?_
  dsimp only
  split
  · exact obeys_pure _
  · refine (eases_retainModule _ _).bind fun found => ?_
    split
    · exact (eases_modify (by intro host; rfl) (by intro host; rfl)).bind fun _ => obeys_pure _
    · exact obeys_throw _

/-- Modules are described. -/
theorem eases_describe (key : Nat) : Obeys Eases (describe key) :=
  (eases_resolve key).bind fun _ => obeys_inspect _

/-- Descriptions are looked into. -/
theorem eases_lookUp (key : Nat) (part : Part) : Obeys Eases (part.lookUp key) := by
  cases part <;> exact Obeys.discard ((eases_describe key).bind fun _ => obeys_inspect _)

/-! ### Builders -/

/-- Builders are made. -/
theorem eases_newBuilder (key : Nat) (builder : Builder) : Obeys Eases (newBuilder key builder) :=
  obeys_get_bind fun _ =>
    (eases_modify (by intro host; rfl) (by intro host; rfl)).bind fun _ => obeys_pure _

/-- Builders are given up. -/
theorem eases_dropBuilder (key : Nat) : Obeys Eases (dropBuilder key) := by
  refine obeys_get_bind fun host => ?_
  split
  · exact (eases_modify (by intro host; rfl) (by intro host; rfl)).bind fun _ =>
      eases_retireRegistry _
  · exact obeys_pure _

/-- Builders are used. -/
theorem eases_build {α : Type} (key : Nat) (action : Build α) : Obeys Eases (build key action) := by
  refine obeys_get_bind fun host => ?_
  refine (eases_modify (by intro host; rfl) (by intro host; rfl)).bind fun _ => ?_
  split
  · exact (eases_modify (by intro host; rfl) (by intro host; rfl)).bind fun _ => obeys_pure _
  · exact (eases_modify (by intro host; rfl) (by intro host; rfl)).bind fun _ => obeys_throw _

/-- Modules are registered. -/
theorem eases_create (key : Nat) (fresh : ModuleId) : Obeys Eases (create key fresh) := by
  have finishes : Obeys Eases (finish key fresh) :=
    (eases_build key _).bind fun _ => (eases_emit _).bind fun _ => obeys_pure _
  exact finishes.bind fun module => obeys_get_bind fun _ =>
    (eases_updateRegistry fun _ => tames_insert module).bind fun _ => eases_emit _

/-! ### Errands -/

/-- Executable forms are discarded. -/
theorem eases_packModule (key : Nat) (id : ModuleId) : Obeys Eases (packModule key id) := by
  refine obeys_get_bind fun host => ?_
  split
  next => exact obeys_pure _
  next => exact obeys_throw _
  next module _ _ =>
    have sets : Obeys Eases (updateRegistry key (·.setStage id (.structural module))) := by
      refine eases_updateRegistry fun registry => tames_modifyEntry (by intro entry; rfl) ?_
      rintro entry other program ⟨⟩
    exact sets.bind fun _ => (eases_emit _).bind fun _ => eases_reclaim

/-- Modules are destroyed. -/
theorem eases_destroyModule (key : Nat) (id : ModuleId) : Obeys Eases (destroyModule key id) := by
  have marks : Obeys Eases (updateRegistry key (·.destroy id)) := by
    refine eases_updateRegistry fun registry => tames_modifyEntry (by intro entry; rfl) ?_
    rintro entry module program ⟨⟩
  exact (eases_packModule key id).bind fun _ => marks.bind fun _ => eases_emit _

/-- Handles destroy their modules. -/
theorem eases_destroy (key : Nat) : Obeys Eases (destroy key) := by
  refine (eases_resolve key).bind fun handle => Obeys.bind ?_ fun _ => eases_releaseHandle key
  exact (eases_destroyModule _ _).tryCatch fun error =>
    (eases_releaseHandle key).bind fun _ => obeys_throw error

/-- What can be asked of a module besides an executable form and calls. -/
theorem eases_ask {errand : Errand} (notUnpack : errand ≠ .unpack)
    (notCall : ∀ proc io steps, errand ≠ .call proc io steps) (party : Party) :
    Obeys Eases (ask party errand) := by
  have atModule : ∀ key id, Obeys Eases (errand.atModule key id) := by
    intro key id
    cases errand with
    | describe => exact (obeys_inspect _).bind fun _ => obeys_pure _
    | isCompiled =>
        refine Obeys.bind (obeys_get_bind fun host => ?_) fun _ => obeys_pure _
        split
        · exact obeys_pure _
        · exact obeys_pure _
        · exact obeys_throw _
    | unpack => exact absurd rfl notUnpack
    | pack => exact (eases_packModule key id).bind fun _ => obeys_pure _
    | destroy => exact (eases_destroyModule key id).bind fun _ => obeys_pure _
    | call proc io steps => exact absurd rfl (notCall proc io steps)
  cases party with
  | ref key =>
      refine obeys_get_bind fun host => ?_
      split
      · exact atModule _ _
      · exact obeys_pure _
  | handle key =>
      show Obeys Eases (errand.atHandle key)
      by_cases isDestroy : errand = .destroy
      · subst isDestroy
        exact (eases_destroy key).bind fun _ => obeys_pure _
      · rw [atHandle_eq isDestroy]
        exact (eases_resolve key).bind fun handle => atModule _ _

end

end Host

end ScopeMachine
