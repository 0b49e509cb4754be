import ScopeMachine.Proofs.Books

/-! # What requests do to the books -/

namespace ScopeMachine

open Books

/-! ### Tables -/

/-- The tables of a host that have to do with modules. -/
structure Tables where
  /-- Registries, by identity. -/
  registries : Slots Registry
  /-- The registries that the embedding program holds. -/
  heldRegistries : List Nat
  /-- Builders, by identity. -/
  builders : Slots Workbench
  /-- Handles, by identity. -/
  handles : Slots Handle
  /-- References, by identity. -/
  refs : Slots ModuleRef

/-- The tables of a host. -/
def Host.tables (host : Host) : Tables :=
  ⟨host.registries, host.heldRegistries, host.builders, host.handles, host.refs⟩

namespace Tables

/-- A registry is there. -/
def Has (tables : Tables) (registry : Nat) : Prop :=
  (tables.registries.get? registry).isSome = true

/-- The number of references to a module, those that are kept and those of handles. -/
def liveRefs (tables : Tables) (registry : Nat) (id : ModuleId) : Nat :=
  tables.refs.values.count ⟨registry, id⟩ + tables.handles.values.count ⟨registry, id, true⟩

/-- The books of a module. -/
def books (tables : Tables) (registry : Nat) (id : ModuleId) : Books where
  entry := (tables.registries.get? registry).bind fun found => found.find? id
  live := tables.liveRefs registry id

section
variable {tables : Tables} {key : Nat}

/-- A registry that is found is there. -/
theorem has_of_get? {registry : Registry} (found : tables.registries.get? key = some registry) :
    tables.Has key := by
  rw [Has, found]
  rfl

/-- A registry whose identity has not been given out is not there. -/
theorem not_has_of_next_le (unused : tables.registries.next ≤ key) : ¬ tables.Has key := by
  rw [Has, Slots.get?_eq_none_of_next_le unused]
  decide

/-- The books of a module of a registry that is there. -/
theorem books_eq {registry : Registry} (found : tables.registries.get? key = some registry)
    (id : ModuleId) : tables.books key id = ⟨registry.find? id, tables.liveRefs key id⟩ := by
  rw [books, found]
  rfl

end

/-- Whatever names a registry names a known one, and builders have come about by calls. -/
structure Rooted (tables : Tables) (Known : Nat → Prop) : Prop where
  /-- Registries that are held. -/
  held : ∀ registry ∈ tables.heldRegistries, Known registry
  /-- Registries of builders. -/
  builders : ∀ {key : Nat} {bench : Workbench}, tables.builders.get? key = some bench →
    Known bench.registry ∧ bench.builder.Reachable
  /-- Registries of handles. -/
  handles : ∀ {key : Nat} {handle : Handle}, tables.handles.get? key = some handle →
    Known handle.registry
  /-- Registries of references. -/
  refs : ∀ {key : Nat} {ref : ModuleRef}, tables.refs.get? key = some ref → Known ref.registry

/-- Whatever names a registry names one that is there, and the registries tell their modules
apart. -/
structure Grounded (tables : Tables) : Prop extends Rooted tables tables.Has where
  /-- No two entries of a registry have the same identity. -/
  distinct : ∀ {key : Nat} {registry : Registry}, tables.registries.get? key = some registry →
    registry.Distinct

/-- The registry of a module that someone has a reference to is there. -/
theorem Grounded.has_of_liveRefs {tables : Tables} (grounded : tables.Grounded) {key : Nat}
    {id : ModuleId} (held : 0 < tables.liveRefs key id) : tables.Has key := by
  unfold liveRefs at held
  by_cases kept : 0 < tables.refs.values.count ⟨key, id⟩
  · obtain ⟨other, found⟩ := Slots.mem_values.mp (List.count_pos_iff.mp kept)
    exact grounded.refs found
  · have byHandle : 0 < tables.handles.values.count ⟨key, id, true⟩ := by omega
    obtain ⟨other, found⟩ := Slots.mem_values.mp (List.count_pos_iff.mp byHandle)
    exact grounded.handles found

/-- Nothing happens to any module. -/
def nothing : Nat → ModuleId → List Deed := fun _ _ => []

/-- Something happens to one module only. -/
def only (registry : Nat) (id : ModuleId) (deeds : List Deed) : Nat → ModuleId → List Deed :=
  fun otherRegistry other => if otherRegistry = registry ∧ other = id then deeds else []

/-- No deeds. -/
@[simp] theorem only_nil (registry : Nat) (id : ModuleId) : only registry id [] = nothing := by
  funext otherRegistry other
  simp [only, nothing]

/-- The tables change by steps of the books, with the given deeds. No registry appears. -/
structure Leads (before : Tables) (deeds : Nat → ModuleId → List Deed) (after : Tables) : Prop where
  /-- Whatever names a registry names one that is there. -/
  grounded : after.Grounded
  /-- No identity is given to a registry. -/
  next : after.registries.next = before.registries.next
  /-- The books of each module change by steps. -/
  course : ∀ {registry : Nat} (id : ModuleId), after.Has registry →
    before.Has registry ∧
      Course (before.books registry id) (deeds registry id) (after.books registry id)

section
variable {before middle after : Tables} {earlier later : Nat → ModuleId → List Deed}

/-- Nothing changes. -/
theorem Leads.refl {tables : Tables} (grounded : tables.Grounded) : Leads tables nothing tables :=
  ⟨grounded, rfl, fun _ has => ⟨has, .refl _⟩⟩

/-- One change after the other. -/
theorem Leads.trans (first : Leads before earlier middle) (second : Leads middle later after) :
    Leads before (fun registry id => later registry id ++ earlier registry id) after := by
  refine ⟨second.grounded, second.next.trans first.next, ?_⟩
  intro registry id has
  obtain ⟨hasMiddle, course⟩ := second.course id has
  obtain ⟨hasBefore, pathBefore⟩ := first.course id hasMiddle
  exact ⟨hasBefore, pathBefore.trans course⟩

/-- A change after one that did nothing to any module. -/
theorem Leads.then (first : Leads before nothing middle) (second : Leads middle later after) :
    Leads before later after := by
  have both := first.trans second
  simpa [nothing] using both

/-- A change before one that does nothing to any module. -/
theorem Leads.and_then (first : Leads before earlier middle) (second : Leads middle nothing after) :
    Leads before earlier after := by
  have both := first.trans second
  simpa [nothing] using both

/-- A change of other tables than that of the registries, with the same references. -/
theorem Grounded.leads_tables (grounded : before.Grounded)
    (registries : after.registries = before.registries)
    (live : ∀ registry id, after.liveRefs registry id = before.liveRefs registry id)
    (rooted : after.Rooted before.Has) : Leads before nothing after := by
  have same : after.Has = before.Has := by
    unfold Has
    rw [registries]
  refine ⟨⟨same ▸ rooted, ?_⟩, by rw [registries], ?_⟩
  · rw [registries]
    exact grounded.distinct
  · intro registry id has
    refine ⟨same ▸ has, ?_⟩
    have books : after.books registry id = before.books registry id := by
      unfold Tables.books
      rw [registries, live]
    rw [books]
    exact .refl _

/-- A change of the entry of one module, and of the references to it. -/
theorem Grounded.leads_modify {key : Nat} {id : ModuleId} {registry : Registry}
    {change : Registry → Registry} {deeds : List Deed} (grounded : before.Grounded)
    (found : before.registries.get? key = some registry)
    (registries : after.registries = before.registries.modify key change)
    (distinct : (change registry).Distinct)
    (others : ∀ other, other ≠ id → (change registry).find? other = registry.find? other)
    (live : ∀ otherKey other, ¬ (otherKey = key ∧ other = id) →
      after.liveRefs otherKey other = before.liveRefs otherKey other)
    (here : Course ⟨registry.find? id, before.liveRefs key id⟩ deeds
      ⟨(change registry).find? id, after.liveRefs key id⟩)
    (rooted : after.Rooted before.Has) : Leads before (only key id deeds) after := by
  have get : ∀ other, after.registries.get? other =
      if other = key then some (change registry) else before.registries.get? other := by
    intro other
    rw [registries, Slots.get?_modify]
    by_cases same : other = key <;> simp [same, found]
  have same : after.Has = before.Has := by
    funext other
    unfold Has
    rw [get]
    by_cases same : other = key <;> simp [same, found]
  refine ⟨⟨same ▸ rooted, ?_⟩, by rw [registries, Slots.next_modify], ?_⟩
  · intro other changed isChanged
    rw [get] at isChanged
    split at isChanged
    · cases isChanged
      exact distinct
    · exact grounded.distinct isChanged
  · intro otherKey other has
    refine ⟨same ▸ has, ?_⟩
    unfold Tables.books only
    rw [get]
    by_cases sameKey : otherKey = key
    · subst sameKey
      rw [if_pos rfl, found, Option.bind_some, Option.bind_some]
      by_cases sameId : other = id
      · subst sameId
        rw [if_pos ⟨rfl, rfl⟩]
        exact here
      · rw [if_neg fun both => sameId both.2, others other sameId,
          live otherKey other fun both => sameId both.2]
        exact .refl _
    · rw [if_neg sameKey, if_neg fun both => sameKey both.1,
        live otherKey other fun both => sameKey both.1]
      exact .refl _

end

/-! ### References and handles come and go -/

section
variable {tables : Tables} {key : Nat} {id : ModuleId} {registry : Registry}

/-- A reference is taken to a module that can be found. -/
theorem Grounded.leads_take {after : Tables} {retained : Registry} (grounded : tables.Grounded)
    (found : tables.registries.get? key = some registry)
    (retains : registry.retain? id = some retained)
    (registries : after.registries = tables.registries.modify key fun _ => retained)
    (live : ∀ otherKey other, after.liveRefs otherKey other =
      tables.liveRefs otherKey other + if otherKey = key ∧ other = id then 1 else 0)
    (rooted : after.Rooted tables.Has) : Leads tables nothing after := by
  obtain ⟨entry, isEntry, living, rfl⟩ := Registry.retain?_eq_some.mp retains
  rw [← only_nil key id]
  refine grounded.leads_modify found registries
    ((grounded.distinct found).modifyEntry fun _ => rfl) ?_ ?_ ?_ rooted
  · intro other differs
    rw [Registry.find?_modifyEntry (by intro entry; rfl), if_neg differs]
  · intro otherKey other differs
    rw [live, if_neg differs, Nat.add_zero]
  · rw [Registry.find?_modifyEntry (by intro entry; rfl), if_pos rfl, isEntry, live,
      if_pos ⟨rfl, rfl⟩]
    exact (Step.takes living).course

/-- A reference is given back. -/
theorem Grounded.leads_giveBack {after : Tables} {entry : Entry} (grounded : tables.Grounded)
    (found : tables.registries.get? key = some registry)
    (isEntry : registry.find? id = some entry) (enough : 2 ≤ entry.refs)
    (registries : after.registries = tables.registries.modify key (·.release id))
    (live : ∀ otherKey other, after.liveRefs otherKey other +
      (if otherKey = key ∧ other = id then 1 else 0) = tables.liveRefs otherKey other)
    (rooted : after.Rooted tables.Has) : Leads tables nothing after := by
  rw [← only_nil key id]
  refine grounded.leads_modify found registries ((grounded.distinct found).release id) ?_ ?_ ?_
    rooted
  · intro other differs
    rw [Registry.find?_release, if_neg differs]
  · intro otherKey other differs
    rw [← live otherKey other, if_neg differs, Nat.add_zero]
  · rw [Registry.find?_release, if_pos rfl, isEntry, ← live, if_pos ⟨rfl, rfl⟩]
    exact (Step.givesBack enough).course

/-- A registry goes that nothing uses. -/
theorem Grounded.leads_erase (grounded : tables.Grounded)
    (rooted : tables.Rooted fun other => tables.Has other ∧ other ≠ key) :
    Leads tables nothing { tables with registries := tables.registries.erase key } := by
  have has : ∀ other, { tables with registries := tables.registries.erase key }.Has other ↔
      tables.Has other ∧ other ≠ key := by
    intro other
    unfold Has
    rw [Slots.get?_erase]
    by_cases same : other = key <;> simp [same]
  refine ⟨⟨⟨?_, ?_, ?_, ?_⟩, ?_⟩, Slots.next_erase .., ?_⟩
  · intro other member
    exact (has other).mpr (rooted.held other member)
  · intro builder bench isBench
    obtain ⟨known, reachable⟩ := rooted.builders isBench
    exact ⟨(has _).mpr known, reachable⟩
  · intro handle value isHandle
    exact (has _).mpr (rooted.handles isHandle)
  · intro ref value isRef
    exact (has _).mpr (rooted.refs isRef)
  · intro other kept isKept
    dsimp only at isKept
    rw [Slots.get?_erase] at isKept
    split at isKept
    · cases isKept
    · exact grounded.distinct isKept
  · intro other id stays
    obtain ⟨hasBefore, differs⟩ := (has other).mp stays
    refine ⟨hasBefore, ?_⟩
    unfold Tables.books
    dsimp only
    rw [Slots.get?_erase, if_neg differs]
    exact .refl _

end

end Tables

/-! ### Actions on variables -/

namespace Host

section
variable {α β : Type}

/-- The host after a sequence of two actions. -/
theorem after_bind (host : Host) (first : HostM α) (second : α → HostM β) :
    host.after (first >>= second) =
      match first host with
      | .ok value middle => middle.after (second value)
      | .error _ middle => middle := by
  unfold after
  rw [bind_apply]
  cases first host <;> rfl

/-- A relation between hosts that holds of every host and itself, and from one to the next. -/
class Order (relates : Host → Host → Prop) : Prop where
  /-- Every host is related to itself. -/
  refl : ∀ host, relates host host
  /-- What is related step by step is related. -/
  trans : ∀ {first second third}, relates first second → relates second third → relates first third

/-- An action leads from each host to a related one. -/
def Obeys (relates : Host → Host → Prop) (action : HostM α) : Prop :=
  ∀ host : Host, relates host (host.after action)

section
variable {relates : Host → Host → Prop} [order : Order relates]

/-- Returning a value changes nothing. -/
theorem obeys_pure (value : α) : Obeys relates (pure value : HostM α) := fun host => order.refl host

/-- Failing changes nothing. -/
theorem obeys_throw (error : Error) : Obeys relates (throw error : HostM α) :=
  fun host => order.refl host

/-- A change that leads to a related host. -/
theorem obeys_modify {relates : Host → Host → Prop} {change : Host → Host}
    (each : ∀ host, relates host (change host)) : Obeys relates (modify change) := each

/-- One action after the other. -/
theorem Obeys.bind {first : HostM α} {second : α → HostM β} (obeys : Obeys relates first)
    (next : ∀ value, Obeys relates (second value)) : Obeys relates (first >>= second) := by
  intro host
  have leads := obeys host
  rw [after_bind]
  unfold after at leads
  cases ran : first host with
  | error error middle =>
      rw [ran] at leads
      exact leads
  | ok value middle =>
      rw [ran] at leads
      exact order.trans leads (next value middle)

/-- What follows a look at the host. -/
theorem obeys_get_bind {relates : Host → Host → Prop} {second : Host → HostM β}
    (next : ∀ host, Obeys relates (second host)) : Obeys relates (get >>= second) :=
  fun host => next host host

/-- A look at the host changes nothing. -/
theorem obeys_inspect (look : Host → Except Error α) : Obeys relates (inspect look) := by
  refine obeys_get_bind fun host => ?_
  cases look host with
  | ok value => exact obeys_pure value
  | error error => exact obeys_throw error

/-- There is nothing to catch. -/
theorem after_tryCatch_ok {host middle : Host} {action : HostM α} {handler : Error → HostM α}
    {value : α} (ran : action host = .ok value middle) :
    host.after (tryCatch action handler) = middle := by
  unfold after
  rw [tryCatch_apply, ran]

/-- An error is caught. -/
theorem after_tryCatch_error {host middle : Host} {action : HostM α} {handler : Error → HostM α}
    {error : Error} (ran : action host = .error error middle) :
    host.after (tryCatch action handler) = middle.after (handler error) := by
  unfold after
  rw [tryCatch_apply, ran]

/-- Catching an error. -/
theorem Obeys.tryCatch {action : HostM α} {handler : Error → HostM α} (obeys : Obeys relates action)
    (next : ∀ error, Obeys relates (handler error)) : Obeys relates (tryCatch action handler) := by
  intro host
  have leads := obeys host
  unfold after at leads
  cases ran : action host with
  | ok value middle =>
      rw [ran] at leads
      rw [after_tryCatch_ok ran]
      exact leads
  | error error middle =>
      rw [ran] at leads
      rw [after_tryCatch_error ran]
      exact order.trans leads (next error middle)

/-- An action whose value does not matter. -/
theorem Obeys.discard {relates : Host → Host → Prop} {action : HostM α}
    (obeys : Obeys relates action) : Obeys relates (discard action) := by
  intro host
  have leads := obeys host
  unfold after at leads ⊢
  rw [discard_apply]
  cases ran : action host <;> rw [ran] at leads <;> exact leads

end

/-- Two hosts have the same tables. -/
def SameTables (before after : Host) : Prop := after.tables = before.tables

instance : Order SameTables where
  refl _ := rfl
  trans first second := Eq.trans second first

/-- An action leaves the tables as they are. -/
abbrev Spares (action : HostM α) : Prop := Obeys SameTables action

/-- Reporting an event. -/
theorem spares_emit (event : Event) : Spares (emit event) := obeys_modify (by intro host; rfl)

/-- Reclaiming variables. -/
theorem spares_reclaim : Spares reclaim := obeys_modify (by intro host; rfl)

/-- Holding a variable. -/
theorem spares_hold (var : VarId) : Spares (hold var) := obeys_modify (by intro host; rfl)

/-- Letting a variable go. -/
theorem spares_unhold (var : VarId) : Spares (unhold var) :=
  (obeys_modify (by intro host; rfl)).bind fun _ => spares_reclaim

/-- A new variable. -/
theorem spares_newVar (var : Variable) : Spares (newVar var) := by
  refine obeys_get_bind fun host => (obeys_modify (by intro host; rfl)).bind fun _ => ?_
  exact (spares_hold _).bind fun _ => obeys_pure _

/-- Changing a variable. -/
theorem spares_changeVar (var : VarId) (change : Variable → Except Error Variable) :
    Spares (changeVar var change) := by
  refine obeys_get_bind fun host => ?_
  split
  · exact obeys_pure _
  · split
    · exact obeys_throw _
    · exact obeys_modify (by intro host; rfl)

/-- Editing a variable. -/
theorem spares_edit (var : VarId) (edit : Edit) : Spares (edit.perform var) := by
  cases edit with
  | word element word => exact (obeys_inspect _).bind fun _ => obeys_modify (by intro host; rfl)
  | bytes | native => exact spares_changeVar _ _
  | apply element slot =>
      refine Obeys.discard (obeys_get_bind fun host => ?_)
      split
      · exact obeys_pure _
      · exact (spares_changeVar _ _).bind fun _ => obeys_pure _

/-- Storing a reference. -/
theorem spares_setOwnedRef (owner : VarId) (element slot : Nat) (referent : Option VarId) :
    Spares (setOwnedRef owner element slot referent) :=
  (obeys_inspect _).bind fun _ => (obeys_modify (by intro host; rfl)).bind fun _ => spares_reclaim

/-- Running a program. -/
theorem spares_invokeProgram (program : Program) (proc : ProcId) (io : VarId) (steps : Nat) :
    Spares (invokeProgram program proc io steps) := by
  intro host
  have settles : ∀ machine completion, Spares (settle machine completion) := by
    intro machine completion
    refine (obeys_modify (by intro host; rfl)).bind fun _ => spares_reclaim.bind fun _ => ?_
    cases completion with
    | failed error => exact obeys_throw error
    | returned | running => exact obeys_pure _
  exact settles _ _ { host with store := Slots.empty }

/-- Running an entry point of a module. -/
theorem spares_callModule (registry : Nat) (id : ModuleId) (proc : ProcId) (io : VarId)
    (steps : Nat) : Spares (callModule registry id proc io steps) := by
  refine obeys_get_bind fun host => ?_
  split
  next => exact obeys_throw _
  next => exact obeys_throw _
  next program _ =>
    split
    · exact obeys_throw _
    · refine (spares_invokeProgram program proc io steps).tryCatch fun error => ?_
      cases error with
      | execution fault => exact (spares_emit _).bind fun _ => obeys_throw _
      | _ => exact obeys_throw _

end

end Host

/-! ### Tables in order -/

/-- The tables are grounded, and all books are as the deeds so far tell. -/
structure Tables.Orderly (tables : Tables) (record : Nat → ModuleId → List Deed) : Prop where
  /-- Whatever names a registry names one that is there. -/
  grounded : tables.Grounded
  /-- The books are as they should be. -/
  agrees : ∀ {key : Nat} (id : ModuleId), tables.Has key →
    Agrees (record key id) (tables.books key id)

namespace Tables

section
variable {before after : Tables} {record deeds : Nat → ModuleId → List Deed}

/-- **Tables stay in order.** -/
theorem Orderly.leads (orderly : before.Orderly record) (leads : Leads before deeds after)
    (fresh : ∀ key id module, .registered module ∈ deeds key id → ¬ Registered (record key id))
    (single : ∀ key id, (deeds key id).length ≤ 1) :
    after.Orderly fun key id => deeds key id ++ record key id := by
  refine ⟨leads.grounded, ?_⟩
  intro key id has
  obtain ⟨hasBefore, course⟩ := leads.course id has
  exact (orderly.agrees id hasBefore).course course (fresh key id) (single key id)

/-- Tables stay in order when nothing happens to any module. -/
theorem Orderly.leads_nothing (orderly : before.Orderly record)
    (leads : Leads before nothing after) : after.Orderly record :=
  orderly.leads leads (fun _ _ _ member => by cases member) fun _ _ => Nat.zero_le 1

/-- A reference in someone's hands is counted beside the registry's own. -/
theorem Orderly.exists_entry (orderly : before.Orderly record) {key : Nat} {id : ModuleId}
    (has : before.Has key) (held : 0 < before.liveRefs key id) :
    ∃ registry entry, before.registries.get? key = some registry ∧
      registry.find? id = some entry ∧ 2 ≤ entry.refs := by
  obtain ⟨registry, found⟩ := Option.isSome_iff_exists.mp has
  have agrees := orderly.agrees id has
  unfold books at agrees
  rw [found, Option.bind_some] at agrees
  generalize isEntry : registry.find? id = entry at agrees
  generalize before.liveRefs key id = live at agrees held
  generalize record key id = deeds at agrees
  cases agrees with
  | unknown | erased => cases held
  | living _ _ _ _ counted => exact ⟨registry, _, found, isEntry, by omega⟩
  | lingering _ _ _ _ counted => exact ⟨registry, _, found, isEntry, by omega⟩

end

end Tables

/-! ### Registries and builders -/

namespace Host

open Tables

section
variable {host : Host} {key : Nat}

/-- Whatever names a registry names another than one that is not used. -/
theorem rooted_of_not_uses (grounded : host.tables.Grounded)
    (unused : host.usesRegistry key = false) :
    host.tables.Rooted fun other => host.tables.Has other ∧ other ≠ key := by
  unfold usesRegistry at unused
  simp only [Bool.or_eq_false_iff, List.any_eq_false, beq_iff_eq, Slots.mem_values,
    forall_exists_index] at unused
  obtain ⟨⟨⟨held, builders⟩, handles⟩, refs⟩ := unused
  refine ⟨?_, ?_, ?_, ?_⟩
  · intro other member
    refine ⟨grounded.held other member, ?_⟩
    rintro rfl
    simp [show other ∈ host.heldRegistries from member] at held
  · intro builder bench found
    obtain ⟨has, reachable⟩ := grounded.builders found
    exact ⟨⟨has, builders bench builder found⟩, reachable⟩
  · intro handle value found
    exact ⟨grounded.handles found, handles value handle found⟩
  · intro ref value found
    exact ⟨grounded.refs found, refs value ref found⟩

/-- A registry goes if nothing uses it. -/
theorem leads_retireRegistry (grounded : host.tables.Grounded) :
    Leads host.tables nothing (host.after (retireRegistry key)).tables := by
  have after : (host.after (retireRegistry key)).tables =
      if host.usesRegistry key then host.tables
      else { host.tables with registries := host.registries.erase key } := by
    unfold retireRegistry after
    rw [get_bind_apply]
    cases host.usesRegistry key <;> rfl
  rw [after]
  cases unused : host.usesRegistry key with
  | true => exact .refl grounded
  | false => exact grounded.leads_erase (rooted_of_not_uses grounded unused)

/-- A registry is no longer held. -/
theorem leads_dropRegistry (grounded : host.tables.Grounded) :
    Leads host.tables nothing (host.after (dropRegistry key)).tables := by
  let middle : Host := { host with heldRegistries := host.heldRegistries.erase key }
  have leads : Leads host.tables nothing middle.tables := by
    refine grounded.leads_tables rfl (fun _ _ => rfl) ⟨?_, grounded.builders, grounded.handles,
      grounded.refs⟩
    intro registry member
    exact grounded.held registry (List.mem_of_mem_erase member)
  exact leads.then (leads_retireRegistry leads.grounded)

/-- Compiling starts to fail, or to succeed again. -/
theorem leads_setBackend (grounded : host.tables.Grounded) (has : host.tables.Has key)
    (backend : Backend) :
    Leads host.tables nothing (host.after (updateRegistry key ({ · with backend }))).tables := by
  obtain ⟨registry, found⟩ := Option.isSome_iff_exists.mp has
  rw [← only_nil key ModuleId.nil]
  have distinct : registry.Distinct := grounded.distinct found
  exact grounded.leads_modify found rfl distinct (fun _ _ => rfl) (fun _ _ _ => rfl) (.refl _)
    ⟨grounded.held, grounded.builders, grounded.handles, grounded.refs⟩

/-- A builder enters. -/
theorem leads_newBuilder (grounded : host.tables.Grounded) (has : host.tables.Has key)
    {builder : Builder} (reachable : builder.Reachable) :
    Leads host.tables nothing (host.after (newBuilder key builder)).tables := by
  refine grounded.leads_tables rfl (fun _ _ => rfl) ⟨grounded.held, ?_, grounded.handles,
    grounded.refs⟩
  intro other bench found
  have found : (host.builders.insert ⟨key, builder⟩).get? other = some bench := found
  rw [Slots.get?_insert] at found
  split at found
  · cases found
    exact ⟨has, reachable⟩
  · exact grounded.builders found

/-- A builder goes. -/
theorem leads_dropBuilder (grounded : host.tables.Grounded) :
    Leads host.tables nothing (host.after (dropBuilder key)).tables := by
  cases found : host.builders.get? key with
  | none =>
      have same : host.after (dropBuilder key) = host := by
        unfold dropBuilder after
        rw [get_bind_apply, found]
        rfl
      rw [same]
      exact .refl grounded
  | some bench =>
      let middle : Host := { host with builders := host.builders.erase key }
      have leads : Leads host.tables nothing middle.tables := by
        refine grounded.leads_tables rfl (fun _ _ => rfl) ⟨grounded.held, ?_, grounded.handles,
          grounded.refs⟩
        intro other kept isKept
        have isKept : (host.builders.erase key).get? other = some kept := isKept
        rw [Slots.get?_erase] at isKept
        split at isKept
        · cases isKept
        · exact grounded.builders isKept
      have same : host.after (dropBuilder key) =
          middle.after (retireRegistry bench.registry) := by
        unfold dropBuilder after
        rw [get_bind_apply, found]
        rfl
      rw [same]
      exact leads.then (leads_retireRegistry leads.grounded)

/-- A builder is changed by calls. -/
theorem leads_build {bench : Workbench} (grounded : host.tables.Grounded)
    (found : host.builders.get? key = some bench) {builder : Builder}
    (reachable : builder.Reachable) :
    Leads host.tables nothing
      { host.tables with
        builders := (host.builders.erase key).put key ⟨bench.registry, builder⟩ } := by
  refine grounded.leads_tables rfl (fun _ _ => rfl) ⟨grounded.held, ?_, grounded.handles,
    grounded.refs⟩
  intro other kept isKept
  dsimp only at isKept
  rw [Slots.get?_put, Slots.get?_erase] at isKept
  split at isKept
  · cases isKept
    exact ⟨(grounded.builders found).1, reachable⟩
  · split at isKept
    · cases isKept
    · exact grounded.builders isKept

/-- The builder with a given identity. -/
theorem workbench_eq {bench : Workbench} (found : host.builders.get? key = some bench) :
    host.workbench key = bench := by
  rw [workbench, found]
  rfl

/-- What building does: the builder changes, and with it nothing else. -/
theorem build_apply {α : Type} {bench : Workbench} (found : host.builders.get? key = some bench)
    (action : Build α) :
    build key action host =
      match action bench.builder with
      | .ok value builder => .ok value { host with
          builders := (host.builders.erase key).put key ⟨bench.registry, builder⟩ }
      | .error error builder => .error error { host with
          builders := (host.builders.erase key).put key ⟨bench.registry, builder⟩ } := by
  unfold build
  rw [get_bind_apply, workbench_eq found]
  obtain ⟨registry, builder⟩ := bench
  show (match action builder with
    | .ok value builder => _
    | .error error builder => _ : HostM α) _ = _
  cases action builder <;> rfl

/-- What registering a module does: it fails and leaves the builder as it is, or the builder starts
anew and the module is registered. -/
theorem create_apply {bench : Workbench} (found : host.builders.get? key = some bench)
    (fresh : ModuleId) :
    (∃ error, create key fresh host = .error error { host with
      builders := (host.builders.erase key).put key bench }) ∨
    ∃ events, verifyModule bench.builder.module = .ok () ∧
      create key fresh host = .ok () { host with
      builders := (host.builders.erase key).put key ⟨bench.registry, Builder.initial⟩
      registries := host.registries.modify bench.registry
        (·.insert { bench.builder.module with id := fresh })
      events } := by
  cases verified : verifyModule bench.builder.module with
  | error error =>
      have failed : Builder.finish fresh bench.builder = .error error bench.builder := by
        unfold Builder.finish Builder.demand
        rw [bind_apply, get_bind_apply, verified]
        rfl
      refine .inl ⟨error, ?_⟩
      unfold create finish
      rw [bind_apply, bind_apply, build_apply found, failed]
  | ok _ =>
      let module : Module := { bench.builder.module with id := fresh }
      have finished : Builder.finish fresh bench.builder = .ok module Builder.initial :=
        Builder.finish_eq_ok.mpr ⟨verified, rfl, rfl⟩
      let middle : Host := { host with
        builders := (host.builders.erase key).put key ⟨bench.registry, Builder.initial⟩
        events := .verified fresh module.vtypes.size module.regs.size module.procs.size
          :: host.events }
      have verifies : finish key fresh host = .ok module middle := by
        unfold finish
        rw [bind_apply, build_apply found, finished]
        rfl
      -- the registry is looked up once more, in the builder that has started anew
      have renewed : middle.builders.get? key = some ⟨bench.registry, Builder.initial⟩ := by
        show ((host.builders.erase key).put key _).get? key = _
        rw [Slots.get?_put, Slots.next_erase, if_pos ⟨rfl, Slots.lt_next_of_get? found⟩]
      refine .inr ⟨.registered fresh :: middle.events, rfl, ?_⟩
      unfold create
      rw [bind_apply, verifies]
      dsimp only
      rw [get_bind_apply, workbench_eq renewed]
      rfl

end

end Host
end ScopeMachine
