import ScopeMachine.Proofs.Errands

/-! # Which modules stay in a registry

After every history, the books of every module are as what has happened to it tells.

* `Host.leads_request` puts together what the requests do to the books;
* `Host.Settled` is the invariant of histories, and `History.settled` says that it always holds;
* `Registry.Audited` compares an entry with what has happened, and `keeps_books` puts together what
  histories mean for registries. -/

namespace ScopeMachine

open Books

namespace Host

open Tables

/-! ### Requests -/

/-- What a value is worth does not matter to what is done. -/
theorem after_discard {α : Type} (host : Host) (action : HostM α) :
    host.after (discard action) = host.after action := by
  unfold after
  rw [discard_apply]
  cases action host <;> rfl

/-- What a value is worth does not matter to whether there is one. -/
theorem succeeds_discard {α : Type} (host : Host) (action : HostM α) :
    host.succeeds (discard action) = host.succeeds action := by
  unfold succeeds
  rw [discard_apply]
  cases action host <;> rfl

section
variable {turns : List Turn} {host : Host} {request : Request}

/-- The deeds of a request that is not one to a module. -/
theorem deeds_eq_nothing (plain : ∀ key id, request.deeds host key id = []) :
    Turn.deeds ⟨host, request⟩ = nothing := by
  funext key id
  unfold Turn.deeds nothing
  rw [plain, ite_self]

/-- A request that leads to no deed. -/
theorem leads_plain (plain : ∀ key id, request.deeds host key id = [])
    (leads : Leads host.tables nothing (host.after request.perform).tables) :
    Leads host.tables (Turn.deeds ⟨host, request⟩) (Turn.after ⟨host, request⟩).tables := by
  rw [deeds_eq_nothing plain]
  exact leads

/-- A request that leads to no deed, and whose value does not matter. -/
theorem leads_discard {α : Type} {action : HostM α} (performs : request.perform = discard action)
    (plain : ∀ key id, request.deeds host key id = [])
    (leads : Leads host.tables nothing (host.after action).tables) :
    Leads host.tables (Turn.deeds ⟨host, request⟩) (Turn.after ⟨host, request⟩).tables := by
  refine leads_plain plain ?_
  rw [performs, after_discard]
  exact leads

/-- A module that may be registered is the first of its identity. -/
theorem fresh_of_allowed {key : Nat} {fresh : ModuleId}
    (allowed : Request.isAllowed (.create key fresh) turns host = true) :
    ∃ bench, host.builders.get? key = some bench ∧
      ¬ Registered (record turns bench.registry fresh) := by
  unfold Request.isAllowed at allowed
  cases found : host.builders.get? key with
  | none => simp [found] at allowed
  | some bench =>
      refine ⟨bench, rfl, ?_⟩
      rintro ⟨module, member⟩
      simp only [found, Option.any_some, List.all_eq_true] at allowed
      cases allowed _ member

/-- **Every request but one for a registry changes the books by steps**, and by those of its deeds
if it succeeds. -/
theorem leads_request (orderly : host.tables.Orderly (record turns))
    (allowed : request.isAllowed turns host = true)
    (old : ∀ backend, request ≠ .newRegistry backend) :
    Leads host.tables (Turn.deeds ⟨host, request⟩) (Turn.after ⟨host, request⟩).tables := by
  have grounded := orderly.grounded
  cases request with
  | newRegistry backend => exact absurd rfl (old backend)
  | dropRegistry key => exact leads_plain (fun _ _ => rfl) (leads_dropRegistry grounded)
  | setBackend key backend =>
      exact leads_plain (fun _ _ => rfl) (leads_setBackend grounded allowed backend)
  | newBuilder key =>
      exact leads_discard rfl (fun _ _ => rfl) (leads_newBuilder grounded allowed .initial)
  | reopen key description =>
      cases replayed : Builder.ofModule description with
      | error error =>
          refine leads_plain (fun _ _ => rfl) ?_
          have fails : Request.perform (.reopen key description) = throw error := by
            simp only [Request.perform, replayed]
          rw [fails]
          exact .refl grounded
      | ok builder =>
          refine leads_discard ?_ (fun _ _ => rfl)
            (leads_newBuilder grounded allowed (.ofModule replayed))
          simp only [Request.perform, replayed]
  | build key call =>
      obtain ⟨bench, found⟩ := Option.isSome_iff_exists.mp allowed
      refine leads_plain (fun _ _ => rfl) ?_
      show Leads _ _ (host.after (Host.build key (modify fun state => call.perform state))).tables
      unfold after
      rw [build_apply found]
      exact leads_build grounded found (.call (grounded.builders found).2 call)
  | create key fresh =>
      obtain ⟨bench, found, first⟩ := fresh_of_allowed allowed
      have leads := leads_create orderly found first
      have same : Turn.deeds ⟨host, .create key fresh⟩ =
          if host.succeeds (create key fresh) then
            only bench.registry fresh [.registered { bench.builder.module with id := fresh }]
          else nothing := by
        funext otherKey other
        unfold Turn.deeds Request.deeds
        dsimp only
        rw [workbench_eq found,
          show Turn.succeeded ⟨host, .create key fresh⟩ = host.succeeds (create key fresh) from rfl]
        cases host.succeeds (create key fresh) with
        | false => rfl
        | true =>
            simp only [if_true, only, eq_comm (a := bench.registry), eq_comm (a := fresh)]
      rw [same]
      exact leads
  | dropBuilder key => exact leads_plain (fun _ _ => rfl) (leads_dropBuilder grounded)
  | retain key id => exact leads_discard rfl (fun _ _ => rfl) (leads_newRef grounded allowed)
  | dropRef key =>
      obtain ⟨ref, found⟩ := Option.isSome_iff_exists.mp allowed
      exact leads_plain (fun _ _ => rfl) (leads_dropRef orderly found)
  | newHandle key id => exact leads_discard rfl (fun _ _ => rfl) (leads_newHandle grounded allowed)
  | cloneHandle key =>
      obtain ⟨handle, found⟩ := Option.isSome_iff_exists.mp allowed
      exact leads_discard rfl (fun _ _ => rfl) (leads_cloneHandle grounded found)
  | bind key id =>
      obtain ⟨handle, found⟩ := Option.isSome_iff_exists.mp allowed
      exact leads_plain (fun _ _ => rfl) (leads_bindHandle orderly found id)
  | release key =>
      obtain ⟨handle, found⟩ := Option.isSome_iff_exists.mp allowed
      obtain ⟨after, released, -, -, leads⟩ := leads_releaseHandle orderly found
      refine leads_plain (fun _ _ => rfl) ?_
      show Leads _ _ (host.after (releaseHandle key)).tables
      unfold Host.after
      rw [released]
      exact leads
  | dropHandle key =>
      obtain ⟨handle, found⟩ := Option.isSome_iff_exists.mp allowed
      exact leads_plain (fun _ _ => rfl) (leads_dropHandle orderly found)
  | ask party errand =>
      obtain ⟨speaks, -⟩ := (Bool.and_eq_true _ _).mp allowed
      obtain ⟨subject, speaks⟩ := Option.isSome_iff_exists.mp speaks
      have leads := leads_ask errand orderly speaks
      have same : Turn.deeds ⟨host, .ask party errand⟩ =
          if host.succeeds (ask party errand) then
            only subject.registry subject.module errand.deeds
          else nothing := by
        funext otherKey other
        unfold Turn.deeds
        rw [show Turn.succeeded ⟨host, .ask party errand⟩ =
          host.succeeds (discard (ask party errand)) from rfl, succeeds_discard]
        cases host.succeeds (ask party errand) with
        | false => rfl
        | true =>
            obtain ⟨registry, module⟩ := subject
            simp only [if_true, only, Request.deeds, speaks, Option.some.injEq, ModuleRef.mk.injEq,
              eq_comm]
      rw [same, Turn.after, show Request.perform (.ask party errand) = discard (ask party errand)
        from rfl, after_discard]
      exact leads
  | lookUp key part =>
      obtain ⟨handle, found⟩ := Option.isSome_iff_exists.mp allowed
      exact leads_plain (fun _ _ => rfl) (leads_lookUp orderly found part)
  | newVariable key vtype count =>
      obtain ⟨handle, found⟩ := Option.isSome_iff_exists.mp allowed
      exact leads_discard rfl (fun _ _ => rfl) (leads_newVariable orderly found vtype count)
  | newVar layout count =>
      exact leads_plain (fun _ _ => rfl) ((spares_newVar _).discard.leads grounded)
  | hold var => exact leads_plain (fun _ _ => rfl) ((spares_hold var).leads grounded)
  | unhold var => exact leads_plain (fun _ _ => rfl) ((spares_unhold var).leads grounded)
  | edit var change => exact leads_plain (fun _ _ => rfl) ((spares_edit var change).leads grounded)
  | setOwnedRef owner element slot referent =>
      exact leads_plain (fun _ _ => rfl) ((spares_setOwnedRef owner element slot referent).leads
        grounded)

end

/-- A registry enters. It has no modules, and nothing names it yet. -/
theorem books_newRegistry {host : Host} (grounded : host.tables.Grounded) (backend : Backend)
    (key : Nat) (id : ModuleId) :
    (host.after (newRegistry backend)).tables.books key id =
      if key = host.registries.next then ⟨none, 0⟩ else host.tables.books key id := by
  unfold books
  show Books.mk (((host.registries.insert (Registry.empty backend)).get? key).bind _)
    (host.tables.liveRefs key id) = _
  rw [Slots.get?_insert]
  by_cases new : key = host.registries.next
  · have absent : ¬ host.tables.Has key := not_has_of_next_le (Nat.le_of_eq new.symm)
    have unheld : host.tables.liveRefs key id = 0 :=
      Nat.eq_zero_of_not_pos fun held => absent (grounded.has_of_liveRefs held)
    rw [if_pos new, if_pos new, unheld]
    rfl
  · rw [if_neg new, if_neg new]
    rfl

end Host

/-! ### Histories -/

/-- The tables of a host are as its history tells, and nothing has happened to registries that are
not there yet. -/
structure Host.Settled (turns : List Turn) (host : Host) : Prop where
  /-- The tables are in order. -/
  orderly : host.tables.Orderly (record turns)
  /-- Nothing has happened in registries to come. -/
  future : ∀ key id, host.registries.next ≤ key → record turns key id = []

namespace Host

open Tables

/-- An empty host is settled. -/
theorem settled_empty : Settled [] empty := by
  have absent : ∀ key, ¬ empty.tables.Has key := fun key => not_has_of_next_le (Nat.zero_le key)
  refine ⟨⟨⟨⟨?_, ?_, ?_, ?_⟩, ?_⟩, ?_⟩, fun _ _ _ => rfl⟩
  · intro key member
    cases member
  · intro key bench found
    rw [show empty.tables.builders.get? key = none from Slots.get?_empty key] at found
    cases found
  · intro key handle found
    rw [show empty.tables.handles.get? key = none from Slots.get?_empty key] at found
    cases found
  · intro key ref found
    rw [show empty.tables.refs.get? key = none from Slots.get?_empty key] at found
    cases found
  · intro key registry found
    rw [show empty.tables.registries.get? key = none from Slots.get?_empty key] at found
    cases found
  · intro key id has
    exact absurd has (absent key)

section
variable {turns : List Turn} {host : Host} {request : Request}

/-- What a request does to a module: nothing, or it registers the module, or it carries out an
errand of a party that speaks of it. -/
theorem deeds_cases (host : Host) (request : Request) (key : Nat) (id : ModuleId) :
    Turn.deeds ⟨host, request⟩ key id = [] ∨
    (∃ builder, request = .create builder id ∧ (host.workbench builder).registry = key ∧
      host.succeeds (create builder id) = true ∧ Turn.deeds ⟨host, request⟩ key id =
        [.registered { (host.workbench builder).builder.module with id }]) ∨
    ∃ party errand, request = .ask party errand ∧ host.subject? party = some ⟨key, id⟩ ∧
      Turn.deeds ⟨host, request⟩ key id = errand.deeds := by
  by_cases done : Turn.succeeded ⟨host, request⟩ = true
  · unfold Turn.deeds
    rw [if_pos done]
    unfold Request.deeds
    cases request with
    | create builder fresh =>
        by_cases here : (host.workbench builder).registry = key ∧ fresh = id
        · obtain ⟨isKey, rfl⟩ := here
          exact .inr (.inl ⟨builder, rfl, isKey, done, if_pos ⟨isKey, rfl⟩⟩)
        · exact .inl (if_neg here)
    | ask party errand =>
        by_cases speaks : host.subject? party = some ⟨key, id⟩
        · exact .inr (.inr ⟨party, errand, rfl, speaks, if_pos speaks⟩)
        · exact .inl (if_neg speaks)
    | _ => exact .inl rfl
  · exact .inl (if_neg done)

/-- The registry of a module that someone speaks of is there. -/
theorem has_of_subject? {party : Party} {subject : ModuleRef} (grounded : host.tables.Grounded)
    (speaks : host.subject? party = some subject) : host.tables.Has subject.registry := by
  cases party with
  | ref key => exact grounded.refs speaks
  | handle key =>
      obtain ⟨handle, found, rfl⟩ := Option.map_eq_some_iff.mp speaks
      exact grounded.handles found

/-- A deed is done to a module of a registry that is there. -/
theorem has_of_deeds (grounded : host.tables.Grounded)
    (allowed : request.isAllowed turns host = true) {key : Nat} {id : ModuleId}
    (done : Turn.deeds ⟨host, request⟩ key id ≠ []) : host.tables.Has key := by
  rcases deeds_cases host request key id with
    none | ⟨builder, rfl, rfl, -⟩ | ⟨party, errand, -, speaks, -⟩
  · exact absurd none done
  · obtain ⟨bench, found, -⟩ := fresh_of_allowed allowed
    rw [workbench_eq found]
    exact (grounded.builders found).1
  · exact has_of_subject? grounded speaks

/-- A request does at most one thing to a module. -/
theorem length_deeds_le (key : Nat) (id : ModuleId) :
    (Turn.deeds ⟨host, request⟩ key id).length ≤ 1 := by
  rcases deeds_cases host request key id with none | ⟨_, -, -, -, one⟩ | ⟨_, errand, -, -, one⟩
  · simp [none]
  · simp [one]
  · rw [one]
    cases errand <;> simp [Errand.deeds]

/-- What registers a module is a request that may. -/
theorem fresh_of_deeds (allowed : request.isAllowed turns host = true) {key : Nat} {id : ModuleId}
    {module : Module} (registers : .registered module ∈ Turn.deeds ⟨host, request⟩ key id) :
    ¬ Registered (record turns key id) := by
  rcases deeds_cases host request key id with
    none | ⟨builder, rfl, rfl, -⟩ | ⟨party, errand, -, -, one⟩
  · rw [none] at registers
    cases registers
  · obtain ⟨bench, found, first⟩ := fresh_of_allowed allowed
    rw [workbench_eq found]
    exact first
  · rw [one] at registers
    cases errand <;> simp [Errand.deeds] at registers

/-- **What a request does to the books.** A registry that is there after it was there before, and
the books of its modules have changed by steps; or it is new and has no modules. -/
theorem Settled.course (settled : Settled turns host)
    (allowed : request.isAllowed turns host = true) {key : Nat} (id : ModuleId)
    (has : (Turn.after ⟨host, request⟩).tables.Has key) :
    (host.tables.Has key ∧ Course (host.tables.books key id) (Turn.deeds ⟨host, request⟩ key id)
      ((Turn.after ⟨host, request⟩).tables.books key id)) ∨
    (key = host.registries.next ∧
      (Turn.after ⟨host, request⟩).tables.books key id = ⟨none, 0⟩) := by
  by_cases new : ∃ backend, request = .newRegistry backend
  · obtain ⟨backend, rfl⟩ := new
    have after : Turn.after ⟨host, .newRegistry backend⟩ = host.after (newRegistry backend) := by
      unfold Turn.after
      rw [show Request.perform (.newRegistry backend) = discard (newRegistry backend) from rfl,
        after_discard]
    rw [after] at has ⊢
    rw [books_newRegistry settled.orderly.grounded]
    by_cases isNew : key = host.registries.next
    · exact .inr ⟨isNew, if_pos isNew⟩
    · refine .inl ⟨?_, ?_⟩
      · have has : ((host.registries.insert (Registry.empty backend)).get? key).isSome = true := has
        rwa [Slots.get?_insert, if_neg isNew] at has
      · rw [if_neg isNew, show Turn.deeds ⟨host, .newRegistry backend⟩ key id = [] from
          congrFun (congrFun (deeds_eq_nothing fun _ _ => rfl) key) id]
        exact .refl _
  · have leads := leads_request settled.orderly allowed fun backend same => new ⟨backend, same⟩
    exact .inl (leads.course id has)

/-- The tables stay grounded. -/
theorem Settled.grounded_after (settled : Settled turns host)
    (allowed : request.isAllowed turns host = true) :
    (Turn.after ⟨host, request⟩).tables.Grounded ∧
      host.registries.next ≤ (Turn.after ⟨host, request⟩).registries.next := by
  by_cases new : ∃ backend, request = .newRegistry backend
  · obtain ⟨backend, rfl⟩ := new
    have grounded := settled.orderly.grounded
    have after : Turn.after ⟨host, .newRegistry backend⟩ = host.after (newRegistry backend) := by
      unfold Turn.after
      rw [show Request.perform (.newRegistry backend) = discard (newRegistry backend) from rfl,
        after_discard]
    rw [after]
    have get : ∀ key, (host.after (newRegistry backend)).tables.registries.get? key =
        if key = host.registries.next then some (Registry.empty backend)
        else host.registries.get? key := fun key => Slots.get?_insert ..
    have has : ∀ {key}, host.tables.Has key →
        (host.after (newRegistry backend)).tables.Has key := by
      intro key has
      unfold Has
      rw [get]
      split
      · rfl
      · exact has
    refine ⟨⟨⟨?_, ?_, ?_, ?_⟩, ?_⟩, ?_⟩
    · intro key member
      rcases List.mem_cons.mp member with rfl | member
      · unfold Has
        rw [get, if_pos rfl]
        rfl
      · exact has (grounded.held key member)
    · intro key bench found
      obtain ⟨known, reachable⟩ := grounded.builders found
      exact ⟨has known, reachable⟩
    · intro key handle found
      exact has (grounded.handles found)
    · intro key ref found
      exact has (grounded.refs found)
    · intro key registry found
      rw [get] at found
      split at found
      · cases found
        exact List.nodup_nil
      · exact grounded.distinct found
    · show host.registries.next ≤ (host.registries.insert _).next
      rw [Slots.next_insert]
      omega
  · have leads := leads_request settled.orderly allowed fun backend same => new ⟨backend, same⟩
    exact ⟨leads.grounded, Nat.le_of_eq leads.next.symm⟩

/-- **Every request keeps hosts settled.** -/
theorem Settled.next (settled : Settled turns host)
    (allowed : request.isAllowed turns host = true) :
    Settled (⟨host, request⟩ :: turns) (Turn.after ⟨host, request⟩) := by
  obtain ⟨grounded, grows⟩ := settled.grounded_after allowed
  have undone : ∀ key id, host.registries.next ≤ key → Turn.deeds ⟨host, request⟩ key id = [] := by
    intro key id future
    apply Classical.byContradiction
    intro done
    exact not_has_of_next_le future (has_of_deeds settled.orderly.grounded allowed done)
  refine ⟨⟨grounded, ?_⟩, ?_⟩
  · intro key id has
    show Agrees (Turn.deeds ⟨host, request⟩ key id ++ record turns key id) _
    rcases settled.course allowed id has with ⟨hasBefore, course⟩ | ⟨new, none⟩
    · exact (settled.orderly.agrees id hasBefore).course course (fun _ => fresh_of_deeds allowed)
        (length_deeds_le key id)
    · have future := Nat.le_of_eq new.symm
      rw [none, undone key id future, settled.future key id future]
      exact .unknown
  · intro key id future
    show Turn.deeds ⟨host, request⟩ key id ++ record turns key id = []
    rw [undone key id (Nat.le_trans grows future),
      settled.future key id (Nat.le_trans grows future)]
    rfl

end

end Host

/-- **After every history, the host is settled.** -/
theorem History.settled {turns : List Turn} {host : Host} (history : History turns host) :
    host.Settled turns :=
  history.holds Host.settled_empty fun _ settled allowed => settled.next allowed

/-- Every turn of a history has a history before it. -/
theorem History.exists_before {turns : List Turn} {host : Host} (history : History turns host)
    {turn : Turn} (member : turn ∈ turns) :
    ∃ earlier, History earlier turn.host ∧ turn.request.isAllowed earlier turn.host = true := by
  induction history with
  | start => cases member
  | @next turns host request history allowed ih =>
      rcases List.mem_cons.mp member with rfl | member
      · exact ⟨turns, history, allowed⟩
      · exact ih member

/-- A registered module has been built by calls, and its code has been verified. -/
theorem History.exists_builder {turns : List Turn} {host : Host} (history : History turns host)
    {key : Nat} {id : ModuleId} {module : Module}
    (registered : .registered module ∈ record turns key id) :
    ∃ builder : Builder, builder.Reachable ∧ verifyModule builder.module = .ok () ∧
      module = { builder.module with id } := by
  obtain ⟨turn, member, done⟩ := List.mem_flatMap.mp registered
  obtain ⟨earlier, before, allowed⟩ := history.exists_before member
  obtain ⟨host, request⟩ := turn
  rcases Host.deeds_cases host request key id with
    none | ⟨key, rfl, -, succeeded, one⟩ | ⟨party, errand, -, -, one⟩
  · rw [none] at done
    cases done
  · obtain ⟨bench, found, -⟩ := Host.fresh_of_allowed allowed
    rw [one, Host.workbench_eq found, List.mem_singleton, Deed.registered.injEq] at done
    refine ⟨bench.builder, (before.settled.orderly.grounded.builders found).2, ?_, done⟩
    unfold Host.succeeds at succeeded
    rcases Host.create_apply found id with ⟨error, failed⟩ | ⟨events, verified, -⟩
    · rw [failed] at succeeded
      cases succeeded
    · exact verified
  · rw [one] at done
    cases errand <;> simp [Errand.deeds] at done

/-! ### What the books say -/

/-- What a registry says of a module, after some deeds and with so many references in the hands of
others. -/
structure Registry.Audited (registry : Registry) (id : ModuleId) (deeds : List Deed)
    (live : Nat) : Prop where
  /-- An entry counts the registry's own reference and all others. -/
  counted : ∀ refs, registry.refCount? id = some refs → refs = 1 + live
  /-- There is an entry for a registered module until it is destroyed and has no references. -/
  resident : registry.isResident id = true ↔
    Registered deeds ∧ ¬ (.destroyed ∈ deeds ∧ live = 0)
  /-- References can be taken to registered modules that were never destroyed. -/
  retained : (registry.retain? id).isSome = true ↔ Registered deeds ∧ .destroyed ∉ deeds
  /-- Registered modules that were never destroyed are listed. -/
  listed : id ∈ registry.liveIds ↔ Registered deeds ∧ .destroyed ∉ deeds

/-- Books that are as they should be pass the audit. -/
theorem Books.Agrees.audited {registry : Registry} {id : ModuleId} {deeds : List Deed} {live : Nat}
    (agrees : Agrees deeds ⟨registry.find? id, live⟩) (distinct : registry.Distinct) :
    registry.Audited id deeds live := by
  have listed := distinct.mem_liveIds id
  have retained : (registry.retain? id).isSome = true ↔
      ∃ entry, registry.find? id = some entry ∧ entry.destroyed = false := by
    rw [Option.isSome_iff_exists]
    simp only [Registry.retain?_eq_some]
    constructor
    · rintro ⟨_, entry, found, living, -⟩
      exact ⟨entry, found, living⟩
    · rintro ⟨entry, found, living⟩
      exact ⟨_, entry, found, living, rfl⟩
  generalize isEntry : registry.find? id = found at agrees listed retained
  have resident : registry.isResident id = found.isSome := by
    rw [Registry.isResident, isEntry]
  have refs : registry.refCount? id = found.map Entry.refs := by
    rw [Registry.refCount?, isEntry]
  cases agrees with
  | unknown =>
      have none : ¬ Registered [] := fun ⟨_, member⟩ => by cases member
      exact ⟨by simp [refs], by simp [resident, none], by simp [retained, none],
        by simp [listed, none]⟩
  | @living _ entry _ module named never flag shows counted =>
      have registered : Registered deeds := ⟨module, (named module).mpr rfl⟩
      refine ⟨?_, by simp [resident, registered, never],
        by simp [retained, flag, registered, never], by simp [listed, flag, registered, never]⟩
      intro count isCount
      rw [refs, Option.map_some, Option.some.injEq] at isCount
      omega
  | @lingering _ entry _ module named once flag stage counted =>
      have registered : Registered deeds := ⟨module, (named module).mpr rfl⟩
      have destroyed : .destroyed ∈ deeds := List.count_pos_iff.mp (by omega)
      refine ⟨?_, by simp [resident, registered], by simp [retained, flag, destroyed],
        by simp [listed, flag, destroyed]⟩
      intro count isCount
      rw [refs, Option.map_some, Option.some.injEq] at isCount
      omega
  | erased named once =>
      have destroyed : .destroyed ∈ deeds := List.count_pos_iff.mp (by omega)
      exact ⟨by simp [refs], by simp [resident, destroyed], by simp [retained, destroyed],
        by simp [listed, destroyed]⟩

/-- Where there is no entry, there is none until a module is registered. -/
theorem Books.Course.of_none {deeds : List Deed} {before after : Books}
    (course : Course before deeds after) (none : before = ⟨none, 0⟩)
    (unregistered : ∀ module, .registered module ∉ deeds) : after = ⟨.none, 0⟩ := by
  induction course with
  | refl => exact none
  | step course step ih =>
      have middle := ih fun module member => unregistered module (List.mem_append_right _ member)
      subst middle
      cases step with
      | registers module => exact absurd List.mem_cons_self (unregistered module)

section
variable {turns later : List Turn} {host after : Host} {key : Nat} {id : ModuleId}

/-- An entry that has gone does not come back. -/
theorem History.books_eq_none (history : History turns host)
    (registered : Registered (record turns key id))
    (gone : host.tables.books key id = ⟨none, 0⟩) (goesOn : History (later ++ turns) after)
    (hasAfter : after.tables.Has key) : after.tables.books key id = ⟨none, 0⟩ := by
  induction later generalizing after with
  | nil =>
      rw [goesOn.unique history]
      exact gone
  | cons turn later ih =>
      rw [List.cons_append] at goesOn
      generalize sofar : later ++ turns = past at goesOn
      cases goesOn with
      | @next _ middle request middleHistory allowed =>
          subst sofar
          have settled := middleHistory.settled
          rcases settled.course allowed id hasAfter with ⟨hasMiddle, course⟩ | ⟨-, none⟩
          · refine course.of_none (ih middleHistory hasMiddle) fun module member => ?_
            -- the module was registered long before
            refine Host.fresh_of_deeds allowed member ?_
            obtain ⟨first, isFirst⟩ := registered
            refine ⟨first, ?_⟩
            unfold record
            rw [List.flatMap_append]
            exact List.mem_append_right _ isFirst
          · exact none

end

/-- A registry that is there passes the audit. -/
theorem History.audited {turns : List Turn} {host : Host} (history : History turns host) {key : Nat}
    {registry : Registry} (found : host.registries.get? key = some registry) (id : ModuleId) :
    registry.Audited id (record turns key id) (host.tables.liveRefs key id) := by
  have orderly := history.settled.orderly
  have agrees := orderly.agrees id (Tables.has_of_get? found)
  rw [Tables.books_eq found] at agrees
  exact agrees.audited (orderly.grounded.distinct found)

/-- **Registries keep their books.** After every history, the entry of a module counts the
registry's own reference and every other, and it is there exactly from when the module is registered
until it has been destroyed and no reference is left; whoever has a reference finds the entry; an
entry that has gone does not come back; and every request has changed the books by steps only, of
which the one that lowers a count starts from two or more. -/
theorem keeps_books {turns : List Turn} {host : Host} (history : History turns host) :
    (∀ key registry id, host.registries.get? key = some registry →
      registry.Audited id (record turns key id) (host.tables.liveRefs key id)) ∧
    (∀ key id, 0 < host.tables.liveRefs key id →
      ∃ registry, host.registries.get? key = some registry ∧ registry.isResident id = true) ∧
    (∀ key registry id, host.registries.get? key = some registry →
      Registered (record turns key id) → registry.isResident id = false →
      ∀ later after, History (later ++ turns) after →
        ∀ registry, after.registries.get? key = some registry →
          registry.isResident id = false) ∧
    ∀ turn ∈ turns, ∀ key id, turn.host.tables.Has key → turn.after.tables.Has key →
      Course (turn.host.tables.books key id) (turn.deeds key id)
        (turn.after.tables.books key id) := by
  have settled := history.settled
  refine ⟨fun key registry id found => history.audited found id, ?_, ?_, ?_⟩
  · intro key id held
    obtain ⟨registry, entry, found, isEntry, -⟩ :=
      settled.orderly.exists_entry (settled.orderly.grounded.has_of_liveRefs held) held
    refine ⟨registry, found, ?_⟩
    rw [Registry.isResident, isEntry]
    rfl
  · intro key registry id found registered gone later after goesOn registryAfter foundAfter
    have audited := history.audited found id
    have none : registry.find? id = none := by
      simpa [Registry.isResident] using gone
    have unheld : host.tables.liveRefs key id = 0 := by
      have notResident := mt audited.resident.mpr (by simp [gone])
      simp only [registered, true_and, Classical.not_not] at notResident
      exact notResident.2
    have books : host.tables.books key id = ⟨.none, 0⟩ := by
      rw [Tables.books_eq found, none, unheld]
    have still := history.books_eq_none registered books goesOn (Tables.has_of_get? foundAfter)
    rw [Tables.books_eq foundAfter, Books.mk.injEq] at still
    rw [Registry.isResident, still.1]
    rfl
  · intro turn member key id hasBefore hasAfter
    obtain ⟨earlier, before, allowed⟩ := history.exists_before member
    rcases before.settled.course allowed id hasAfter with ⟨-, course⟩ | ⟨new, -⟩
    · exact course
    · exact absurd hasBefore (Tables.not_has_of_next_le (Nat.le_of_eq new.symm))

namespace Samples

/-- The identity of a module without procedures. -/
def blank : ModuleId := ⟨1⟩

/-- The module is registered, and a handle and a reference to it are taken. It is destroyed, and the
reference is given back, while the handle keeps its own. -/
def lingering : List Host.Request :=
  [.newRegistry .unavailable, .newBuilder 0, .create 0 blank, .newHandle 0 blank,
    .retain 0 blank, .ask (.handle 0) .describe, .ask (.ref 0) .destroy, .dropRef 0]

end Samples

/-- A module that has been destroyed lingers for the one handle that still has a reference: the
entry counts two and cannot be found. -/
theorem lingering_counted : ∃ turns host registry,
    advance Samples.lingering [] Host.empty = some (turns, host) ∧
      host.registries.get? 0 = some registry ∧
      (∀ refs, registry.refCount? Samples.blank = some refs → refs = 2) ∧
      registry.isResident Samples.blank = true ∧ Samples.blank ∉ registry.liveIds := by
  have runs : (advance Samples.lingering [] Host.empty).isSome = true := by decide +kernel
  obtain ⟨⟨turns, host⟩, advanced⟩ := Option.isSome_iff_exists.mp runs
  have there : (advance Samples.lingering [] Host.empty).all fun result =>
      (result.2.registries.get? 0).isSome = true := by decide +kernel
  have live : (advance Samples.lingering [] Host.empty).all fun result =>
      result.2.tables.liveRefs 0 Samples.blank = 1 := by decide +kernel
  have destroyed : (advance Samples.lingering [] Host.empty).all fun result =>
      .destroyed ∈ record result.1 0 Samples.blank := by decide +kernel
  simp only [advanced, Option.all_some, decide_eq_true_eq] at there live destroyed
  obtain ⟨registry, found⟩ := Option.isSome_iff_exists.mp there
  obtain ⟨audited, held, -, -⟩ := keeps_books (history_of_advance .start advanced)
  obtain ⟨same, foundSame, resident⟩ := held 0 Samples.blank (by omega)
  obtain rfl : same = registry := Option.some.inj (foundSame.symm.trans found)
  have audit := audited 0 same Samples.blank found
  refine ⟨turns, host, same, advanced, found, ?_, resident, ?_⟩
  · intro refs isCount
    have counted := audit.counted refs isCount
    omega
  · intro member
    exact (audit.listed.mp member).2 destroyed

end ScopeMachine
