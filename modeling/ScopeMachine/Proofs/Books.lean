import ScopeMachine.Proofs.Requests

/-! # The books of a registry

For each module, a registry keeps an entry with a count of the references to it, and the references
themselves are in the hands of others: kept on their own, or by handles. `Books` is what there is on
both sides, for one module, and `Books.Step` lists the few ways in which the two sides change,
always together.

* `Books.Agrees` says what the books are like after a row of deeds, and `Books.Agrees.course` that
  every course of steps keeps it so. -/

namespace ScopeMachine

/-! ### Entries by identity -/

/-- What is left of an entry when a reference is given back: nothing, if the module has been
destroyed and no other reference is left. -/
def Entry.giveBack (entry : Entry) : Option Entry :=
  if entry.refs - 1 ≤ 1 && entry.destroyed then none
  else some { entry with refs := entry.refs - 1 }

namespace Registry

/-- No two entries have the same identity. -/
def Distinct (registry : Registry) : Prop := (registry.entries.map Entry.id).Nodup

section
variable {registry : Registry} {target id : ModuleId} {change : Entry → Entry}

/-- An entry that is found has the identity that was looked for. -/
theorem id_of_find? {entry : Entry} (found : registry.find? id = some entry) : entry.id = id := by
  have isIt := List.find?_some found
  exact beq_iff_eq.mp isIt

/-- A changed entry is found under its identity, and all else as before. -/
theorem find?_modifyEntry (keepsId : ∀ entry, (change entry).id = entry.id) :
    (registry.modifyEntry target change).find? id =
      if id = target then (registry.find? id).map change else registry.find? id := by
  unfold modifyEntry find?
  have sameTest : (fun entry => entry.id == id) ∘
      (fun entry => if entry.id = target then change entry else entry) =
        fun entry : Entry => entry.id == id := by
    funext entry
    by_cases isTarget : entry.id = target <;> simp [isTarget, keepsId]
  rw [List.find?_map, sameTest]
  cases found : registry.entries.find? fun entry => entry.id == id with
  | none => simp
  | some entry =>
      have isIt : entry.id = id := id_of_find? found
      by_cases same : id = target <;> simp [isIt, same]

/-- A module that is destroyed leaves its stage behind. -/
theorem destroy_setStage (registry : Registry) (id : ModuleId) (stage : Stage) :
    (registry.setStage id stage).destroy id = registry.destroy id := by
  unfold destroy setStage modifyEntry
  simp only [List.map_map]
  congr 1
  apply List.map_congr_left
  intro entry _
  by_cases isIt : entry.id = id <;> simp [isIt]

/-- Changing an entry keeps identities apart. -/
theorem Distinct.modifyEntry (distinct : registry.Distinct)
    (keepsId : ∀ entry, (change entry).id = entry.id) :
    (registry.modifyEntry target change).Distinct := by
  have sameIds : (registry.modifyEntry target change).entries.map Entry.id =
      registry.entries.map Entry.id := by
    unfold Registry.modifyEntry
    rw [List.map_map]
    apply List.map_congr_left
    intro entry _
    by_cases isTarget : entry.id = target <;> simp [isTarget, keepsId]
  unfold Distinct
  rw [sameIds]
  exact distinct

/-- An entry that was taken out is not found, and all else is as before. -/
theorem find?_filter (registry : Registry) (target id : ModuleId) :
    { registry with entries := registry.entries.filter fun entry => entry.id != target }.find? id =
      if id = target then none else registry.find? id := by
  unfold find?
  rw [List.find?_filter]
  by_cases same : id = target
  · subst same
    simp
  · rw [if_neg same]
    congr 1
    funext entry
    by_cases isIt : entry.id = id <;> simp [isIt, same]

/-- Taking entries out keeps identities apart. -/
theorem Distinct.filter (distinct : registry.Distinct) (keep : Entry → Bool) :
    Distinct { registry with entries := registry.entries.filter keep } :=
  List.Nodup.sublist (List.filter_sublist.map _) distinct

/-- A registered module is found under its identity, and all else as before. -/
theorem find?_insert (module : Module) :
    (registry.insert module).find? id =
      if id = module.id then some ⟨module.id, .structural module, false, 1⟩
      else registry.find? id := by
  by_cases same : id = module.id
  · subst same
    simp [insert, find?]
  · have others := find?_filter registry module.id id
    rw [if_neg same] at others ⊢
    rw [← others]
    simp [insert, find?, Ne.symm same]

/-- Registering a module keeps identities apart. -/
theorem Distinct.insert (distinct : registry.Distinct) (module : Module) :
    (registry.insert module).Distinct := by
  unfold Distinct Registry.insert
  rw [List.map_cons, List.nodup_cons]
  refine ⟨?_, distinct.filter _⟩
  simp

/-- Giving a reference back changes the entry of the module, or takes it out. -/
theorem find?_release :
    (registry.release target).find? id =
      if id = target then (registry.find? id).bind Entry.giveBack else registry.find? id := by
  unfold release isLastRelease
  cases found : registry.find? target with
  | none =>
      rw [Option.any_none, if_neg (by decide), find?_modifyEntry (by intro entry; rfl)]
      by_cases same : id = target
      · subst same
        simp [found]
      · simp [same]
  | some entry =>
      rw [Option.any_some]
      by_cases last : (entry.refs - 1 ≤ 1 && entry.destroyed) = true
      · rw [if_pos last, find?_filter]
        by_cases same : id = target
        · subst same
          rw [if_pos rfl, if_pos rfl, found, Option.bind_some, Entry.giveBack, if_pos last]
        · rw [if_neg same, if_neg same]
      · rw [if_neg last, find?_modifyEntry (by intro entry; rfl)]
        by_cases same : id = target
        · subst same
          rw [if_pos rfl, if_pos rfl, found, Option.bind_some, Entry.giveBack, if_neg last]
          rfl
        · rw [if_neg same, if_neg same]

/-- Giving a reference back keeps identities apart. -/
theorem Distinct.release (distinct : registry.Distinct) (target : ModuleId) :
    (registry.release target).Distinct := by
  unfold Registry.release
  split
  · exact distinct.filter _
  · exact distinct.modifyEntry fun _ => rfl

/-- A reference can be taken to a module that is there and not destroyed. -/
theorem retain?_eq_some {retained : Registry} :
    registry.retain? id = some retained ↔
      ∃ entry, registry.find? id = some entry ∧ entry.destroyed = false ∧
        retained = registry.modifyEntry id fun entry => { entry with refs := entry.refs + 1 } := by
  unfold retain?
  cases registry.find? id with
  | none => simp
  | some entry =>
      cases destroyed : entry.destroyed with
      | false => simp [destroyed, eq_comm (b := retained)]
      | true => simp [destroyed]

/-- An entry is found under its own identity. -/
theorem Distinct.find?_of_mem (distinct : registry.Distinct) {entry : Entry}
    (member : entry ∈ registry.entries) : registry.find? entry.id = some entry := by
  obtain ⟨backend, entries⟩ := registry
  unfold Distinct at distinct
  unfold find?
  dsimp only at *
  induction entries with
  | nil => cases member
  | cons head entries ih =>
      rw [List.map_cons, List.nodup_cons] at distinct
      rcases List.mem_cons.mp member with rfl | member
      · simp
      · have differs : head.id ≠ entry.id := by
          intro same
          exact distinct.1 (same ▸ List.mem_map_of_mem member)
        rw [List.find?_cons_of_neg (by simpa using differs)]
        exact ih distinct.2 member

/-- The modules that are listed are those that are there and not destroyed. -/
theorem Distinct.mem_liveIds (distinct : registry.Distinct) (id : ModuleId) :
    id ∈ registry.liveIds ↔ ∃ entry, registry.find? id = some entry ∧ entry.destroyed = false := by
  unfold liveIds
  rw [List.mem_map]
  constructor
  · rintro ⟨entry, member, rfl⟩
    obtain ⟨member, living⟩ := List.mem_filter.mp member
    exact ⟨entry, distinct.find?_of_mem member, by simpa using living⟩
  · rintro ⟨entry, found, living⟩
    have member := List.mem_of_find?_eq_some found
    exact ⟨entry, List.mem_filter.mpr ⟨member, by simpa using living⟩, id_of_find? found⟩

end

end Registry

/-! ### Books -/

/-- What there is of a module in a registry and outside of it: its entry, and the number of
references that are in the hands of others. -/
structure Books where
  /-- The entry, if there is one. -/
  entry : Option Entry
  /-- The number of references. -/
  live : Nat

namespace Books

/-- The ways in which the books change, and what then has happened to the module. The only one that
lowers the count of an entry finds it at two or more. -/
inductive Step : Books → List Deed → Books → Prop
  /-- A module is registered, with the registry's own reference. -/
  | registers (module : Module) :
      Step ⟨none, 0⟩ [.registered module] ⟨some ⟨module.id, .structural module, false, 1⟩, 0⟩
  /-- A reference is taken to a module that has not been destroyed. -/
  | takes {entry : Entry} {live : Nat} (living : entry.destroyed = false) :
      Step ⟨some entry, live⟩ [] ⟨some { entry with refs := entry.refs + 1 }, live + 1⟩
  /-- A reference is given back. -/
  | givesBack {entry : Entry} {live : Nat} (enough : 2 ≤ entry.refs) :
      Step ⟨some entry, live + 1⟩ [] ⟨entry.giveBack, live⟩
  /-- A structural module is compiled. -/
  | unpacks {entry : Entry} {live : Nat} {module : Module} (program : Program)
      (stage : entry.stage = .structural module) :
      Step ⟨some entry, live⟩ [.unpacked]
        ⟨some { entry with stage := .compiled module program }, live⟩
  /-- A compiled module stays compiled. -/
  | unpacksAgain {entry : Entry} {live : Nat} {module : Module} {program : Program}
      (stage : entry.stage = .compiled module program) :
      Step ⟨some entry, live⟩ [.unpacked] ⟨some entry, live⟩
  /-- The executable form of a compiled module is discarded. -/
  | packs {entry : Entry} {live : Nat} {module : Module} {program : Program}
      (stage : entry.stage = .compiled module program) :
      Step ⟨some entry, live⟩ [.packed] ⟨some { entry with stage := .structural module }, live⟩
  /-- A structural module stays structural. -/
  | packsAgain {entry : Entry} {live : Nat} {module : Module}
      (stage : entry.stage = .structural module) :
      Step ⟨some entry, live⟩ [.packed] ⟨some entry, live⟩
  /-- A module is destroyed by someone who has a reference to it. -/
  | destroys {entry : Entry} {live : Nat} (living : entry.stage ≠ .destroyed) :
      Step ⟨some entry, live + 1⟩ [.destroyed]
        ⟨some { entry with stage := .destroyed, destroyed := true }, live + 1⟩

/-- Steps one after the other, and all that has happened then, the latest first. -/
inductive Course : Books → List Deed → Books → Prop
  /-- Nothing happens. -/
  | refl (books : Books) : Course books [] books
  /-- One more step. -/
  | step {before middle after : Books} {earlier deeds : List Deed}
      (course : Course before earlier middle) (step : Step middle deeds after) :
      Course before (deeds ++ earlier) after

/-- A single step. -/
theorem Step.course {before after : Books} {deeds : List Deed} (step : Step before deeds after) :
    Course before deeds after := by
  have course := (Course.refl before).step step
  rwa [List.append_nil] at course

/-- One course after the other. -/
theorem Course.trans {before middle after : Books} {earlier later : List Deed}
    (first : Course before earlier middle) (second : Course middle later after) :
    Course before (later ++ earlier) after := by
  induction second with
  | refl => exact first
  | step course step ih =>
      rw [List.append_assoc]
      exact ih.step step

/-! ### What the books are like -/

/-- The module that has been registered, and that no other has been. -/
def Names (deeds : List Deed) (module : Module) : Prop :=
  ∀ other, .registered other ∈ deeds ↔ other = module

/-- The stage of a module that has not been destroyed: compiled if the last that was asked for and
granted was an executable form, and structural if it was to discard it, or if nothing was. -/
def Shows (deeds : List Deed) (module : Module) (stage : Stage) : Prop :=
  (stage = .structural module ∧ lastForm deeds ≠ some .unpacked) ∨
    ∃ program, stage = .compiled module program ∧ lastForm deeds = some .unpacked

/-- What the books are like after some deeds. -/
inductive Agrees : List Deed → Books → Prop
  /-- Nothing has happened. -/
  | unknown : Agrees [] ⟨none, 0⟩
  /-- The module has been registered and not destroyed: the entry counts the registry's own
  reference and all others. -/
  | living {deeds : List Deed} {entry : Entry} {live : Nat} {module : Module}
      (named : Names deeds module) (never : .destroyed ∉ deeds) (flag : entry.destroyed = false)
      (shows : Shows deeds module entry.stage) (counted : entry.refs = live + 1) :
      Agrees deeds ⟨some entry, live⟩
  /-- The module has been destroyed, and there are references left. -/
  | lingering {deeds : List Deed} {entry : Entry} {live : Nat} {module : Module}
      (named : Names deeds module) (once : deeds.count .destroyed = 1)
      (flag : entry.destroyed = true) (stage : entry.stage = .destroyed)
      (counted : entry.refs = live + 2) : Agrees deeds ⟨some entry, live + 1⟩
  /-- The module has been destroyed, and there are no references left. -/
  | erased {deeds : List Deed} {module : Module} (named : Names deeds module)
      (once : deeds.count .destroyed = 1) : Agrees deeds ⟨none, 0⟩

section
variable {deeds new : List Deed} {module : Module} {stage : Stage}

/-- Deeds that register nothing leave the registered module. -/
theorem Names.append (named : Names deeds module) (plain : ∀ other, .registered other ∉ new) :
    Names (new ++ deeds) module := by
  intro other
  rw [List.mem_append, ← named other]
  exact or_iff_right (plain other)

/-- A module that has been asked for an executable form and has one. -/
theorem shows_unpacked (program : Program) :
    Shows (.unpacked :: deeds) module (.compiled module program) :=
  .inr ⟨program, rfl, rfl⟩

/-- A module that has been asked to discard its executable form. -/
theorem shows_packed : Shows (.packed :: deeds) module (.structural module) := by
  refine .inl ⟨rfl, ?_⟩
  simp [lastForm]

/-- A module that is not destroyed has one of two stages. -/
theorem Shows.ne_destroyed (shows : Shows deeds module stage) : stage ≠ .destroyed := by
  rcases shows with ⟨rfl, -⟩ | ⟨program, rfl, -⟩ <;> simp

/-- The stage tells the module. -/
theorem Shows.eq_of_structural {other : Module} (shows : Shows deeds module (.structural other)) :
    other = module := by
  rcases shows with ⟨same, -⟩ | ⟨program, same, -⟩
  · exact Stage.structural.inj same
  · cases same

/-- The stage tells the module. -/
theorem Shows.eq_of_compiled {other : Module} {program : Program}
    (shows : Shows deeds module (.compiled other program)) : other = module := by
  rcases shows with ⟨same, -⟩ | ⟨_, same, -⟩
  · cases same
  · exact (Stage.compiled.inj same).1

end

section
variable {deeds new : List Deed} {before after : Books}

/-- **Each step keeps the books as they should be**, provided that no module is registered twice. -/
theorem Agrees.step (agrees : Agrees deeds before) (step : Step before new after)
    (fresh : ∀ module, .registered module ∈ new → ¬ Registered deeds) :
    Agrees (new ++ deeds) after := by
  cases step with
  | registers module =>
      cases agrees with
      | unknown =>
          have named : Names ([.registered module] ++ []) module := by
            intro other
            simp
          exact .living named (by simp) rfl (.inl ⟨rfl, by simp [lastForm]⟩) rfl
      | @erased _ earlier named once =>
          exact absurd ⟨earlier, (named earlier).mpr rfl⟩ (fresh module List.mem_cons_self)
  | takes living =>
      cases agrees with
      | living named never flag shows counted =>
          exact .living named never flag shows (congrArg (· + 1) counted)
      | lingering named once flag => simp [living] at flag
  | @givesBack entry live enough =>
      cases agrees with
      | living named never flag shows counted =>
          rw [Entry.giveBack, if_neg (by simp [flag])]
          exact .living named never flag shows (by dsimp only; omega)
      | lingering named once flag stage counted =>
          -- the entry goes with the last reference
          cases live with
          | zero =>
              rw [Entry.giveBack, if_pos (by simp [flag, counted])]
              exact .erased named once
          | succ live =>
              rw [Entry.giveBack, if_neg (by simp [counted])]
              exact .lingering named once flag stage (by dsimp only; omega)
  | unpacks program stage =>
      cases agrees with
      | living named never flag shows counted =>
          rw [stage] at shows
          obtain rfl := shows.eq_of_structural
          exact .living (named.append (by simp)) (by simpa using never) flag
            (shows_unpacked program) counted
      | lingering named once flag gone => simp [stage] at gone
  | @unpacksAgain _ _ _ program stage =>
      cases agrees with
      | living named never flag shows counted =>
          rw [stage] at shows
          obtain rfl := shows.eq_of_compiled
          refine .living (named.append (by simp)) (by simpa using never) flag ?_ counted
          rw [stage]
          exact shows_unpacked program
      | lingering named once flag gone => simp [stage] at gone
  | packs stage =>
      cases agrees with
      | living named never flag shows counted =>
          rw [stage] at shows
          obtain rfl := shows.eq_of_compiled
          exact .living (named.append (by simp)) (by simpa using never) flag shows_packed counted
      | lingering named once flag gone => simp [stage] at gone
  | packsAgain stage =>
      cases agrees with
      | living named never flag shows counted =>
          rw [stage] at shows
          obtain rfl := shows.eq_of_structural
          refine .living (named.append (by simp)) (by simpa using never) flag ?_ counted
          rw [stage]
          exact shows_packed
      | lingering named once flag gone => simp [stage] at gone
  | destroys living =>
      cases agrees with
      | living named never flag shows counted =>
          refine .lingering (named.append (by simp)) ?_ rfl rfl counted
          rw [List.singleton_append, List.count_cons_self, List.count_eq_zero_of_not_mem never]
      | lingering named once flag gone => exact absurd gone living

/-- **Each course keeps the books as they should be.** -/
theorem Agrees.course (agrees : Agrees deeds before) (course : Course before new after)
    (fresh : ∀ module, .registered module ∈ new → ¬ Registered deeds)
    (single : new.length ≤ 1) : Agrees (new ++ deeds) after := by
  induction course with
  | refl => exact agrees
  | @step middle after earlier new course step ih =>
      rw [List.length_append] at single
      have agrees := ih (fun module member => fresh module (List.mem_append_right _ member))
        (by omega)
      rw [List.append_assoc]
      refine agrees.step step fun module member registered => ?_
      -- a deed that registers is the only one
      have only := List.length_pos_of_mem member
      have none : earlier = [] := List.length_eq_zero_iff.mp (by omega)
      rw [none] at registered
      exact fresh module (List.mem_append_left _ member) registered

end

end Books

end ScopeMachine
