import ScopeMachine.Proofs.Effects

/-! # Variables after a history

Whatever is requested, the store stays sound, and every executable form is that of its module and
has its storage.

* `Store.Furnishes` says what compiling makes of a store, and `Store.furnishes_of_compile` proves
  it;
* `Store.setOwnedRef_eq_ok` says what storing a reference on request does;
* `Host.Kept` is the invariant, `Host.Changes.extends` and `Host.Effect.ages` say what requests make
  of a store, and `History.kept` says that the invariant holds after every history;
* `History.registered_of_stage` and `History.wellFormed` say of which modules the forms are. -/

namespace ScopeMachine

/-! ### Compiling -/

/-- The storage of a register is in the store, with the shape of the register. -/
def RegSlot.Stored (slot : RegSlot) (store : Store) : Prop :=
  ∀ id, slot.persistent = some id →
    ∃ var, store.get? id = some var ∧ var.layout = slot.layout ∧ var.count = slot.count

/-- Storage stays where it is. -/
theorem RegSlot.Stored.of_extends {slot : RegSlot} {base store : Store} (stored : slot.Stored base)
    (extension : base.Extends store) : slot.Stored store := by
  intro id persistent
  obtain ⟨var, found, layout, count⟩ := stored id persistent
  obtain ⟨later, isLater, sameLayout, sameCount⟩ := extension.exists_get? found
  exact ⟨later, isLater, sameLayout.trans layout, sameCount.trans count⟩

namespace Store

/-- What compiling registers makes of a store: their storage, which refers to nothing. -/
structure Furnishes (program : Program) (slots : List RegSlot) (before after : Store) : Prop
    extends Grows program before after where
  /-- The registers have their storage. -/
  stored : ∀ slot ∈ slots, slot.Stored after
  /-- What is new refers to nothing. -/
  bare : ∀ {id : VarId} {var : Variable}, after.get? id = some var →
    before.get? id = some var ∨ ∀ referent, some referent ∉ var.owned

variable {module : Module} {program : Program} {before after : Store}

/-- Compiling a register. -/
theorem furnishes_of_compileReg {spec : RegSpec} {slot : RegSlot} (sound : before.Sound)
    (compiled : Program.compileReg module spec before = .ok slot after)
    (member : slot ∈ program.regs) : Furnishes program [slot] before after := by
  obtain ⟨type, -, ⟨-, isSlot, isAfter⟩ | ⟨-, rfl, rfl⟩⟩ := compileReg_eq_ok compiled
  · have bare := ({ slot with persistent := none } : RegSlot).bare_fresh
    have grows : Grows program before after := by
      rw [isAfter]
      exact sound.grows_insert member ((Variable.sized_zeroed _ _).copyPayload _) bare rfl rfl
    refine ⟨grows, ?_, ?_⟩
    · intro other isOther id persistent
      cases List.mem_singleton.mp isOther
      rw [isSlot] at persistent
      cases persistent
      have found := Slots.get?_insert before
        (({ slot with persistent := none } : RegSlot).fresh.copyPayload (spec.init.getD #[]))
        before.next
      rw [if_pos rfl, ← isAfter] at found
      exact ⟨_, found, rfl, rfl⟩
    · intro id var found
      rw [isAfter, Slots.get?_insert] at found
      split at found
      · cases found
        exact .inr bare
      · exact .inl found
  · refine ⟨sound.grows program, ?_, fun found => .inl found⟩
    intro other isOther id persistent
    cases List.mem_singleton.mp isOther
    cases persistent

/-- Compiling registers one after the other. -/
theorem furnishes_of_compileRegs {specs : List RegSpec} {slots : List RegSlot}
    (sound : before.Sound)
    (compiled : specs.mapM (Program.compileReg module) before = .ok slots after)
    (members : ∀ slot ∈ slots, slot ∈ program.regs) : Furnishes program slots before after := by
  induction specs generalizing slots before with
  | nil =>
      rw [List.mapM_nil] at compiled
      cases compiled
      refine ⟨sound.grows program, ?_, fun found => .inl found⟩
      intro slot member
      cases member
  | cons spec specs ih =>
      rw [List.mapM_cons] at compiled
      obtain ⟨slot, middle, isFirst, compiled⟩ := bind_apply_eq_ok.mp compiled
      obtain ⟨others, last, isRest, compiled⟩ := bind_apply_eq_ok.mp compiled
      cases compiled
      have first := furnishes_of_compileReg sound isFirst (members slot List.mem_cons_self)
      have rest := ih first.sound isRest fun other member =>
        members other (List.mem_cons_of_mem _ member)
      refine ⟨first.toGrows.trans rest.toGrows, ?_, ?_⟩
      · intro other member
        rcases List.mem_cons.mp member with rfl | member
        · exact (first.stored other List.mem_cons_self).of_extends rest.toExtends
        · exact rest.stored other member
      · intro id var found
        rcases rest.bare found with earlier | bare
        · exact first.bare earlier
        · exact .inr bare

/-- **Compiling** makes the storage of registers, and nothing else. -/
theorem furnishes_of_compile {maxCallDepth : Nat} (sound : before.Sound)
    (compiled : Program.compile module maxCallDepth before = .ok program after) :
    Furnishes program program.regs.toList before after := by
  obtain ⟨regs, procs, compiledRegs, -, rfl⟩ := compile_eq_ok.mp compiled
  exact furnishes_of_compileRegs sound compiledRegs fun slot member => List.mem_toArray.mpr member

/-! ### Storing references -/

/-- **What storing a reference does.** The slot must be there, and the referent of its type. -/
theorem setOwnedRef_eq_ok {owner : VarId} {element slot : Nat} {referent : Option VarId}
    (stored : before.setOwnedRef owner element slot referent = .ok after) :
    after = before ∨ ∃ var, before.get? owner = some var ∧ slot < var.layout.ownedWidth ∧
      (∀ id target held, referent = some id → before.get? id = some target →
        var.layout.shape.ownedRefs[slot]? = some held → target.layout.vtype = held) ∧
      after = before.modify owner (·.putOwnedRef element slot referent) := by
  unfold setOwnedRef at stored
  cases found : before.get? owner with
  | none =>
      rw [found] at stored
      cases stored
      exact .inl rfl
  | some var =>
      rw [found] at stored
      dsimp only at stored
      split at stored
      · cases stored
      next there =>
        have inside : slot < var.layout.ownedWidth := by
          unfold Variable.ownedIndex? at there
          split at there
          next within => exact within.2
          next => exact absurd rfl there
        refine .inr ⟨var, rfl, inside, ?_⟩
        split at stored
        next other held isOther isHeld =>
          split at stored
          · cases stored
          next same =>
            cases stored
            refine ⟨?_, rfl⟩
            rintro id target type rfl isTarget isType
            rw [Option.bind_some, isTarget] at isOther
            rw [isHeld] at isType
            cases isOther
            cases isType
            exact Classical.not_not.mp same
        next unknown =>
          cases stored
          refine ⟨?_, rfl⟩
          rintro id target type rfl isTarget isType
          exact absurd isType (unknown target type isTarget)

end Store

/-! ### Executable forms and their storage -/

namespace Host

/-- The store is sound, and executable forms are those of their modules and have their storage. -/
structure Kept (host : Host) : Prop where
  /-- The store is sound. -/
  sound : host.store.Sound
  /-- Forms are those of their modules. -/
  compiles : ∀ {key : Nat} {id : ModuleId} {module : Module} {program : Program},
    host.stage key id = .compiled module program → Compiles module program
  /-- Forms have their storage. -/
  stored : ∀ {key : Nat} {id : ModuleId} {module : Module} {program : Program} {slot : RegSlot},
    host.stage key id = .compiled module program → slot ∈ program.regs → slot.Stored host.store

section
variable {host : Host} {request : Request}

/-- The storage of persistent registers is there. -/
theorem Kept.isSome_persistent (kept : host.Kept) {key : Nat} {id : ModuleId} {module : Module}
    {program : Program} (isStage : host.stage key id = .compiled module program) :
    ∀ var ∈ program.persistents, (host.store.get? var).isSome = true := by
  intro var member
  obtain ⟨slot, isSlot, persistent⟩ := List.mem_filterMap.mp member
  obtain ⟨found, isFound, -⟩ := kept.stored isStage (Array.mem_toList_iff.mp isSlot) var persistent
  rw [isFound]
  rfl

/-- An empty host is kept. -/
theorem kept_empty : empty.Kept := by
  have nothing : ∀ key id module program, empty.stage key id ≠ .compiled module program := by
    intro key id module program isStage
    obtain ⟨registry, -, found, -⟩ := stage_eq_compiled.mp isStage
    rw [show empty.registries.get? key = none from Slots.get?_empty key] at found
    cases found
  refine ⟨⟨?_, ?_⟩, ?_, ?_⟩
  · intro id var found
    rw [show empty.store.get? id = none from Slots.get?_empty id] at found
    cases found
  · intro id referent var found
    rw [show empty.store.get? id = none from Slots.get?_empty id] at found
    cases found
  · intro key id module program isStage
    exact absurd isStage (nothing key id module program)
  · intro key id module program slot isStage
    exact absurd isStage (nothing key id module program)

/-- What is left keeps its shape. -/
theorem Eases.ages {before after : Host} (eases : before.Eases after) :
    before.store.Ages after.store :=
  ⟨Nat.le_of_eq eases.next.symm, fun {_ var} _ found => ⟨var, eases.found found, rfl, rfl⟩⟩

/-- What is left is kept. -/
theorem Kept.of_eases {after : Host} (kept : host.Kept) (eases : host.Eases after) :
    after.Kept := by
  refine ⟨⟨fun found => kept.sound.sized (eases.found found), eases.resolves kept.sound.resolves⟩,
    fun isStage => kept.compiles (eases.stages isStage), ?_⟩
  intro key id module program slot isStage member var persistent
  obtain ⟨found, isFound, shape⟩ := kept.stored (eases.stages isStage) member var persistent
  refine ⟨found, ?_, shape⟩
  rw [eases.persistents isStage (List.mem_filterMap.mpr
    ⟨slot, Array.mem_toList_iff.mpr member, persistent⟩)]
  exact isFound

/-- A program makes of the store what it can. -/
theorem Kept.grows_invoke (kept : host.Kept) {key : Nat} {id : ModuleId} {module : Module}
    {program : Program} (isStage : host.stage key id = .compiled module program) {io : VarId}
    (known : (host.store.get? io).isSome = true) (proc : ProcId) (steps : Nat) :
    Store.Grows program host.store (Machine.invoke program proc io steps host.store).1.store :=
  (Machine.sound_of_invoke kept.sound (kept.isSome_persistent isStage) known steps).store

/-- **Changes extend the store.** -/
theorem Changes.extends {store : Store} (changes : host.Changes request store) (kept : host.Kept) :
    host.store.Extends store := by
  cases changes with
  | nothing => exact kept.sound.extends
  | call speaks isStage known => exact (kept.grows_invoke isStage known _ _).toExtends
  | newVariable speaks described makes =>
      exact kept.sound.extends_insert (Variable.sized_zeroed _ _) (Variable.bare_zeroed _ _)
  | newVar => exact kept.sound.extends_insert (Variable.sized_zeroed _ _) (Variable.bare_zeroed _ _)
  | edit edits => exact kept.sound.extends_modify fun old found => (edits old found).revises
  | setOwnedRef known stored =>
      rcases Store.setOwnedRef_eq_ok stored with rfl | ⟨var, -, -, -, rfl⟩
      · exact kept.sound.extends
      · exact kept.sound.extends_modify fun old _ => old.revises_putOwnedRef _ _ known

/-- **A request keeps the store sound, and the forms with their storage.** -/
theorem Effect.kept {after : Host} (effect : host.Effect request after) (kept : host.Kept) :
    after.Kept := by
  cases effect with
  | @changes _ store _ changes eases =>
      have extension := changes.extends kept
      have keptStore : Kept { host with store } := by
        refine ⟨extension.sound, kept.compiles, ?_⟩
        intro key id module program slot isStage member
        exact (kept.stored isStage member).of_extends extension
      exact keptStore.of_eases eases
  | unpack speaks isStage compiled stages =>
      have furnishes := Store.furnishes_of_compile kept.sound compiled
      refine ⟨furnishes.sound, ?_, ?_⟩
      · intro key id other program isCompiled
        rcases stages isCompiled with before | ⟨-, -, rfl, rfl⟩
        · exact kept.compiles before
        · exact (compiles_of_compile compiled).1
      · intro key id other program slot isCompiled member
        rcases stages isCompiled with before | ⟨-, -, rfl, rfl⟩
        · exact (kept.stored before member).of_extends furnishes.toExtends
        · exact furnishes.stored slot (Array.mem_toList_iff.mpr member)

/-- **Requests do not change the shapes of variables.** -/
theorem Effect.ages {after : Host} (effect : host.Effect request after) (kept : host.Kept) :
    host.store.Ages after.store := by
  cases effect with
  | changes changes eases => exact (changes.extends kept).ages.trans eases.ages
  | unpack _ _ compiled _ => exact (Store.furnishes_of_compile kept.sound compiled).ages

end

end Host

/-! ### Histories -/

/-- **After every history, the store is sound, and executable forms have their storage.** -/
theorem History.kept {turns : List Turn} {host : Host} (history : History turns host) : host.Kept :=
  history.holds Host.kept_empty fun _ kept allowed =>
    (Host.effect_of_request allowed).kept kept

section
variable {turns : List Turn} {host : Host} {key : Nat} {id : ModuleId} {module : Module}

/-- Only one module is registered under an identity. -/
theorem History.eq_of_registered (history : History turns host) {other : Module}
    (registered : .registered module ∈ record turns key id)
    (second : .registered other ∈ record turns key id) : other = module := by
  induction history with
  | start => cases registered
  | @next turns host request history allowed ih =>
      -- a request that registers a module meets a record without one, and does nothing else to it
      have once : ∀ {new old : Module}, .registered new ∈ Turn.deeds ⟨host, request⟩ key id →
          .registered old ∉ record turns key id :=
        fun new old => Host.fresh_of_deeds allowed new ⟨_, old⟩
      rcases List.mem_append.mp registered with new | old
      · rcases List.mem_append.mp second with newToo | old
        · obtain ⟨deed, isOne⟩ := List.length_eq_one_iff.mp
            (Nat.le_antisymm (Host.length_deeds_le key id) (List.length_pos_of_mem new))
          replace new : _ ∈ Turn.deeds ⟨host, request⟩ key id := new
          replace newToo : _ ∈ Turn.deeds ⟨host, request⟩ key id := newToo
          rw [isOne, List.mem_singleton] at new newToo
          exact Deed.registered.inj (newToo.trans new.symm)
        · exact absurd old (once new)
      · rcases List.mem_append.mp second with new | oldToo
        · exact absurd old (once new)
        · exact ih old oldToo

/-- A module that is not destroyed has an entry that says so, with the registered description. -/
theorem History.exists_living (history : History turns host)
    (living : host.stage key id ≠ .destroyed) :
    ∃ registry entry module, host.registries.get? key = some registry ∧
      registry.find? id = some entry ∧ entry.destroyed = false ∧
      (host.stage key id).module? = some module ∧ .registered module ∈ record turns key id := by
  obtain ⟨registry, entry, found, isEntry, isStage⟩ := Host.exists_entry_of_stage rfl living
  have agrees := history.settled.orderly.agrees id (Tables.has_of_get? found)
  rw [Tables.books_eq found, isEntry] at agrees
  rw [← isStage] at living ⊢
  generalize host.tables.liveRefs key id = live at agrees
  generalize record turns key id = deeds at agrees ⊢
  cases agrees with
  | @living _ _ _ module named never flag shows counted =>
      refine ⟨registry, entry, module, found, isEntry, flag, ?_, (named module).mpr rfl⟩
      rcases shows with ⟨same, -⟩ | ⟨program, same, -⟩ <;> rw [same] <;> rfl
  | lingering _ _ _ gone => exact absurd gone living

/-- A module with a description has been registered. -/
theorem History.registered_of_stage (history : History turns host)
    (described : (host.stage key id).module? = some module) :
    .registered module ∈ record turns key id := by
  have living : host.stage key id ≠ .destroyed := by
    intro gone
    rw [gone] at described
    cases described
  obtain ⟨-, -, other, -, -, -, isOther, registered⟩ := history.exists_living living
  cases described.symm.trans isOther
  exact registered

/-- A registered module is well-formed. -/
theorem History.wellFormed (history : History turns host)
    (registered : .registered module ∈ record turns key id) : module.WellFormed := by
  obtain ⟨builder, reachable, -, rfl⟩ := history.exists_builder registered
  exact reachable.wellFormed.module.withId _

end

end ScopeMachine
