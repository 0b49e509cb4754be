import ScopeMachine.Proofs.Footprint

/-! # Variables keep their shapes

Whatever program runs, checked or not, variables stay as large as their shapes say, shapes do not
change, and references lead to variables.

* `Store.Sound` is the invariant of a store, and `Store.Ages` says how a store can differ from an
  earlier one;
* `Store.Extends` says that a store has come from another without losing anything, and
  `Store.Grows` what a program can make of it;
* `Machine.sound_of_invoke` says that every call keeps the store sound;
* `Machine.Lasts` is an invariant that says nothing of frames, and `Machine.Lasts.stored_of_invoke`
  says that every call keeps it. -/

namespace ScopeMachine

/-! ### Stores -/

namespace Store

/-- Every variable is as large as its shape says, and every reference leads to a variable. -/
structure Sound (store : Store) : Prop where
  /-- The sizes are right. -/
  sized : ∀ {id : VarId} {var : Variable}, store.get? id = some var → var.Sized
  /-- References lead to variables. -/
  resolves : store.Resolves

/-- How a store can differ from an earlier one: no identity is given out again, and what is still
there has its shape. -/
structure Ages (before after : Store) : Prop where
  /-- Identities stay given out. -/
  grows : before.next ≤ after.next
  /-- Shapes do not change. -/
  shapes : ∀ {id : VarId} {var : Variable}, id < before.next → after.get? id = some var →
    ∃ old, before.get? id = some old ∧ var.layout = old.layout ∧ var.count = old.count

/-- No time has passed. -/
theorem Ages.refl (store : Store) : store.Ages store :=
  ⟨Nat.le_refl _, fun {_ var} _ found => ⟨var, found, rfl, rfl⟩⟩

/-- Time passes and passes. -/
theorem Ages.trans {first second third : Store} (left : first.Ages second)
    (right : second.Ages third) : first.Ages third := by
  refine ⟨Nat.le_trans left.grows right.grows, ?_⟩
  intro id var known found
  obtain ⟨middle, foundMiddle, layout, count⟩ :=
    right.shapes (Nat.lt_of_lt_of_le known left.grows) found
  obtain ⟨old, foundOld, layoutOld, countOld⟩ := left.shapes known foundMiddle
  exact ⟨old, foundOld, layout.trans layoutOld, count.trans countOld⟩

/-- A variable enters. -/
theorem ages_insert (store : Store) (var : Variable) : store.Ages (store.insert var) := by
  refine ⟨by rw [Slots.next_insert]; exact Nat.le_succ _, ?_⟩
  intro id other known found
  rw [Slots.get?_insert, if_neg (Nat.ne_of_lt known)] at found
  exact ⟨other, found, rfl, rfl⟩

/-- A variable without references enters. -/
theorem Sound.insert {store : Store} (sound : store.Sound) {var : Variable} (sized : var.Sized)
    (bare : ∀ referent, some referent ∉ var.owned) : Store.Sound (store.insert var) := by
  refine ⟨?_, resolves_insert sound.resolves bare⟩
  intro id other found
  rw [Slots.get?_insert] at found
  split at found
  · cases found
    exact sized
  · exact sound.sized found

section
variable {store : Store} {id : VarId} {change : Variable → Variable}

/-- What is found after a variable has been changed. -/
theorem get?_modify_eq_some {other : VarId} {changed : Variable}
    (found : Slots.get? (store.modify id change) other = some changed) :
    (∃ old, other = id ∧ store.get? id = some old ∧ changed = change old) ∨
      (other ≠ id ∧ store.get? other = some changed) := by
  rw [Slots.get?_modify] at found
  split at found
  next same =>
    subst same
    obtain ⟨old, foundOld, rfl⟩ := Option.map_eq_some_iff.mp found
    exact .inl ⟨old, rfl, foundOld, rfl⟩
  next differs => exact .inr ⟨differs, found⟩

/-- A change keeps all variables. -/
theorem isSome_get?_modify (other : VarId) :
    (Slots.get? (store.modify id change) other).isSome = (store.get? other).isSome := by
  rw [Slots.get?_modify]
  split
  · exact Option.isSome_map
  · rfl

/-- A variable is revised. -/
theorem ages_modify {Brings : VarId → Prop}
    (revises : ∀ var, store.get? id = some var → var.Revises (change var) Brings) :
    store.Ages (store.modify id change) := by
  refine ⟨Nat.le_of_eq (Slots.next_modify _ _ _).symm, ?_⟩
  intro other var known found
  rcases get?_modify_eq_some found with ⟨old, rfl, foundOld, rfl⟩ | ⟨-, found⟩
  · exact ⟨old, foundOld, (revises old foundOld).layout, (revises old foundOld).count⟩
  · exact ⟨var, found, rfl, rfl⟩

/-- A variable is revised, with references that lead to variables. -/
theorem Sound.modify (sound : store.Sound)
    (revises : ∀ var, store.get? id = some var →
      var.Revises (change var) fun referent => (store.get? referent).isSome = true) :
    Store.Sound (store.modify id change) := by
  refine ⟨?_, ?_⟩
  · intro other var found
    rcases get?_modify_eq_some found with ⟨old, rfl, foundOld, rfl⟩ | ⟨-, found⟩
    · exact (revises old foundOld).sized (sound.sized foundOld)
    · exact sound.sized found
  · intro other referent var found member
    rw [isSome_get?_modify]
    rcases get?_modify_eq_some found with ⟨old, rfl, foundOld, rfl⟩ | ⟨-, found⟩
    · rcases (revises old foundOld).owned referent member with before | known
      · exact sound.resolves foundOld before
      · exact known
    · exact sound.resolves found member

end

/-- A store has come from another and is sound: shapes do not change, and nothing goes away. -/
structure Extends (base store : Store) : Prop where
  /-- The store is sound. -/
  sound : store.Sound
  /-- Shapes do not change. -/
  ages : base.Ages store
  /-- Nothing goes away. -/
  keeps : ∀ {id : VarId}, (base.get? id).isSome = true → (store.get? id).isSome = true

section
variable {base store : Store}

/-- Nothing has happened. -/
theorem Sound.extends (sound : store.Sound) : store.Extends store :=
  ⟨sound, Ages.refl store, fun found => found⟩

/-- One extension after the other. -/
theorem Extends.trans {after : Store} (first : base.Extends store) (second : store.Extends after) :
    base.Extends after :=
  ⟨second.sound, first.ages.trans second.ages, fun found => second.keeps (first.keeps found)⟩

/-- A variable is revised. -/
theorem Sound.extends_modify {id : VarId} {change : Variable → Variable} (sound : store.Sound)
    (revises : ∀ var, store.get? id = some var →
      var.Revises (change var) fun referent => (store.get? referent).isSome = true) :
    Extends store (store.modify id change) := by
  refine ⟨sound.modify revises, ages_modify revises, ?_⟩
  intro other found
  rwa [isSome_get?_modify]

/-- A variable without references enters. -/
theorem Sound.extends_insert {var : Variable} (sound : store.Sound) (sized : var.Sized)
    (bare : ∀ referent, some referent ∉ var.owned) : Extends store (store.insert var) :=
  ⟨sound.insert sized bare, store.ages_insert var,
    fun found => KeepsShapes.isSome (keepsShapes_insert store _) found⟩

/-- What is in the store is there later, with its shape. -/
theorem Extends.exists_get? (extension : base.Extends store) {id : VarId} {var : Variable}
    (found : base.get? id = some var) :
    ∃ later, store.get? id = some later ∧ later.layout = var.layout ∧ later.count = var.count := by
  obtain ⟨later, isLater⟩ := Option.isSome_iff_exists.mp
    (extension.keeps (Option.isSome_iff_exists.mpr ⟨var, found⟩))
  obtain ⟨old, isOld, layout, count⟩ := extension.ages.shapes (Slots.lt_next_of_get? found) isLater
  obtain rfl : var = old := Option.some.inj (found.symm.trans isOld)
  exact ⟨later, isLater, layout, count⟩

end

/-- What a program can make of a store: it is extended, and all that is new are variables of the
program's registers. -/
structure Grows (program : Program) (base store : Store) : Prop extends Extends base store where
  /-- New variables are those of registers. -/
  stems : ∀ {id : VarId} {var : Variable}, base.next ≤ id → store.get? id = some var →
    ∃ slot ∈ program.regs, var.layout = slot.layout ∧ var.count = slot.count

/-- Nothing has been made. -/
theorem Sound.grows {store : Store} (sound : store.Sound) (program : Program) :
    Grows program store store := by
  refine ⟨sound.extends, ?_⟩
  intro id var unused found
  exact absurd (Slots.lt_next_of_get? found) (Nat.not_lt_of_le unused)

section
variable {program : Program} {base store : Store}

/-- More is made of what has been made. -/
theorem Grows.trans {after : Store} (first : Grows program base store)
    (second : Grows program store after) : Grows program base after := by
  refine ⟨first.toExtends.trans second.toExtends, ?_⟩
  intro id var unused found
  by_cases known : id < store.next
  · obtain ⟨old, isOld, layout, count⟩ := second.ages.shapes known found
    rw [layout, count]
    exact first.stems unused isOld
  · exact second.stems (Nat.le_of_not_lt known) found

/-- A variable is revised. -/
theorem Grows.modify {id : VarId} {change : Variable → Variable} (grows : Grows program base store)
    (revises : ∀ var : Variable,
      var.Revises (change var) fun referent => (store.get? referent).isSome = true) :
    Grows program base (store.modify id change) := by
  refine grows.trans ⟨grows.sound.extends_modify fun var _ => revises var, ?_⟩
  intro other var unused found
  rcases get?_modify_eq_some found with ⟨old, rfl, foundOld, rfl⟩ | ⟨-, found⟩
  · exact absurd (Slots.lt_next_of_get? foundOld) (Nat.not_lt_of_le unused)
  · exact absurd (Slots.lt_next_of_get? found) (Nat.not_lt_of_le unused)

/-- A variable of a register enters. -/
theorem Sound.grows_insert {slot : RegSlot} {var : Variable} (sound : store.Sound)
    (member : slot ∈ program.regs) (sized : var.Sized)
    (bare : ∀ referent, some referent ∉ var.owned) (layout : var.layout = slot.layout)
    (count : var.count = slot.count) :
    Grows program store (store.insert var) := by
  refine ⟨sound.extends_insert sized bare, ?_⟩
  intro id other unused found
  rw [Slots.get?_insert] at found
  split at found
  · cases found
    exact ⟨slot, member, layout, count⟩
  · exact absurd (Slots.lt_next_of_get? found) (Nat.not_lt_of_le unused)

/-- A fresh variable of a register enters. -/
theorem Grows.insert {slot : RegSlot} (grows : Grows program base store)
    (member : slot ∈ program.regs) : Grows program base (store.insert slot.fresh) :=
  grows.trans (grows.sound.grows_insert member (Variable.sized_zeroed _ _) slot.bare_fresh rfl rfl)

end

end Store

/-! ### Machines -/

namespace Machine

/-- A machine over a store that the program has made of an earlier one, whose frames lead to
variables. -/
abbrev Sound (program : Program) (base : Store) : Machine → Prop :=
  Holds (Store.Grows program base) fun store _ id => (store.get? id).isSome = true

section
variable {base : Store} {machine : Machine} {program : Program}

/-- Variables can be allocated in a sound store. -/
theorem allots_sound (known : ∀ id ∈ program.persistents, (base.get? id).isSome = true) :
    Allots (Store.Grows program base) (fun store _ id => (store.get? id).isSome = true)
      program where
  fresh := by
    intro store reg slot grows found
    refine ⟨grows.insert (Array.mem_of_getElem? found), store.isSome_get?_insert _, ?_⟩
    intro other id isThere
    exact Store.KeepsShapes.isSome (store.keepsShapes_insert _) isThere
  persistent := by
    intro store reg slot id grows found persistent
    refine grows.keeps (known id ?_)
    exact List.mem_filterMap.mpr
      ⟨slot, Array.mem_toList_iff.mpr (Array.mem_of_getElem? found), persistent⟩

/-- **Every instruction keeps the store sound**, whatever the operands are. -/
theorem sound_execute (known : ∀ id ∈ program.persistents, (base.get? id).isSome = true)
    (sound : machine.Sound program base) (instruction : Instruction) (pc : Nat) :
    Keeps (Sound program base) (fun _ => True) machine (execute program instruction pc) := by
  -- references at hand lead to variables: frames do, and so do slots in a sound store
  have offered : ∀ id, machine.Offers id → (machine.store.get? id).isSome = true := by
    rintro id (⟨member⟩ | ⟨-, found, held⟩)
    · exact sound.frames member
    · exact sound.store.sound.resolves found held
  refine (allots_sound known).keeps_execute_of_touches sound ?_ (fun _ => offered) instruction pc
  rintro after (_ | ⟨-, revises⟩)
  · exact sound
  · refine ⟨sound.store.modify fun var => (revises var).mono offered, ?_⟩
    intro reg other member
    show (Slots.get? (machine.store.modify _ _) other).isSome = true
    rw [Store.isSome_get?_modify]
    exact sound.frames member

/-- A step keeps the store sound. -/
theorem sound_step (known : ∀ id ∈ program.persistents, (base.get? id).isSome = true)
    (sound : machine.Sound program base) :
    Keeps (Sound program base) (fun _ => True) machine (step program) :=
  keeps_step sound program (fun _ => trivial) fun instruction pc _ =>
    sound_execute known sound instruction pc

/-- No frames, and no time has passed. -/
theorem holds_idle {stored : Store → Prop} {framed : Store → RegId → VarId → Prop}
    (program : Program) {store : Store} (right : stored store) :
    (idle program store).Holds stored framed := by
  refine ⟨right, ?_⟩
  intro reg id member
  unfold idle RegisterFile.ofSize RegisterFile.framesOf at member
  dsimp only at member
  rw [Array.getElem?_replicate] at member
  split at member <;> cases member

/-- A call can be prepared. -/
theorem keeps_prepare_sound {io : VarId} {store : Store} (sound : store.Sound)
    (known : ∀ id ∈ program.persistents, (store.get? id).isSome = true)
    (isKnown : (store.get? io).isSome = true) (entry : ProcCode) {strays : ExecFault → Prop} :
    Keeps (Sound program store) strays (idle program store) (prepare program entry io) :=
  (allots_sound known).keeps_prepare (holds_idle program (sound.grows program))
    fun _ grows => grows.keeps isKnown

/-- **Every call keeps the store sound**, whatever program it is a call of. -/
theorem sound_of_invoke {proc : ProcId} {io : VarId} {store : Store} (sound : store.Sound)
    (known : ∀ id ∈ program.persistents, (store.get? id).isSome = true)
    (isKnown : (store.get? io).isSome = true) (steps : Nat) :
    (invoke program proc io steps store).1.Sound program store := by
  have each : ∀ machine : Machine, machine.Sound program store →
      Keeps (Sound program store) (fun _ => True) machine (step program) :=
    fun machine sound => sound_step known sound
  refine (keeps_invoke each (holds_idle program (sound.grows program)) ?_ ?_ steps).1
  · intro entry _
    exact keeps_prepare_sound sound known isKnown entry
  · intro machine sound
    exact keeps_enter sound program proc fun limit => ⟨limit, rfl⟩

end

end Machine

/-! ### Stores alone -/

namespace Store

variable {store : Store} {holds : Variable → Prop}

/-- What holds of all variables and of one that enters. -/
theorem forall_insert (all : ∀ ⦃id var⦄, store.get? id = some var → holds var) {new : Variable}
    (isRight : holds new) :
    ∀ ⦃id var⦄, (Slots.insert store new).get? id = some var → holds var := by
  intro id var found
  rw [Slots.get?_insert] at found
  split at found
  · cases found
    exact isRight
  · exact all found

/-- What holds of all variables, and still of one that is changed. -/
theorem forall_modify (all : ∀ ⦃id var⦄, store.get? id = some var → holds var) {target : VarId}
    {change : Variable → Variable} (keeps : ∀ var, holds var → holds (change var)) :
    ∀ ⦃id var⦄, (Slots.modify store target change).get? id = some var → holds var := by
  intro id var found
  rcases get?_modify_eq_some found with ⟨old, rfl, isOld, rfl⟩ | ⟨-, found⟩
  · exact keeps old (all isOld)
  · exact all found

end Store

namespace Machine

/-- An invariant of the store allows for the fresh variables of a program's registers, and for
revisions. -/
structure Lasts (stored : Store → Prop) (program : Program) : Prop where
  /-- Fresh variables of registers can enter. -/
  fresh : ∀ {store : Store} {slot : RegSlot}, stored store → slot ∈ program.regs →
    stored (store.insert slot.fresh)
  /-- Variables can be revised, whatever references they get. -/
  revised : ∀ {store : Store} {id : VarId} {change : Variable → Variable} {Brings : VarId → Prop},
    stored store → (∀ var : Variable, var.Revises (change var) Brings) →
      stored (store.modify id change)

/-- What holds of fresh variables and of all that they become holds of all variables. -/
theorem lasts_forall {holds : Variable → Prop} {program : Program}
    (fresh : ∀ slot ∈ program.regs, holds slot.fresh)
    (revised : ∀ {old new : Variable} {Brings : VarId → Prop},
      old.Revises new Brings → holds old → holds new) :
    Lasts (fun store => ∀ ⦃id var⦄, store.get? id = some var → holds var) program where
  fresh := fun all member => Store.forall_insert all (fresh _ member)
  revised := fun all revises => Store.forall_modify all fun var => revised (revises var)

section
variable {stored : Store → Prop} {program : Program} {machine : Machine}

/-- Nothing is asked of frames. -/
theorem Lasts.allots (lasts : Lasts stored program) :
    Allots stored (fun _ _ _ => True) program where
  fresh := fun kept found =>
    ⟨lasts.fresh kept (Array.mem_of_getElem? found), trivial, fun _ _ _ => trivial⟩
  persistent := fun _ _ _ => trivial

/-- **A step keeps the invariant**, whatever the instruction is. -/
theorem Lasts.keeps_step (lasts : Lasts stored program)
    (kept : machine.Holds stored fun _ _ _ => True) :
    Keeps (Holds stored fun _ _ _ => True) (fun _ => True) machine (step program) := by
  refine Machine.keeps_step kept program (fun _ => trivial) fun instruction pc _ => ?_
  refine lasts.allots.keeps_execute_of_touches kept ?_ (fun _ _ _ => trivial) instruction pc
  rintro after (_ | ⟨-, revises⟩)
  · exact kept
  · exact ⟨lasts.revised kept.store revises, fun _ => trivial⟩

/-- **A call keeps the invariant**, whatever program it is a call of. -/
theorem Lasts.stored_of_invoke (lasts : Lasts stored program) {store : Store} (kept : stored store)
    (proc : ProcId) (io : VarId) (steps : Nat) :
    stored (invoke program proc io steps store).1.store := by
  have start : (idle program store).Holds stored fun _ _ _ => True := holds_idle program kept
  refine (keeps_invoke (fun _ kept => lasts.keeps_step kept) start ?_ ?_ steps).1.store
  · intro entry _
    exact lasts.allots.keeps_prepare start fun _ _ => trivial
  · intro machine kept
    exact keeps_enter kept program proc fun limit => ⟨limit, rfl⟩

end

end Machine

end ScopeMachine
