import ScopeMachine.Proofs.Conformance
import ScopeMachine.Proofs.Upkeep

/-! # Where variables come from

A variable is one of a module if the module made it and every reference in its slots got there in a
way that can be trusted: checked when it was stored, or by a call of the module. Whether a call can
be trusted depends on what it could reach.

* `Store.Reaches` says which variables a call can reach, and `Turn.Fair` that they were all good;
* `Descends` says by the turns of a history which variables are of a module; `Proper` trusts the
  calls of the module that could reach nothing else;
* `Store.Tended` says that the slots of such variables hold variables of their types;
* `Store.Tended.step` says that every request keeps it so, and `History.tended` that it is so after
  every history. -/

namespace ScopeMachine

/-! ### Reaching variables -/

namespace Store

/-- A variable is reached from others through owned slots. -/
inductive Reaches (store : Store) (roots : List VarId) : VarId → Prop
  /-- A variable to start from. -/
  | root {id : VarId} (member : id ∈ roots) : Reaches store roots id
  /-- A variable in a slot of one that is reached. -/
  | slot {owner id : VarId} {var : Variable} (reaches : Reaches store roots owner)
      (found : store.get? owner = some var) (member : some id ∈ var.owned) :
      Reaches store roots id

section
variable {store : Store} {roots : List VarId}

/-- What is reached is in the store. -/
theorem Reaches.isSome {id : VarId} (reaches : store.Reaches roots id) (resolves : store.Resolves)
    (known : ∀ id ∈ roots, (store.get? id).isSome = true) : (store.get? id).isSome = true := by
  cases reaches with
  | root member => exact known id member
  | slot _ found member => exact resolves found member

/-- The references in the slots of a variable. -/
def slotsOf (store : Store) (id : VarId) : Array (Option VarId) :=
  ((store.get? id).map Variable.owned).getD #[]

/-- What is in a slot is one of the references of its variable. -/
theorem getElem?_slotsOf {id : VarId} {index : Nat} {frame : Option VarId} :
    (store.slotsOf id)[index]? = some frame ↔
      ∃ var, store.get? id = some var ∧ var.owned[index]? = some frame := by
  unfold Store.slotsOf
  cases store.get? id <;> simp

/-- Whether some variables refer only to each other. -/
def isClosed (store : Store) (known : List VarId) : Bool :=
  known.all fun owner => (store.slotsOf owner).all fun slot => slot.all known.contains

/-- Variables that refer only to each other are all that is reached from them. -/
theorem Reaches.mem {known : List VarId} (closed : store.isClosed known = true)
    (covers : ∀ id ∈ roots, id ∈ known) {id : VarId} (reaches : store.Reaches roots id) :
    id ∈ known := by
  induction reaches with
  | root member => exact covers _ member
  | @slot owner id var _ found member ih =>
      have slots := List.all_eq_true.mp closed owner ih
      unfold slotsOf at slots
      rw [found] at slots
      have contained := Array.all_eq_true_iff_forall_mem.mp slots (some id) member
      exact List.contains_iff_mem.mp contained

end

end Store

/-! ### Turns -/

namespace Turn

/-- The module that a turn makes variables of, if any: on request, by compiling it, or during a
call. -/
def maker? (turn : Turn) : Option ModuleRef :=
  match turn.request with
  | .newVariable handle _ _ => turn.host.subject? (.handle handle)
  | .ask party .unpack | .ask party (.call ..) => turn.host.subject? party
  | _ => none

/-- The module that a turn calls, if any. -/
def callee? (turn : Turn) : Option ModuleRef :=
  match turn.request with
  | .ask party (.call ..) => turn.host.subject? party
  | _ => none

/-- The entry point and the argument of the call of a turn, if any. -/
def call? (turn : Turn) : Option (ProcId × VarId) :=
  match turn.request with
  | .ask _ (.call proc io _) => some (proc, io)
  | _ => none

/-- Whether a reference was stored on request, which is when its type is checked. -/
def stores (turn : Turn) : Bool :=
  match turn.request with
  | .setOwnedRef .. => true
  | _ => false

/-- A module made a variable. -/
def Makes (turn : Turn) (subject : ModuleRef) (id : VarId) : Prop :=
  turn.maker? = some subject ∧ turn.host.store.next ≤ id ∧ id < turn.after.store.next

/-- There is a new reference in a slot of a variable. -/
def Gains (turn : Turn) (id : VarId) : Prop :=
  ∃ entry ∈ (turn.after.store.slotsOf id).toList.zipIdx,
    entry.1.isSome = true ∧ (turn.host.store.slotsOf id)[entry.2]? ≠ some entry.1

/-- A call could reach a variable, from its argument or from a persistent register. -/
def Touches (turn : Turn) (subject : ModuleRef) (id : VarId) : Prop :=
  ∃ call ∈ turn.call?, ∃ program ∈ (turn.host.stage subject.registry subject.module).program?,
    turn.host.store.Reaches (call.2 :: program.persistents) id

/-- The module was called, and all variables that the call could reach were good. -/
def Fair (subject : ModuleRef) (Good : VarId → Prop) (turn : Turn) : Prop :=
  turn.callee? = some subject ∧ ∀ id, turn.Touches subject id → Good id

instance (turn : Turn) (subject : ModuleRef) (id : VarId) : Decidable (turn.Makes subject id) :=
  inferInstanceAs (Decidable (_ ∧ _))

instance (turn : Turn) (id : VarId) : Decidable (turn.Gains id) :=
  inferInstanceAs (Decidable (∃ entry ∈ _, _))

/-- A reference is new if it was not there before. -/
theorem gains_iff {turn : Turn} {id : VarId} : turn.Gains id ↔
    ∃ (var : Variable) (index : Nat) (referent : VarId), turn.after.store.get? id = some var ∧
      var.owned[index]? = some (some referent) ∧
      ∀ old, turn.host.store.get? id = some old → old.owned[index]? ≠ some (some referent) := by
  constructor
  · rintro ⟨⟨_ | referent, index⟩, member, isSome, differs⟩
    · cases isSome
    · rw [List.mk_mem_zipIdx_iff_getElem?, Array.getElem?_toList, Store.getElem?_slotsOf] at member
      obtain ⟨var, found, isThere⟩ := member
      refine ⟨var, index, referent, found, isThere, ?_⟩
      intro old isOld wasThere
      exact differs (Store.getElem?_slotsOf.mpr ⟨old, isOld, wasThere⟩)
  · rintro ⟨var, index, referent, found, isThere, differs⟩
    refine ⟨(some referent, index), ?_, rfl, ?_⟩
    · rw [List.mk_mem_zipIdx_iff_getElem?, Array.getElem?_toList]
      exact Store.getElem?_slotsOf.mpr ⟨var, found, isThere⟩
    · intro wasThere
      obtain ⟨old, isOld, wasThere⟩ := Store.getElem?_slotsOf.mp wasThere
      exact differs old isOld wasThere

end Turn

/-! ### Descent -/

/-- Which variables are of a module, by the turns of a history, the latest first: the module made
them, and whenever they got a new reference it was stored on request, or the turn can be trusted,
which may depend on the variables that were of the module until then. -/
def Descends (subject : ModuleRef) (trusts : (VarId → Prop) → Turn → Prop) :
    List Turn → VarId → Prop
  | [], _ => False
  | turn :: turns, id =>
      (turn.Makes subject id ∨ Descends subject trusts turns id) ∧
        (¬ turn.Gains id ∨ turn.stores = true ∨ trusts (Descends subject trusts turns) turn)

instance Descends.decidable {subject : ModuleRef} {trusts : (VarId → Prop) → Turn → Prop}
    [decides : ∀ good turn, Decidable (trusts good turn)] :
    (turns : List Turn) → (id : VarId) → Decidable (Descends subject trusts turns id)
  | [], _ => isFalse id
  | _ :: turns, id =>
      have : Decidable (Descends subject trusts turns id) := Descends.decidable turns id
      inferInstanceAs (Decidable (_ ∧ _))

/-- What has never needed trust descends in any case. -/
theorem Descends.of_untrusting {subject : ModuleRef} {trusts : (VarId → Prop) → Turn → Prop}
    {turns : List Turn} {id : VarId} (descends : Descends subject (fun _ _ => False) turns id) :
    Descends subject trusts turns id := by
  induction turns with
  | nil => exact descends
  | cons turn turns ih =>
      obtain ⟨origin, none | stores | trusted⟩ := descends
      · exact ⟨origin.imp_right ih, .inl none⟩
      · exact ⟨origin.imp_right ih, .inr (.inl stores)⟩
      · exact trusted.elim

/-- A variable is of a module, if calls are trusted that could reach only such variables. -/
abbrev Proper (subject : ModuleRef) : List Turn → VarId → Prop :=
  Descends subject (Turn.Fair subject)

/-! ### Tended variables -/

/-- What is known of an argument that is allowed. -/
theorem Machine.checkCall_eq_ok {program : Program} {proc : ProcId} {io : VarId} {store : Store}
    {entry : ProcCode} {var : Variable} (found : store.get? io = some var)
    (allowed : checkCall program proc io store = .ok entry) :
    program.entryPoint? proc = some entry ∧ ∃ slot, program.regs[entry.io.index]? = some slot ∧
      var.layout.sameShape slot.layout = true ∧
      slot.layout.fixedCount?.all (· == var.count) = true := by
  obtain ⟨other, isEntry, allowed⟩ := bind_eq_ok.mp allowed
  rw [found] at allowed
  obtain ⟨_, checked, allowed⟩ := bind_eq_ok.mp allowed
  cases allowed
  obtain ⟨slot, isSlot, checked⟩ := bind_eq_ok.mp checked
  refine ⟨orError_eq_ok.mp isEntry, slot, orError_eq_ok.mp isSlot, ?_⟩
  dsimp only at checked
  split at checked
  · cases checked
  next fits => simpa only [Bool.not_eq_true', Bool.not_eq_false, Bool.and_eq_true] using fits

namespace Store

variable {module : Module}

/-- A type admits a variable, if it is good. -/
def Admitted (typing : Typing module) (Good : VarId → Prop) (store : Store) (vtype : VarTypeId)
    (id : VarId) : Prop :=
  Good id → ∀ var, store.get? id = some var → typing.Admits vtype var.layout var.count

/-- Good variables are such as a module makes, and their slots hold variables of their types, as far
as these are good, too. -/
structure Tended (typing : Typing module) (Good : VarId → Prop) (store : Store) : Prop where
  /-- Good variables have been made. -/
  known : ∀ {id : VarId}, Good id → id < store.next
  /-- They are such as the module makes. -/
  made : ∀ {id : VarId} {var : Variable}, Good id → store.get? id = some var →
    module.Makes var.layout var.count
  /-- Their slots hold variables of their types. -/
  slots : ∀ {id : VarId} {var : Variable}, Good id → store.get? id = some var →
    var.SlotsHold (store.Admitted typing Good)

/-- The variables of a call: those that it can reach, and those to come. -/
def Mine (store : Store) (roots : List VarId) (id : VarId) : Prop :=
  store.Reaches roots id ∨ store.next ≤ id

/-- An argument that is allowed and that the module has made is of the type of its register. -/
def Binds (typing : Typing module) (program : Program) (proc : ProcId) (io : VarId)
    (store : Store) : Prop :=
  ∀ entry spec var, Machine.checkCall program proc io store = .ok entry →
    module.reg? entry.io = some spec → store.get? io = some var →
    module.Makes var.layout var.count → typing.Admits spec.vtype var.layout var.count

section
variable {typing : Typing module} {Good : VarId → Prop} {store : Store}

/-- **Calls that can reach only good variables meet what is asked of them.** -/
theorem Tended.meets (tended : store.Tended typing Good) (sound : store.Sound) {program : Program}
    (compiles : Compiles module program) (wellFormed : module.WellFormed)
    (stored : ∀ slot ∈ program.regs, slot.Stored store) {proc : ProcId} {io : VarId}
    (known : (store.get? io).isSome = true)
    (good : ∀ id, store.Reaches (io :: program.persistents) id → Good id)
    (binds : store.Binds typing program proc io) :
    Machine.Meets module typing (store.Mine (io :: program.persistents)) program proc io store := by
  have persistents : ∀ id ∈ program.persistents, (store.get? id).isSome = true := by
    intro id member
    obtain ⟨slot, isSlot, persistent⟩ := List.mem_filterMap.mp member
    obtain ⟨var, found, -⟩ := stored slot (Array.mem_toList_iff.mp isSlot) id persistent
    rw [found]
    rfl
  have reached : ∀ {id : VarId}, store.Mine (io :: program.persistents) id →
      (store.get? id).isSome = true → store.Reaches (io :: program.persistents) id := by
    rintro id (reaches | unused) found
    · exact reaches
    · obtain ⟨var, found⟩ := Option.isSome_iff_exists.mp found
      exact absurd (Slots.lt_next_of_get? found) (Nat.not_lt_of_le unused)
  refine ⟨compiles, wellFormed, sound, ⟨?_, fun unused => .inr unused, fun _ => rfl, .refl store⟩,
    known, ?_, persistents, ?_⟩
  · intro id var mine found
    have reaches := reached mine (Option.isSome_iff_exists.mpr ⟨var, found⟩)
    refine (tended.slots (good id reaches) found).mono ?_
    intro vtype referent member admits
    have next : store.Reaches _ referent := .slot reaches found member
    exact ⟨.inl next, tended.known (good referent next), admits (good referent next)⟩
  · intro entry allowed spec isSpec
    have reaches : store.Reaches (io :: program.persistents) io := .root List.mem_cons_self
    refine ⟨.inl reaches, tended.known (good io reaches), ?_⟩
    intro var found
    exact binds entry spec var allowed isSpec found (tended.made (good io reaches) found)
  · intro reg slot spec id found persistent isSpec
    have member := Array.mem_of_getElem? found
    have reaches : store.Reaches (io :: program.persistents) id :=
      .root (List.mem_cons_of_mem _ (List.mem_filterMap.mpr
        ⟨slot, Array.mem_toList_iff.mpr member, persistent⟩))
    refine ⟨.inl reaches, tended.known (good id reaches), ?_⟩
    intro var isVar
    obtain ⟨storage, isStorage, layout, count⟩ := stored slot member id persistent
    obtain rfl : storage = var := Option.some.inj (isStorage.symm.trans isVar)
    obtain ⟨other, isOther, resolves⟩ := compiles.reg found
    obtain rfl : other = spec := Option.some.inj (isOther.symm.trans isSpec)
    rw [layout, count, ← resolves.vtype]
    exact typing.made (compiles.makes wellFormed member)

/-- Slots that hold variables of their types go on doing so, if they hold the same. -/
theorem Tended.slots_before (tended : store.Tended typing Good) (sound : store.Sound)
    {after : Store} (ages : store.Ages after) {Next : VarId → Prop}
    (old : ∀ id, Next id → id < store.next → Good id) {id : VarId} {var : Variable}
    (isNext : Next id) (found : store.get? id = some var) :
    var.SlotsHold (after.Admitted typing Next) := by
  have good := old id isNext (Slots.lt_next_of_get? found)
  refine (tended.slots good found).mono ?_
  intro vtype referent member admitted isNextToo target isTarget
  obtain ⟨held, isHeld⟩ := Option.isSome_iff_exists.mp (sound.resolves found member)
  have known := Slots.lt_next_of_get? isHeld
  obtain ⟨before, isBefore, layout, count⟩ := ages.shapes known isTarget
  rw [layout, count]
  exact admitted (old referent isNextToo known) before isBefore

end

end Store

/-! ### Requests -/

namespace Host

section
variable {host after : Host} {request : Request} {subject : ModuleRef} {module : Module}

/-- **A module makes variables of its types.** -/
theorem Effect.makes (effect : host.Effect request after) (kept : host.Kept)
    (wellFormed : module.WellFormed)
    (only : ∀ other, (host.stage subject.registry subject.module).module? = some other →
      other = module)
    (isMaker : Turn.maker? ⟨host, request⟩ = some subject) {id : VarId} {var : Variable}
    (fresh : host.store.next ≤ id) (found : after.store.get? id = some var) :
    module.Makes var.layout var.count := by
  -- what a program of the module makes, it makes for a register
  have stems : ∀ {program : Program} {store : Store}, Compiles module program →
      Store.Grows program host.store store → store.get? id = some var →
      module.Makes var.layout var.count := by
    intro program store compiles grows isThere
    obtain ⟨slot, member, layout, count⟩ := grows.stems fresh isThere
    rw [layout, count]
    exact compiles.makes wellFormed member
  cases effect with
  | changes changes eases =>
      have isThere := eases.found found
      cases changes with
      | nothing => exact absurd (Slots.lt_next_of_get? isThere) (Nat.not_lt_of_le fresh)
      | call speaks isStage known =>
          obtain rfl := Option.some.inj (speaks.symm.trans isMaker)
          obtain rfl := only _ (by rw [isStage]; rfl)
          exact stems (kept.compiles isStage) (kept.grows_invoke isStage known _ _) isThere
      | newVariable speaks described makes =>
          obtain rfl := Option.some.inj (speaks.symm.trans isMaker)
          obtain rfl := only _ described
          replace isThere : Slots.get? (host.store.insert _) id = some var := isThere
          rw [Slots.get?_insert] at isThere
          split at isThere
          · cases isThere
            exact makes
          · exact absurd (Slots.lt_next_of_get? isThere) (Nat.not_lt_of_le fresh)
      | newVar | edit | setOwnedRef => cases isMaker
  | unpack speaks isStage compiled stages =>
      obtain rfl := Option.some.inj (speaks.symm.trans isMaker)
      obtain rfl := only _ (by rw [isStage]; rfl)
      exact stems (compiles_of_compile compiled).1
        (Store.furnishes_of_compile kept.sound compiled).toGrows found

/-- **Only calls, and storing references on request, bring references.** -/
theorem Effect.getElem?_owned (effect : host.Effect request after) (kept : host.Kept)
    (noCall : Turn.callee? ⟨host, request⟩ = none) (noStore : Turn.stores ⟨host, request⟩ = false)
    {id referent : VarId} {var : Variable} (found : after.store.get? id = some var) {index : Nat}
    (isThere : var.owned[index]? = some (some referent)) :
    ∃ old, host.store.get? id = some old ∧ old.owned[index]? = some (some referent) := by
  have member := Array.mem_of_getElem? isThere
  -- a variable that enters refers to nothing
  have enters : ∀ {layout : Layout} {count : Nat},
      Slots.get? (host.store.insert (Variable.zeroed layout count)) id = some var →
      ∃ old, host.store.get? id = some old ∧ old.owned[index]? = some (some referent) := by
    intro layout count isFound
    rw [Slots.get?_insert] at isFound
    split at isFound
    · cases isFound
      exact absurd member (Variable.bare_zeroed layout count referent)
    · exact ⟨var, isFound, isThere⟩
  cases effect with
  | changes changes eases =>
      have isFound := eases.found found
      cases changes with
      | nothing => exact ⟨var, isFound, isThere⟩
      | call speaks isStage known => cases speaks.symm.trans noCall
      | newVariable speaks described makes => exact enters isFound
      | newVar => exact enters isFound
      | edit edits =>
          rcases Store.get?_modify_eq_some isFound with ⟨old, rfl, isOld, rfl⟩ | ⟨-, isOld⟩
          · exact ⟨old, isOld, (edits old isOld).owned ▸ isThere⟩
          · exact ⟨var, isOld, isThere⟩
      | setOwnedRef known stored => cases noStore
  | unpack speaks isStage compiled stages =>
      rcases (Store.furnishes_of_compile kept.sound compiled).bare found with isOld | bare
      · exact ⟨var, isOld, isThere⟩
      · exact absurd member (bare referent)

end

end Host

/-! ### Tending -/

/-- If a turn calls a module, the argument is of the type of its register. -/
def Turn.Binds {module : Module} (typing : Typing module) (subject : ModuleRef) (turn : Turn) :
    Prop :=
  ∀ call ∈ turn.call?, ∀ program,
    turn.host.stage subject.registry subject.module = .compiled module program →
      turn.host.store.Binds typing program call.1 call.2

namespace Store

section
variable {module : Module} {typing : Typing module} {Good Next : VarId → Prop} {turn : Turn}
  {subject : ModuleRef} {id : VarId} {var : Variable}

/-- Slots hold variables of their types if no references are new. -/
theorem Tended.slots_of_not_gains (tended : turn.host.store.Tended typing Good)
    (sound : turn.host.store.Sound) (ages : turn.host.store.Ages turn.after.store)
    (old : ∀ id, Next id → id < turn.host.store.next → Good id) (none : ¬ turn.Gains id)
    (isNext : Next id) (found : turn.after.store.get? id = some var) :
    var.SlotsHold (turn.after.store.Admitted typing Next) := by
  intro index referent isThere vtype declared
  obtain ⟨before, isBefore, wasThere⟩ : ∃ before, turn.host.store.get? id = some before ∧
      before.owned[index]? = some (some referent) := by
    apply Classical.byContradiction
    intro new
    exact none (Turn.gains_iff.mpr ⟨var, index, referent, found, isThere,
      fun before isBefore wasThere => new ⟨before, isBefore, wasThere⟩⟩)
  obtain ⟨same, isSame, layout, -⟩ := ages.shapes (Slots.lt_next_of_get? isBefore) found
  obtain rfl : before = same := Option.some.inj (isBefore.symm.trans isSame)
  rw [layout] at declared
  exact tended.slots_before sound ages old isNext isBefore wasThere vtype declared

/-- Slots hold variables of their types after a reference has been stored on request. -/
theorem Tended.slots_of_stores (tended : turn.host.store.Tended typing Good)
    (kept : turn.host.Kept) {after : Host} (effect : turn.host.Effect turn.request after)
    (old : ∀ id, Next id → id < turn.host.store.next → Good id) (stores : turn.stores = true)
    (isNext : Next id) (found : after.store.get? id = some var) :
    var.SlotsHold (after.store.Admitted typing Next) := by
  have ages := effect.ages kept
  have keeps : ∀ {before : Variable}, turn.host.store.get? id = some before →
      before.SlotsHold (after.store.Admitted typing Next) :=
    tended.slots_before kept.sound ages old isNext
  obtain ⟨host, request⟩ := turn
  cases request with
  | setOwnedRef owner element slot referent =>
      cases effect with
      | changes changes eases =>
          have isThere := eases.found found
          cases changes with
          | nothing => exact keeps isThere
          | setOwnedRef known stored =>
              rcases setOwnedRef_eq_ok stored with rfl | ⟨owning, isOwning, inside, checked, rfl⟩
              · exact keeps isThere
              · rcases get?_modify_eq_some isThere with ⟨before, rfl, isBefore, rfl⟩ | ⟨-, isBefore⟩
                · obtain rfl : owning = before := Option.some.inj (isOwning.symm.trans isBefore)
                  refine (keeps isBefore).putOwnedRef ?_ inside
                  -- the type was checked, and the module makes variables of its types
                  intro stored isReferent vtype declared isNextToo target isTarget
                  obtain ⟨held, isHeld⟩ := Option.isSome_iff_exists.mp (known stored isReferent)
                  have wasKnown := Slots.lt_next_of_get? isHeld
                  obtain ⟨same, isSame, layout, count⟩ := ages.shapes wasKnown isTarget
                  obtain rfl : held = same := Option.some.inj (isHeld.symm.trans isSame)
                  rw [layout, count, ← checked stored held vtype isReferent isHeld declared]
                  exact typing.made (tended.made (old stored isNextToo wasKnown) isHeld)
                · exact keeps isBefore
  | _ => cases stores

/-- Slots hold variables of their types after a fair call. -/
theorem Tended.slots_of_fair (tended : turn.host.store.Tended typing Good)
    (kept : turn.host.Kept) {after : Host} (effect : turn.host.Effect turn.request after)
    (old : ∀ id, Next id → id < turn.host.store.next → Good id) (wellFormed : module.WellFormed)
    (only : ∀ other, (turn.host.stage subject.registry subject.module).module? = some other →
      other = module)
    (binds : turn.Binds typing subject) (fair : turn.Fair subject Good) (isNext : Next id)
    (found : after.store.get? id = some var) :
    var.SlotsHold (after.store.Admitted typing Next) := by
  have ages := effect.ages kept
  have keeps : ∀ {before : Variable}, turn.host.store.get? id = some before →
      before.SlotsHold (after.store.Admitted typing Next) :=
    tended.slots_before kept.sound ages old isNext
  obtain ⟨isCall, good⟩ := fair
  obtain ⟨host, request⟩ := turn
  cases effect with
  | changes changes eases =>
      have isThere := eases.found found
      cases changes with
      | nothing => exact keeps isThere
      | @call party other _ program proc io steps speaks isStage known =>
          obtain rfl : other = subject := Option.some.inj (speaks.symm.trans isCall)
          obtain rfl := only _ (by rw [isStage]; rfl)
          have meets := tended.meets kept.sound (kept.compiles isStage) wellFormed
            (fun _ member => kept.stored isStage member) known
            (fun id reaches => good id ⟨(proc, io), rfl, program, by rw [isStage]; rfl, reaches⟩)
            (binds (proc, io) rfl program isStage)
          have typed := (meets.invoke steps).1.typed.store
          by_cases mine : host.store.Mine (io :: program.persistents) id
          · refine (typed.slots mine isThere).mono ?_
            intro vtype referent _ suits _ target isTarget
            exact suits.2.2 target (eases.found isTarget)
          · -- the call has not changed what it could not reach
            exact keeps ((typed.others mine).symm.trans isThere)
      | newVariable | newVar | edit | setOwnedRef => cases isCall
  | unpack => cases isCall

/-- **Every request keeps good variables tended.** -/
theorem Tended.step (tended : turn.host.store.Tended typing Good) (kept : turn.host.Kept)
    (effect : turn.host.Effect turn.request turn.after) (wellFormed : module.WellFormed)
    (only : ∀ other, (turn.host.stage subject.registry subject.module).module? = some other →
      other = module)
    (binds : turn.Binds typing subject)
    (next : ∀ id, Next id → (turn.Makes subject id ∨ Good id) ∧
      (¬ turn.Gains id ∨ turn.stores = true ∨ turn.Fair subject Good)) :
    turn.after.store.Tended typing Next := by
  have ages := effect.ages kept
  have old : ∀ id, Next id → id < turn.host.store.next → Good id := by
    intro id isNext known
    rcases (next id isNext).1 with ⟨-, fresh, -⟩ | good
    · exact absurd known (Nat.not_lt_of_le fresh)
    · exact good
  refine ⟨?_, ?_, ?_⟩
  · intro id isNext
    rcases (next id isNext).1 with ⟨-, -, known⟩ | good
    · exact known
    · exact Nat.lt_of_lt_of_le (tended.known good) ages.grows
  · intro id var isNext found
    rcases (next id isNext).1 with ⟨isMaker, fresh, -⟩ | good
    · exact effect.makes kept wellFormed only isMaker fresh found
    · obtain ⟨before, isBefore, layout, count⟩ := ages.shapes (tended.known good) found
      rw [layout, count]
      exact tended.made good isBefore
  · intro id var isNext found
    rcases (next id isNext).2 with none | stores | fair
    · exact tended.slots_of_not_gains kept.sound ages old none isNext found
    · exact tended.slots_of_stores kept effect old stores isNext found
    · exact tended.slots_of_fair kept effect old wellFormed only binds fair isNext found

end

end Store

/-- **After every history, the variables of a module are tended.** -/
theorem History.tended {turns : List Turn} {host : Host} (history : History turns host)
    {subject : ModuleRef} {module : Module} (wellFormed : module.WellFormed)
    (only : ∀ other, .registered other ∈ record turns subject.registry subject.module →
      other = module)
    {typing : Typing module} (binds : ∀ turn ∈ turns, turn.Binds typing subject) :
    host.store.Tended typing (Proper subject turns) := by
  induction history with
  | start =>
      refine ⟨?_, ?_, ?_⟩
      · rintro id ⟨⟩
      · rintro id var ⟨⟩
      · rintro id var ⟨⟩
  | @next turns host request history allowed ih =>
      have before := ih (fun other registered => only other (List.mem_append_right _ registered))
        fun turn member => binds turn (List.mem_cons_of_mem _ member)
      refine Store.Tended.step before history.kept (Host.effect_of_request allowed) wellFormed ?_
        (binds _ List.mem_cons_self) fun _ proper => proper
      intro other described
      exact only other (List.mem_append_right _ (history.registered_of_stage described))

end ScopeMachine
