import ScopeMachine.Proofs.Heap
import ScopeMachine.Proofs.WellFormed

/-! # Variables of the declared types

The operands of an instruction are checked against the declarations of registers, once and for all.
What the instruction meets when it is carried out are variables. They are as the declarations say
if every frame holds a variable of the register's type, and every slot one of the slot's type, and
then most of what an instruction checks again cannot fail.

* `Typing` says which variables a type admits: `Typing.shaped` those of its shape, `Typing.exact`
  those made for it;
* `Store.Typed` and `Machine.Typed` say that slots and frames hold variables of their types, as far
  as an execution reaches, and that nothing else changes;
* `Machine.Strays` lists the faults that remain, and `Machine.Located` says what is known of a
  register and of the variable that it names. -/

namespace ScopeMachine

/-! ### Typings -/

/-- There are as many elements as a type declares, if it declares how many there are. -/
def VarType.Counts (type : VarType) (count : Nat) : Prop :=
  type.isDynamic = false → count = type.elementCount.toNat

/-- A module makes variables with a layout and a number of elements: the layout is that of one of
its types, and there are as many elements as the type declares. -/
def Module.Makes (module : Module) (layout : Layout) (count : Nat) : Prop :=
  ∃ type, module.vtype? layout.vtype = some type ∧ layout.shape = type ∧ type.Counts count

/-- Registers are allocated with variables that the module makes. -/
theorem RegSpec.Fits.makes {module : Module} {spec : RegSpec} {type : VarType}
    (fits : spec.Fits module) (found : module.vtype? spec.vtype = some type) :
    module.Makes ⟨spec.vtype, type⟩ spec.count.toNat := by
  obtain ⟨declared, isDeclared, count, -⟩ := fits.type
  obtain rfl : declared = type := Option.some.inj (isDeclared.symm.trans found)
  refine ⟨declared, found, rfl, ?_⟩
  intro fixed
  rw [count fixed]

/-- Registers of programs are allocated with variables that the module makes. -/
theorem Compiles.makes {module : Module} {program : Program} (compiles : Compiles module program)
    (wellFormed : module.WellFormed) {slot : RegSlot} (member : slot ∈ program.regs) :
    module.Makes slot.layout slot.count := by
  obtain ⟨index, found⟩ := Array.getElem?_of_mem member
  obtain ⟨spec, isSpec, resolves⟩ := compiles.reg found
  obtain ⟨type, isType, layout⟩ := resolves.layout
  rw [layout, resolves.count]
  exact (wellFormed.regs spec (Array.mem_of_getElem? isSpec)).makes isType

/-- A reading of the types of a module: which variables each of them admits, by layout and number
of elements. -/
structure Typing (module : Module) where
  /-- A type admits variables with a layout and a number of elements. -/
  Admits : VarTypeId → Layout → Nat → Prop
  /-- Elements have the declared shape. -/
  shape : ∀ {vtype : VarTypeId} {layout : Layout} {count : Nat} {type : VarType},
    Admits vtype layout count → module.vtype? vtype = some type →
      layout.shape.same type = true
  /-- There are as many as declared. -/
  counts : ∀ {vtype : VarTypeId} {layout : Layout} {count : Nat} {type : VarType},
    Admits vtype layout count → module.vtype? vtype = some type → type.Counts count
  /-- A type admits the variables that are made for it. -/
  made : ∀ {layout : Layout} {count : Nat}, module.Makes layout count →
    Admits layout.vtype layout count

namespace Typing

/-- A type admits the variables of its shape. -/
def shaped (module : Module) : Typing module where
  Admits vtype layout count := ∃ type, module.vtype? vtype = some type ∧
    layout.shape.same type = true ∧ type.Counts count
  shape := by
    rintro vtype layout count type ⟨other, isOther, shape, -⟩ found
    obtain rfl : other = type := Option.some.inj (isOther.symm.trans found)
    exact shape
  counts := by
    rintro vtype layout count type ⟨other, isOther, -, counts⟩ found
    obtain rfl : other = type := Option.some.inj (isOther.symm.trans found)
    exact counts
  made := by
    rintro layout count ⟨type, found, shape, counts⟩
    exact ⟨type, found, shape ▸ Shape.same_self _, counts⟩

/-- A type admits the variables that are made for it, and no others. -/
def exact (module : Module) : Typing module where
  Admits vtype layout count := layout.vtype = vtype ∧ module.Makes layout count
  shape := by
    rintro vtype layout count type ⟨rfl, other, isOther, shape, -⟩ found
    obtain rfl : other = type := Option.some.inj (isOther.symm.trans found)
    exact shape ▸ Shape.same_self _
  counts := by
    rintro vtype layout count type ⟨rfl, other, isOther, -, counts⟩ found
    obtain rfl : other = type := Option.some.inj (isOther.symm.trans found)
    exact counts
  made := fun makes => ⟨rfl, makes⟩

/-- A variable without elements is of a type that does not say how many there are. -/
theorem isDynamic_of_empty {module : Module} (typing : Typing module) {vtype : VarTypeId}
    {layout : Layout} {type : VarType} (admits : typing.Admits vtype layout 0)
    (found : module.vtype? vtype = some type) : type.isDynamic = true := by
  apply Classical.byContradiction
  intro fixed
  have none := typing.counts admits found (Bool.eq_false_iff.mpr fixed)
  refine fixed ?_
  unfold VarType.isDynamic
  rw [beq_iff_eq]
  exact UInt32.toNat.inj none.symm

end Typing

/-! ### Typed stores -/

namespace Store

section
variable {module : Module}

/-- A variable suits a type: it is one of ours, and the type admits it. -/
def Suits (typing : Typing module) (Mine : VarId → Prop) (store : Store) (vtype : VarTypeId)
    (id : VarId) : Prop :=
  Mine id ∧ id < store.next ∧
    ∀ var, store.get? id = some var → typing.Admits vtype var.layout var.count

/-- The slots of our variables hold variables that suit their types, and only our variables have
changed since some time. -/
structure Typed (typing : Typing module) (Mine : VarId → Prop) (base store : Store) : Prop where
  /-- The slots hold variables that suit. -/
  slots : ∀ {id : VarId} {var : Variable}, Mine id → store.get? id = some var →
    var.SlotsHold (store.Suits typing Mine)
  /-- Variables to come are ours. -/
  fresh : ∀ {id : VarId}, store.next ≤ id → Mine id
  /-- No other variable has changed. -/
  others : ∀ {id : VarId}, ¬ Mine id → store.get? id = base.get? id
  /-- Time has passed. -/
  ages : base.Ages store

variable {typing : Typing module} {Mine : VarId → Prop} {base store : Store}

/-- A variable goes on suiting a type. -/
theorem Suits.of_ages {after : Store} {vtype : VarTypeId} {id : VarId}
    (suits : store.Suits typing Mine vtype id) (ages : store.Ages after) :
    after.Suits typing Mine vtype id := by
  obtain ⟨mine, known, admits⟩ := suits
  refine ⟨mine, Nat.lt_of_lt_of_le known ages.grows, ?_⟩
  intro var found
  obtain ⟨old, foundOld, layout, count⟩ := ages.shapes known found
  rw [layout, count]
  exact admits old foundOld

/-- One of our variables is changed. -/
theorem Typed.modify (typed : Typed typing Mine base store) {id : VarId}
    {change : Variable → Variable} (mine : Mine id) (ages : store.Ages (store.modify id change))
    (slots : ∀ var, store.get? id = some var →
      (change var).SlotsHold (store.Suits typing Mine)) :
    Store.Typed typing Mine base (store.modify id change) where
  slots := by
    intro other changed isMine isChanged
    have before : changed.SlotsHold (store.Suits typing Mine) := by
      rcases get?_modify_eq_some isChanged with ⟨old, rfl, foundOld, rfl⟩ | ⟨-, found⟩
      · exact slots old foundOld
      · exact typed.slots isMine found
    refine before.mono ?_
    intro vtype referent _ suits
    exact suits.of_ages ages
  fresh := by
    intro other unused
    rw [Slots.next_modify] at unused
    exact typed.fresh unused
  others := by
    intro other foreign
    have differs : other ≠ id := by
      rintro rfl
      exact foreign mine
    rw [Slots.get?_modify, if_neg differs]
    exact typed.others foreign
  ages := typed.ages.trans ages

/-- A variable enters without references. -/
theorem Typed.insert (typed : Typed typing Mine base store) {var : Variable}
    (bare : ∀ holds, var.SlotsHold holds) : Store.Typed typing Mine base (store.insert var) where
  slots := by
    intro id changed isMine isChanged
    rw [Slots.get?_insert] at isChanged
    split at isChanged
    · cases isChanged
      exact bare _
    · refine (typed.slots isMine isChanged).mono ?_
      intro vtype referent _ suits
      exact suits.of_ages (store.ages_insert var)
  fresh := by
    intro id unused
    rw [Slots.next_insert] at unused
    exact typed.fresh (by omega)
  others := by
    intro id foreign
    have known : id ≠ store.next := by
      rintro rfl
      exact foreign (typed.fresh (Nat.le_refl _))
    rw [Slots.get?_insert, if_neg known]
    exact typed.others foreign
  ages := typed.ages.trans (store.ages_insert var)

end

end Store

/-! ### Looking at a machine -/

namespace Machine

section
variable {α β : Type} {strays : ExecFault → Prop}

/-- A look has a result with some property, or a fault that is one of some. -/
def Sees (strays : ExecFault → Prop) (result : Except Error α) (post : α → Prop) : Prop :=
  match result with
  | .ok value => post value
  | .error error => ∀ fault, error = .execution fault → strays fault

/-- One look after the other. -/
theorem Sees.bind {first : Except Error α} {second : α → Except Error β} {middle : α → Prop}
    {post : β → Prop} (sees : Sees strays first middle)
    (next : ∀ value, middle value → Sees strays (second value) post) :
    Sees strays (first >>= second) post := by
  cases first with
  | ok value => exact next value sees
  | error error => exact sees

/-- What may be there, or else a fault. -/
theorem sees_orError {option : Option α} {fault : ExecFault} {post : α → Prop}
    (there : ∀ value, option = some value → post value)
    (missing : option = none → strays fault) :
    Sees strays (orError (.execution fault) option) post := by
  cases option with
  | some value => exact there value rfl
  | none =>
      rintro other ⟨⟩
      exact missing rfl

/-- A look that is not taken further if something is the case. -/
theorem sees_unless {condition : Prop} [Decidable condition] {fault : ExecFault}
    {next : Except Error β} {post : β → Prop} (failing : condition → strays fault)
    (sees : ¬ condition → Sees strays next post) :
    Sees strays (if condition then throw (.execution fault) >>= fun (_ : PUnit) => next else next)
      post := by
  split
  next holds =>
    rintro other ⟨⟩
    exact failing holds
  next fails => exact sees fails

/-- A look before an action. -/
theorem keeps_of_sees {holds : Machine → Prop} {machine : Machine}
    {look : Machine → Except Error α} {second : α → Exec β} (post : α → Prop) (kept : holds machine)
    (sees : Sees strays (look machine) post)
    (next : ∀ value, look machine = .ok value → post value →
      Keeps holds strays machine (second value)) :
    Keeps holds strays machine (inspect look >>= second) := by
  refine keeps_look kept ?_ ?_
  · intro fault failed
    rw [failed] at sees
    exact sees fault rfl
  · intro value found
    rw [found] at sees
    exact next value found sees

end

/-! ### Faults that remain -/

/-- **The faults of an instruction that the types do not rule out.** An index is out of range if the
word that a copy of an element is positioned by lies outside the elements, or if a variable has no
elements, which its type then leaves open. No range of bytes is ever out of range. -/
def Strays (module : Module) (machine : Machine) (instruction : Instruction) : ExecFault → Prop
  | .indexOutOfRange reg index len =>
      ∃ id var, machine.named reg = .ok (id, var) ∧ var.count = len ∧
        ((∃ position word, ((∃ dst, instruction = .lde dst reg position) ∨
            ∃ src, instruction = .ste reg position src) ∧
          readWord position machine = .ok word machine ∧ word.toInt = index ∧
          (index < 0 ∨ len ≤ index)) ∨
        (reg ∈ instruction.accesses ∧ index = 0 ∧ len = 0 ∧
          ∃ type, module.regType? reg = some type ∧ type.isDynamic = true))
  | .byteRange .. => False
  | .thrown _ | .nullReference _ | .callDepthExceeded _ => True

/-- Slots and frames hold variables that suit their types. -/
abbrev Typed {module : Module} (typing : Typing module) (Mine : VarId → Prop) (base : Store) :
    Machine → Prop :=
  Holds (Store.Typed typing Mine base) fun store reg id =>
    ∀ spec, module.reg? reg = some spec → store.Suits typing Mine spec.vtype id

section
variable {module : Module} {typing : Typing module} {Mine : VarId → Prop} {base : Store}
  {machine : Machine} {instruction : Instruction}

/-- What is known of a declared register and of the variable that it names. -/
structure Located (typing : Typing module) (Mine : VarId → Prop) (machine : Machine) (reg : RegId)
    (declared : DeclaredReg) (id : VarId) (var : Variable) : Prop where
  /-- The register is declared. -/
  spec : module.reg? reg = some declared.spec
  /-- Its type is declared. -/
  type : module.vtype? declared.spec.vtype = some declared.type
  /-- The register names the variable. -/
  named : machine.named reg = .ok (id, var)
  /-- The variable is in the store. -/
  found : machine.store.get? id = some var
  /-- It is one of ours. -/
  mine : Mine id
  /-- It is of the register's type. -/
  admits : typing.Admits declared.spec.vtype var.layout var.count
  /-- It is as large as its shape says. -/
  sized : var.Sized
  /-- Its slots hold variables of their types. -/
  slots : var.SlotsHold (machine.store.Suits typing Mine)

namespace Located

variable {reg : RegId} {declared : DeclaredReg} {id : VarId} {var : Variable}

/-- Its elements have the declared size. -/
theorem elementBytes (located : Located typing Mine machine reg declared id var) :
    var.layout.elementBytes = declared.bytes :=
  congrArg UInt64.toNat (Shape.same_iff.mp (typing.shape located.admits located.type)).1

/-- Its slots have the declared types. -/
theorem ownedRefs (located : Located typing Mine machine reg declared id var) :
    var.layout.shape.ownedRefs = declared.type.ownedRefs :=
  (Shape.same_iff.mp (typing.shape located.admits located.type)).2.1

/-- Variables of registers whose types have the same shape have the same shape. -/
theorem sameShape {other : RegId} {otherDeclared : DeclaredReg} {otherId : VarId}
    {otherVar : Variable} (located : Located typing Mine machine reg declared id var)
    (second : Located typing Mine machine other otherDeclared otherId otherVar)
    (same : declared.type.sameShape otherDeclared.type = true) :
    var.layout.shape.same otherVar.layout.shape = true :=
  Shape.same_of_sameShape (typing.shape located.admits located.type)
    (typing.shape second.admits second.type) same

/-- A variable without elements is one of the faults that remain. -/
theorem strays (located : Located typing Mine machine reg declared id var)
    (member : reg ∈ instruction.accesses) (empty : var.count = 0) :
    Strays module machine instruction (.indexOutOfRange reg 0 var.count) := by
  refine ⟨id, var, located.named, rfl, .inr ⟨member, rfl, empty, declared.type, ?_, ?_⟩⟩
  · unfold Module.regType?
    rw [located.spec]
    exact located.type
  · have admits := located.admits
    rw [empty] at admits
    exact typing.isDynamic_of_empty admits located.type

end Located

/-- A register that is resolved is declared, and so is its type. -/
theorem declaredReg_eq_ok {reg : RegId} {declared : DeclaredReg}
    (found : module.declaredReg reg = .ok declared) :
    module.reg? reg = some declared.spec ∧
      module.vtype? declared.spec.vtype = some declared.type := by
  obtain ⟨spec, isSpec, found⟩ := bind_eq_ok.mp found
  obtain ⟨type, isType, found⟩ := bind_eq_ok.mp found
  cases found
  exact ⟨orError_eq_ok.mp isSpec, orError_eq_ok.mp isType⟩

/-- **Registers name variables of their types.** -/
theorem Holds.sees_named (typed : machine.Typed typing Mine base) (sound : machine.store.Sound)
    {reg : RegId} {declared : DeclaredReg} (isDeclared : module.declaredReg reg = .ok declared) :
    Sees (Strays module machine instruction) (machine.named reg) fun named =>
      Located typing Mine machine reg declared named.1 named.2 := by
  obtain ⟨spec, type⟩ := declaredReg_eq_ok isDeclared
  rcases machine.named_cases reg with ⟨id, var, named, found, member⟩ | ⟨error, failed, null⟩
  · rw [named]
    obtain ⟨mine, -, admits⟩ := typed.frames member _ spec
    exact ⟨spec, type, named, found, mine, admits var found, sound.sized found,
      typed.store.slots mine found⟩
  · rw [failed]
    intro fault isFault
    rw [null fault isFault]
    trivial

/-- Our variables are revised, with references of the right types. -/
theorem Holds.keeps_updateVar (typed : machine.Typed typing Mine base) {strays : ExecFault → Prop}
    {id : VarId} {change : Variable → Variable} (mine : Mine id)
    (revises : ∀ var : Variable, var.Revises (change var) fun _ => True)
    (slots : ∀ var, machine.store.get? id = some var →
      (change var).SlotsHold (machine.store.Suits typing Mine)) :
    Keeps (Typed typing Mine base) strays machine (updateVar id change) := by
  have ages : machine.store.Ages (machine.store.modify id change) :=
    Store.ages_modify fun var _ => revises var
  refine keeps_ok rfl ⟨typed.store.modify mine ages slots, ?_⟩
  intro reg other member spec isSpec
  exact (typed.frames member spec isSpec).of_ages ages

/-- Bytes of our variables are written over. -/
theorem Holds.keeps_writeBytes (typed : machine.Typed typing Mine base) {strays : ExecFault → Prop}
    {id : VarId} (mine : Mine id) (element position : Nat) (bytes : Array UInt8) :
    Keeps (Typed typing Mine base) strays machine
      (updateVar id (·.writeBytes element position bytes)) :=
  typed.keeps_updateVar mine (fun var => var.revises_writeBytes element position bytes)
    fun _ found => (typed.store.slots mine found).writeBytes element position bytes

end

end Machine

end ScopeMachine
