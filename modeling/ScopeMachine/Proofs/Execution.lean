import ScopeMachine.Machine
import ScopeMachine.Proofs.Conduct
import ScopeMachine.Proofs.Frames

/-! # What instructions do to variables

Instructions that work on variables look at their operands first, and fail then or not at all. They
reach variables through the top frames of registers, so that the only way for one to miss its
variable is a null frame.

* `Machine.Resolved` says that every reference, in a frame or in a slot, leads to a variable;
* `Machine.Faults` lists how an instruction on given registers may fail;
* `Finds`, `ReadsAt` and `WorksAt` describe looks at a machine, actions that only look, and actions
  that then change a variable;
* `worksAt_execute` describes all instructions that work on variables only. -/

namespace ScopeMachine

/-! ### References that lead somewhere -/

/-- Every owned slot of a variable in the store is null or refers to a variable in the store. -/
def Store.Resolves (store : Store) : Prop :=
  ∀ {id referent : VarId} {var : Variable}, store.get? id = some var →
    some referent ∈ var.owned → (store.get? referent).isSome = true

/-- The variables of a store are still there, with the same shape. -/
def Store.KeepsShapes (before after : Store) : Prop :=
  ∀ {id : VarId} {var : Variable}, before.get? id = some var →
    ∃ changed, after.get? id = some changed ∧ changed.layout = var.layout ∧
      changed.count = var.count

/-- A store keeps the shapes of its own variables. -/
theorem Store.KeepsShapes.refl (store : Store) : store.KeepsShapes store := by
  intro id var found
  exact ⟨var, found, rfl, rfl⟩

/-- Shapes that are kept twice are kept. -/
theorem Store.KeepsShapes.trans {first second third : Store} (left : first.KeepsShapes second)
    (right : second.KeepsShapes third) : first.KeepsShapes third := by
  intro id var found
  obtain ⟨middle, foundMiddle, layout, count⟩ := left found
  obtain ⟨last, foundLast, layoutLast, countLast⟩ := right foundMiddle
  exact ⟨last, foundLast, layoutLast.trans layout, countLast.trans count⟩

/-- A variable that is there stays there. -/
theorem Store.KeepsShapes.isSome {before after : Store} (keeps : before.KeepsShapes after)
    {id : VarId} (found : (before.get? id).isSome = true) : (after.get? id).isSome = true := by
  obtain ⟨var, foundVar⟩ := Option.isSome_iff_exists.mp found
  obtain ⟨changed, foundChanged, -⟩ := keeps foundVar
  rw [foundChanged]
  rfl

/-- A variable that enters the store leaves the others as they are. -/
theorem Store.get?_insert_of_some {store : Store} {id : VarId} {var : Variable}
    (found : store.get? id = some var) (other : Variable) :
    Slots.get? (store.insert other) id = some var := by
  have known : id ≠ store.next := by
    rintro rfl
    rw [Slots.get?, Slots.next, Array.getElem?_eq_none (Nat.le_refl _)] at found
    cases found
  rw [Slots.get?_insert, if_neg known, found]

/-- Shapes are kept when a variable enters the store. -/
theorem Store.keepsShapes_insert (store : Store) (var : Variable) :
    store.KeepsShapes (store.insert var) := by
  intro id old found
  exact ⟨old, Store.get?_insert_of_some found var, rfl, rfl⟩

/-- References keep leading to variables when a variable enters that refers to nothing. -/
theorem Store.resolves_insert {store : Store} (resolves : store.Resolves) {var : Variable}
    (bare : ∀ referent, some referent ∉ var.owned) : Store.Resolves (store.insert var) := by
  intro id referent other found member
  rw [Slots.get?_insert] at found
  split at found
  · cases found
    exact absurd member (bare referent)
  · exact Store.KeepsShapes.isSome (Store.keepsShapes_insert store _) (resolves found member)

/-- A fresh variable refers to nothing. -/
theorem RegSlot.bare_fresh (slot : RegSlot) (referent : VarId) :
    some referent ∉ slot.fresh.owned := by
  intro member
  cases Array.eq_of_mem_replicate member

/-- A variable that has entered the store is there. -/
theorem Store.isSome_get?_insert (store : Store) (var : Variable) :
    (Slots.get? (store.insert var) store.next).isSome = true := by
  rw [Slots.get?_insert, if_pos rfl]
  rfl

/-- Control goes on within the procedure, to where an instruction leads. -/
def Outcome.Follows (instruction : Instruction) (position : Nat) : Outcome → Prop
  | next => instruction.isTerminator = false
  | jump target => instruction.jumpTarget? position = some target
  | call _ | ret => False

namespace Machine

/-- Every frame and every owned slot is null or leads to a variable in the store. -/
structure Resolved (machine : Machine) : Prop where
  /-- The frames lead to variables. -/
  frames : ∀ {reg : RegId} {id : VarId}, some id ∈ machine.registers.framesOf reg →
    (machine.store.get? id).isSome = true
  /-- The owned slots lead to variables. -/
  owned : machine.store.Resolves

/-- The top frame of a register is null, or its variable has left the store. -/
def IsNull (machine : Machine) (reg : RegId) : Prop :=
  (machine.registers.framesOf reg).head?.join.bind machine.store.get? = none

/-- Where all references lead to variables, only a null frame names none. -/
theorem IsNull.exists_cons {machine : Machine} {reg : RegId} (isNull : machine.IsNull reg)
    (resolved : machine.Resolved) (framed : machine.registers.framesOf reg ≠ []) :
    ∃ frames, machine.registers.framesOf reg = none :: frames := by
  obtain ⟨frame, frames, top⟩ := List.exists_cons_of_ne_nil framed
  cases frame with
  | none => exact ⟨frames, top⟩
  | some id =>
      have found := resolved.frames (top ▸ List.mem_cons_self : some id ∈ _)
      unfold IsNull at isNull
      rw [top] at isNull
      rw [show machine.store.get? id = none from isNull] at found
      cases found

/-- The error of an instruction on some registers is a fault of the execution, and if it is the
fault of a null reference, one of the registers names no variable. -/
def Faults (machine : Machine) (regs : List RegId) (error : Error) : Prop :=
  ∃ fault, error = .execution fault ∧
    ∀ reg, fault = .nullReference reg → reg ∈ regs ∧ machine.IsNull reg

/-- Every fault but that of a null reference may occur. -/
theorem faults_of_not_null {machine : Machine} {regs : List RegId} {fault : ExecFault}
    (notNull : ∀ reg, fault ≠ .nullReference reg) : machine.Faults regs (.execution fault) :=
  ⟨fault, rfl, fun reg isNull => absurd isNull (notNull reg)⟩

/-! ### Looking at a machine -/

section
variable {α β : Type} {machine : Machine} {regs : List RegId}

/-- A look at a machine has a result with some property, or is a fault. -/
def Finds (machine : Machine) (regs : List RegId) (result : Except Error α) (post : α → Prop) :
    Prop :=
  (∃ value, result = .ok value ∧ post value) ∨
    ∃ error, result = .error error ∧ machine.Faults regs error

/-- What is found is found. -/
theorem finds_ok {post : α → Prop} {value : α} (holds : post value) :
    Finds machine regs (.ok value) post := .inl ⟨value, rfl, holds⟩

/-- A fault other than a null reference. -/
theorem finds_fault {post : α → Prop} {fault : ExecFault}
    (notNull : ∀ reg, fault ≠ .nullReference reg) :
    Finds machine regs (.error (.execution fault)) post :=
  .inr ⟨_, rfl, faults_of_not_null notNull⟩

/-- An element that is not there is a fault. -/
theorem finds_missingElement {post : α → Prop} {reg : RegId} {index : Int} {var : Variable} :
    Finds machine regs (.error (missingElement reg index var)) post :=
  finds_fault (by intro other isNull; cases isNull)

/-- Bytes that are not there are a fault. -/
theorem finds_byteRange {post : α → Prop} {reg : RegId} {start stop size : Nat} :
    Finds machine regs (.error (.execution (.byteRange reg start stop size))) post :=
  finds_fault (by intro other isNull; cases isNull)

/-- One look after the other. -/
theorem Finds.bind {first : Except Error α} {second : α → Except Error β} {middle : α → Prop}
    {post : β → Prop} (found : Finds machine regs first middle)
    (next : ∀ value, middle value → Finds machine regs (second value) post) :
    Finds machine regs (first >>= second) post := by
  rcases found with ⟨value, rfl, holds⟩ | ⟨error, rfl, faults⟩
  · exact next value holds
  · exact .inr ⟨error, rfl, faults⟩

/-- Something that may be there, or else an element is missing. -/
theorem finds_orError {option : Option α} {reg : RegId} {index : Int} {var : Variable}
    {post : α → Prop} (holds : ∀ value, option = some value → post value) :
    Finds machine regs (orError (missingElement reg index var) option) post := by
  cases option with
  | none => exact finds_missingElement
  | some value => exact finds_ok (holds value rfl)

/-- What a register names if its top frame is not null. -/
theorem named_eq {reg : RegId} {id : VarId} {frames : List Frame}
    (top : machine.registers.framesOf reg = some id :: frames) :
    machine.named reg =
      match machine.store.get? id with
      | some var => .ok (id, var)
      | none => .error (.execution (.nullReference reg)) := by
  unfold named RegisterFile.get
  rw [RegisterFile.frames_eq_ok (RegisterFile.has_of_framesOf_eq_cons top), top]
  show (match machine.store.get? id with
    | some var => (pure (id, var) : Except Error (VarId × Variable))
    | none => throw (Error.execution (.nullReference reg))) = _
  cases machine.store.get? id <;> rfl

/-- A register whose top frame is null names nothing. -/
theorem named_eq_error {reg : RegId} {frames : List Frame}
    (top : machine.registers.framesOf reg = none :: frames) :
    machine.named reg = .error (.execution (.nullReference reg)) := by
  unfold named RegisterFile.get
  rw [RegisterFile.frames_eq_ok (RegisterFile.has_of_framesOf_eq_cons top), top]
  rfl

/-- The variable that a register with a frame names. -/
theorem finds_named {reg : RegId} (framed : machine.registers.framesOf reg ≠ [])
    (member : reg ∈ regs) :
    Finds machine regs (machine.named reg) fun named =>
      machine.store.get? named.1 = some named.2 ∧
        some named.1 ∈ machine.registers.framesOf reg := by
  -- a null frame and a frame whose variable is gone are reported alike
  have faults : machine.IsNull reg → machine.Faults regs (.execution (.nullReference reg)) := by
    intro isNull
    refine ⟨_, rfl, ?_⟩
    rintro other ⟨⟩
    exact ⟨member, isNull⟩
  obtain ⟨frame, frames, top⟩ := List.exists_cons_of_ne_nil framed
  cases frame with
  | none =>
      refine .inr ⟨_, named_eq_error top, faults ?_⟩
      rw [IsNull, top]
      rfl
  | some id =>
      rw [named_eq top]
      cases found : machine.store.get? id with
      | none =>
          refine .inr ⟨_, rfl, faults ?_⟩
          rw [IsNull, top]
          exact found
      | some var =>
          refine finds_ok ⟨found, ?_⟩
          rw [top]
          exact List.mem_cons_self

end

/-! ### Actions that look and then change a variable -/

/-- Two machines differ in their variables only, whose shapes are the same. -/
structure Works (before after : Machine) : Prop where
  /-- The registers are as before. -/
  registers : after.registers = before.registers
  /-- The activations are as before. -/
  calls : after.calls = before.calls
  /-- Nothing is reported. -/
  events : after.events = before.events
  /-- Variables keep their shapes. -/
  shapes : before.store.KeepsShapes after.store
  /-- References keep leading to variables. -/
  resolved : before.Resolved → after.Resolved

/-- Doing nothing. -/
theorem Works.refl (machine : Machine) : Works machine machine :=
  ⟨rfl, rfl, rfl, Store.KeepsShapes.refl _, id⟩

section
variable {α β : Type} {machine : Machine} {regs : List RegId}

/-- An action looks at a machine: it returns a value with some property or is a fault, and leaves
the machine as it is. -/
def ReadsAt (machine : Machine) (regs : List RegId) (action : Exec α) (post : α → Prop) : Prop :=
  (∃ value, action machine = .ok value machine ∧ post value) ∨
    ∃ error, action machine = .error error machine ∧ machine.Faults regs error

/-- An action works on variables: it changes variables and returns a value with some property, or
it is a fault and leaves the machine as it is. -/
def WorksAt (machine : Machine) (regs : List RegId) (action : Exec α) (post : α → Prop) : Prop :=
  (∃ value after, action machine = .ok value after ∧ Works machine after ∧ post value) ∨
    ∃ error, action machine = .error error machine ∧ machine.Faults regs error

/-- Returning a value changes nothing. -/
theorem readsAt_pure {post : α → Prop} {value : α} (holds : post value) :
    ReadsAt machine regs (pure value) post := .inl ⟨value, rfl, holds⟩

/-- A look leaves the machine as it is. -/
theorem inspect_apply (look : Machine → Except Error α) (machine : Machine) :
    inspect look machine =
      match look machine with
      | .ok value => .ok value machine
      | .error error => .error error machine := by
  unfold inspect
  rw [get_bind_apply]
  cases look machine <;> rfl

/-- A look becomes an action. -/
theorem readsAt_inspect {look : Machine → Except Error α} {post : α → Prop}
    (found : Finds machine regs (look machine) post) :
    ReadsAt machine regs (inspect look) post := by
  rcases found with ⟨value, same, holds⟩ | ⟨error, same, faults⟩
  · exact .inl ⟨value, by rw [inspect_apply, same], holds⟩
  · exact .inr ⟨error, by rw [inspect_apply, same], faults⟩

/-- Looking only is a kind of working. -/
theorem ReadsAt.worksAt {action : Exec α} {post : α → Prop}
    (reads : ReadsAt machine regs action post) : WorksAt machine regs action post := by
  rcases reads with ⟨value, same, holds⟩ | failed
  · exact .inl ⟨value, machine, same, Works.refl machine, holds⟩
  · exact .inr failed

/-- One look after the other. -/
theorem ReadsAt.bind {first : Exec α} {second : α → Exec β} {middle : α → Prop} {post : β → Prop}
    (reads : ReadsAt machine regs first middle)
    (next : ∀ value, middle value → ReadsAt machine regs (second value) post) :
    ReadsAt machine regs (first >>= second) post := by
  rcases reads with ⟨value, same, holds⟩ | ⟨error, same, faults⟩
  · unfold ReadsAt
    rw [bind_apply, same]
    exact next value holds
  · exact .inr ⟨error, by rw [bind_apply, same], faults⟩

/-- What follows a look runs on what was found. -/
theorem ReadsAt.cases {first : Exec α} {second : α → Exec β} {middle : α → Prop}
    (reads : ReadsAt machine regs first middle) :
    (∃ value, (first >>= second) machine = second value machine ∧ middle value) ∨
      ∃ error, (first >>= second) machine = .error error machine ∧ machine.Faults regs error := by
  rcases reads with ⟨value, same, holds⟩ | ⟨error, same, faults⟩
  · exact .inl ⟨value, by rw [bind_apply, same], holds⟩
  · exact .inr ⟨error, by rw [bind_apply, same], faults⟩

/-- A look before the work. -/
theorem ReadsAt.bind_worksAt {first : Exec α} {second : α → Exec β} {middle : α → Prop}
    {post : β → Prop} (reads : ReadsAt machine regs first middle)
    (next : ∀ value, middle value → WorksAt machine regs (second value) post) :
    WorksAt machine regs (first >>= second) post := by
  rcases reads with ⟨value, same, holds⟩ | ⟨error, same, faults⟩
  · unfold WorksAt
    rw [bind_apply, same]
    exact next value holds
  · exact .inr ⟨error, by rw [bind_apply, same], faults⟩

/-- A look with a known outcome before the work. -/
theorem worksAt_look {look : Machine → Except Error α} {second : α → Exec β} {post : β → Prop}
    (middle : α → Prop) (found : Finds machine regs (look machine) middle)
    (next : ∀ value, middle value → WorksAt machine regs (second value) post) :
    WorksAt machine regs (inspect look >>= second) post :=
  (readsAt_inspect found).bind_worksAt next

/-- A value after the work. -/
theorem WorksAt.bind_pure {action : Exec α} {middle : α → Prop} {post : β → Prop} {value : β}
    (works : WorksAt machine regs action middle) (holds : post value) :
    WorksAt machine regs (action >>= fun _ => pure value) post := by
  rcases works with ⟨result, after, same, changed, -⟩ | ⟨error, same, faults⟩
  · exact .inl ⟨value, after, by rw [bind_apply, same]; rfl, changed, holds⟩
  · exact .inr ⟨error, by rw [bind_apply, same], faults⟩

end

/-! ### Changes of a variable -/

/-- What is in an array that was written over was in it before or has been written. -/
theorem mem_overwrite {α : Type} {target values : Array α} {start : Nat} {value : α}
    (member : value ∈ overwrite target start values) : value ∈ target ∨ value ∈ values := by
  -- the fold carries the array together with the next place to write at, so both are generalized
  have each : ∀ (written : List α) (state : Array α × Nat),
      value ∈ (written.foldl (fun state value =>
        (state.1.setIfInBounds state.2 value, state.2 + 1)) state).1 →
      value ∈ state.1 ∨ value ∈ written := by
    intro written
    induction written with
    | nil => exact fun state member => .inl member
    | cons head written ih =>
        intro state member
        rcases ih _ member with earlier | later
        · rcases Array.mem_or_eq_of_mem_setIfInBounds earlier with old | rfl
          · exact .inl old
          · exact .inr List.mem_cons_self
        · exact .inr (List.mem_cons_of_mem _ later)
  unfold overwrite at member
  rw [← Array.foldl_toList] at member
  rcases each values.toList (target, start) member with old | new
  · exact .inl old
  · exact .inr (Array.mem_toList_iff.mp new)

/-- A change keeps the shape of a variable, and brings in only references that lead to variables. -/
structure Admits (machine : Machine) (change : Variable → Variable) : Prop where
  /-- The layout is kept. -/
  layout : ∀ var, (change var).layout = var.layout
  /-- The number of elements is kept. -/
  count : ∀ var, (change var).count = var.count
  /-- New references lead to variables. -/
  owned : ∀ var referent, some referent ∈ (change var).owned →
    some referent ∈ var.owned ∨ (machine.Resolved → (machine.store.get? referent).isSome = true)

section
variable {machine : Machine} {regs : List RegId} {change : Variable → Variable}

/-- A change of the payload only. -/
theorem admits_payload (write : Variable → Array UInt8) :
    Admits machine fun var => { var with payload := write var } :=
  ⟨fun _ => rfl, fun _ => rfl, fun _ _ member => .inl member⟩

/-- Storing an element whose references lead to variables. -/
theorem admits_putElement {element : Element} (index : Nat)
    (known : machine.Resolved → ∀ referent, some referent ∈ element.owned →
      (machine.store.get? referent).isSome = true) :
    Admits machine (·.putElement index element) := by
  refine ⟨fun _ => rfl, fun _ => rfl, ?_⟩
  intro var referent member
  rcases mem_overwrite member with old | new
  · exact .inl old
  · exact .inr fun resolved => known resolved referent new

/-- Storing a reference that leads to a variable. -/
theorem admits_putOwnedRef {frame : Frame} (element slot : Nat)
    (known : machine.Resolved → ∀ referent, frame = some referent →
      (machine.store.get? referent).isSome = true) :
    Admits machine (·.putOwnedRef element slot frame) := by
  refine ⟨fun _ => rfl, fun _ => rfl, ?_⟩
  intro var referent member
  rcases Array.mem_or_eq_of_mem_setIfInBounds member with old | new
  · exact .inl old
  · exact .inr fun resolved => known resolved referent new.symm

/-- A change of one variable. -/
theorem worksAt_updateVar (admits : Admits machine change) (id : VarId) :
    WorksAt machine regs (updateVar id change) fun _ => True := by
  refine .inl ⟨(), { machine with store := machine.store.modify id change }, rfl, ?_, trivial⟩
  have shapes : machine.store.KeepsShapes (machine.store.modify id change) := by
    intro other var found
    by_cases same : other = id
    · refine ⟨change var, ?_, admits.layout var, admits.count var⟩
      rw [Slots.get?_modify, if_pos same, found]
      rfl
    · exact ⟨var, by rw [Slots.get?_modify, if_neg same, found], rfl, rfl⟩
  refine ⟨rfl, rfl, rfl, shapes, ?_⟩
  intro resolved
  -- references are looked up in the old store: no variable goes away, by `shapes`
  refine ⟨fun member => shapes.isSome (resolved.frames member), ?_⟩
  intro other referent var found member
  apply shapes.isSome
  by_cases same : other = id
  · have found : (machine.store.modify id change).get? other = some var := found
    rw [Slots.get?_modify, if_pos same, Option.map_eq_some_iff] at found
    obtain ⟨old, foundOld, rfl⟩ := found
    rcases admits.owned old referent member with before | known
    · exact resolved.owned foundOld before
    · exact known resolved
  · have found : (machine.store.modify id change).get? other = some var := found
    rw [Slots.get?_modify, if_neg same] at found
    exact resolved.owned found member

end

/-! ### Words, literals and copies -/

section
variable {machine : Machine} {regs : List RegId} {dst src reg : RegId}

/-- Reading a word. -/
theorem readsAt_readWord (framed : machine.registers.framesOf reg ≠ []) (member : reg ∈ regs) :
    ReadsAt machine regs (readWord reg) fun _ => True := by
  refine readsAt_inspect ((finds_named framed member).bind ?_)
  rintro ⟨id, var⟩ -
  exact finds_orError fun _ _ => trivial

/-- Storing a word. -/
theorem worksAt_writeWord (framed : machine.registers.framesOf reg ≠ []) (member : reg ∈ regs)
    (word : Int64) : WorksAt machine regs (writeWord reg word) fun _ => True := by
  refine worksAt_look (fun _ => True) ((finds_named framed member).bind ?_)
    fun id _ => worksAt_updateVar (admits_payload _) id
  rintro ⟨id, var⟩ -
  dsimp only
  split
  · exact finds_ok trivial
  · exact finds_missingElement

/-- Storing a literal. -/
theorem worksAt_storeLiteral (framed : machine.registers.framesOf reg ≠ []) (member : reg ∈ regs)
    (literal : Array UInt8) : WorksAt machine regs (storeLiteral reg literal) fun _ => True := by
  refine worksAt_look (fun _ => True) ((finds_named framed member).bind ?_)
    fun id _ => worksAt_updateVar (admits_payload _) id
  rintro ⟨id, var⟩ -
  dsimp only
  split
  · exact finds_missingElement
  · split
    · exact finds_byteRange
    · exact finds_ok trivial

/-- Copying a payload. -/
theorem worksAt_copyBytes (framedDst : machine.registers.framesOf dst ≠ [])
    (framedSrc : machine.registers.framesOf src ≠ []) (memberDst : dst ∈ regs)
    (memberSrc : src ∈ regs) : WorksAt machine regs (copyBytes dst src) fun _ => True := by
  refine worksAt_look (fun _ => True) ((finds_named framedSrc memberSrc).bind ?_) ?_
  · rintro ⟨-, source⟩ -
    refine (finds_named framedDst memberDst).bind ?_
    rintro ⟨id, -⟩ -
    exact finds_ok trivial
  · rintro ⟨id, bytes⟩ -
    exact worksAt_updateVar (admits_payload _) id

/-! ### Elements -/

/-- A copy of an element has references that lead to variables. -/
theorem finds_elementAt (framed : machine.registers.framesOf reg ≠ []) (member : reg ∈ regs)
    (index : Int) :
    Finds machine regs (elementAt reg index machine) fun element =>
      machine.Resolved → ∀ referent, some referent ∈ element.owned →
        (machine.store.get? referent).isSome = true := by
  refine (finds_named framed member).bind ?_
  rintro ⟨id, var⟩ ⟨found, -⟩
  refine finds_orError ?_
  -- the references of a copy are a slice of those of the variable
  intro element copied resolved referent inElement
  obtain ⟨position, -, copied⟩ := Option.bind_eq_some_iff.mp copied
  unfold Variable.element? at copied
  obtain ⟨payload, -, rfl⟩ := Option.map_eq_some_iff.mp copied
  obtain ⟨offset, bound, same⟩ := Array.mem_extract_iff_getElem.mp inElement
  exact resolved.owned found (same ▸ Array.getElem_mem _)

/-- Storing a copied element. -/
theorem worksAt_storeElementAt (framed : machine.registers.framesOf reg ≠ []) (member : reg ∈ regs)
    (index : Int) {element : Element}
    (known : machine.Resolved → ∀ referent, some referent ∈ element.owned →
      (machine.store.get? referent).isSome = true) :
    WorksAt machine regs (storeElementAt reg index element) fun _ => True := by
  refine worksAt_look (fun _ => True) ((finds_named framed member).bind ?_)
    fun id _ => worksAt_updateVar (admits_putElement _ known) id
  rintro ⟨id, var⟩ -
  dsimp only
  split
  · exact finds_ok trivial
  · exact finds_missingElement

/-! ### Bytes and references within an element -/

/-- Loading bytes. -/
theorem worksAt_loadBytes (framedDst : machine.registers.framesOf dst ≠ [])
    (framedSrc : machine.registers.framesOf src ≠ []) (memberDst : dst ∈ regs)
    (memberSrc : src ∈ regs) (offset : Nat) :
    WorksAt machine regs (loadBytes dst src offset) fun _ => True := by
  refine worksAt_look (fun _ => True) ((finds_named framedDst memberDst).bind ?_) ?_
  · rintro ⟨id, target⟩ -
    refine (finds_named framedSrc memberSrc).bind ?_
    rintro ⟨-, source⟩ -
    refine Finds.bind (finds_orError fun _ _ => trivial) ?_
    rintro bytes -
    dsimp only
    split
    · exact finds_byteRange
    · split
      · exact finds_missingElement
      · exact finds_ok trivial
  · rintro ⟨id, bytes⟩ -
    exact worksAt_updateVar (admits_payload _) id

/-- Storing bytes. -/
theorem worksAt_storeBytes (framedDst : machine.registers.framesOf dst ≠ [])
    (framedSrc : machine.registers.framesOf src ≠ []) (memberDst : dst ∈ regs)
    (memberSrc : src ∈ regs) (offset : Nat) :
    WorksAt machine regs (storeBytes dst offset src) fun _ => True := by
  refine worksAt_look (fun _ => True) ((finds_named framedSrc memberSrc).bind ?_) ?_
  · rintro ⟨-, source⟩ -
    refine Finds.bind (finds_orError fun _ _ => trivial) ?_
    rintro bytes -
    refine (finds_named framedDst memberDst).bind ?_
    rintro ⟨id, target⟩ -
    dsimp only
    split
    · exact finds_missingElement
    · split
      · exact finds_byteRange
      · exact finds_ok trivial
  · rintro ⟨id, bytes⟩ -
    exact worksAt_updateVar (admits_payload _) id

/-- The top frame of a register that has one is found. -/
theorem finds_top (framed : machine.registers.framesOf reg ≠ []) :
    Finds machine regs (machine.registers.top reg) fun frame =>
      some frame = (machine.registers.framesOf reg).head? := by
  obtain ⟨frame, frames, top⟩ := List.exists_cons_of_ne_nil framed
  unfold RegisterFile.top
  rw [RegisterFile.frames_eq_ok (RegisterFile.has_of_framesOf_ne_nil framed), top]
  exact finds_ok rfl

/-- Storing a reference. -/
theorem worksAt_storeRef (framedDst : machine.registers.framesOf dst ≠ [])
    (framedSrc : machine.registers.framesOf src ≠ []) (memberDst : dst ∈ regs) (slot : Nat) :
    WorksAt machine regs (storeRef dst slot src) fun _ => True := by
  refine worksAt_look (fun value => value.2 ∈ machine.registers.framesOf src)
    ((finds_top framedSrc).bind ?_) ?_
  · intro frame isTop
    refine (finds_named framedDst memberDst).bind ?_
    rintro ⟨id, target⟩ -
    dsimp only
    split
    · exact finds_missingElement
    · exact finds_ok (List.mem_of_mem_head? isTop.symm)
  · -- the reference was in a frame, so it leads to a variable
    rintro ⟨id, frame⟩ member
    refine worksAt_updateVar (admits_putOwnedRef 0 slot ?_) id
    rintro resolved referent rfl
    exact resolved.frames member

end

/-! ### Instructions -/

section
variable {machine : Machine} {instruction : Instruction} {pc : Nat}

/-- A jump that lands is taken or not. -/
theorem readsAt_jumpWhen {regs : List RegId} (taken : Bool)
    (lands : ∃ target, instruction.jumpTarget? pc = some target)
    (falls : taken = false → instruction.isTerminator = false) :
    ReadsAt machine regs (jumpWhen taken instruction pc) (Outcome.Follows instruction pc) := by
  obtain ⟨target, found⟩ := lands
  unfold jumpWhen
  cases taken with
  | true =>
      rw [if_pos rfl, found]
      exact readsAt_pure found
  | false =>
      rw [if_neg (by decide)]
      exact readsAt_pure (falls rfl)

/-- Comparing words. -/
theorem readsAt_compareWords {regs : List RegId} {left right : RegId}
    (test : Int64 → Int64 → Bool) (framedLeft : machine.registers.framesOf left ≠ [])
    (framedRight : machine.registers.framesOf right ≠ []) (memberLeft : left ∈ regs)
    (memberRight : right ∈ regs) :
    ReadsAt machine regs (compareWords test left right) fun _ => True := by
  refine (readsAt_readWord framedLeft memberLeft).bind ?_
  intro first _
  refine (readsAt_readWord framedRight memberRight).bind ?_
  intro second _
  exact readsAt_pure trivial

/-- Arithmetic. -/
theorem worksAt_arithmetic {regs : List RegId} {dst left right : RegId}
    (operation : Int64 → Int64 → Int64)
    (framed : ∀ reg ∈ [dst, left, right], machine.registers.framesOf reg ≠ [])
    (members : ∀ reg ∈ [dst, left, right], reg ∈ regs) :
    WorksAt machine regs (arithmetic operation dst left right) fun _ => True := by
  refine (readsAt_readWord (framed left (by simp)) (members left (by simp))).bind_worksAt ?_
  intro first _
  refine (readsAt_readWord (framed right (by simp)) (members right (by simp))).bind_worksAt ?_
  intro second _
  exact worksAt_writeWord (framed dst (by simp)) (members dst (by simp)) _

/-- **Instructions that work on variables** change variables only, or fail with a fault and leave
the machine as it is. Their registers must have frames, and their jumps must land. -/
theorem worksAt_execute (program : Program) (works : instruction.conduct = .works)
    (framed : ∀ reg ∈ instruction.registers, machine.registers.framesOf reg ≠ [])
    (lands : instruction.isJump = true → ∃ target, instruction.jumpTarget? pc = some target) :
    WorksAt machine instruction.registers (execute program instruction pc)
      (Outcome.Follows instruction pc) := by
  cases instruction with
  | inc reg | dec reg =>
      have framed := framed reg List.mem_cons_self
      refine (readsAt_readWord framed List.mem_cons_self).bind_worksAt ?_
      intro word _
      exact (worksAt_writeWord framed List.mem_cons_self _).bind_pure rfl
  | add | sub | mul =>
      exact (worksAt_arithmetic _ framed fun _ member => member).bind_pure rfl
  | cpi1 reg | cpi2 reg | cpi4 reg | cpi8 reg =>
      have framed := framed reg List.mem_cons_self
      exact (worksAt_storeLiteral framed List.mem_cons_self _).bind_pure rfl
  | jz reg | jnz reg | jgz reg | jngz reg =>
      have framed := framed reg List.mem_cons_self
      refine ((readsAt_readWord framed List.mem_cons_self).bind ?_).worksAt
      intro word _
      exact readsAt_jumpWhen _ (lands rfl) fun _ => rfl
  | jg left right | jng left right | je left right =>
      have framedLeft := framed left List.mem_cons_self
      have framedRight := framed right (List.mem_cons_of_mem _ List.mem_cons_self)
      refine ((readsAt_compareWords _ framedLeft framedRight List.mem_cons_self
        (List.mem_cons_of_mem _ List.mem_cons_self)).bind ?_).worksAt
      intro taken _
      exact readsAt_jumpWhen _ (lands rfl) fun _ => rfl
  | jmp offset =>
      -- the one jump that never falls through
      exact (readsAt_jumpWhen true (lands rfl) fun never => by cases never).worksAt
  | cpb dst src =>
      have framedDst := framed dst List.mem_cons_self
      have framedSrc := framed src (List.mem_cons_of_mem _ List.mem_cons_self)
      exact (worksAt_copyBytes framedDst framedSrc List.mem_cons_self
        (List.mem_cons_of_mem _ List.mem_cons_self)).bind_pure rfl
  | lde dst src position =>
      have isDst : dst ∈ [dst, src, position] := by simp
      have isSrc : src ∈ [dst, src, position] := by simp
      have isPosition : position ∈ [dst, src, position] := by simp
      refine (readsAt_readWord (framed position isPosition) isPosition).bind_worksAt ?_
      intro index _
      -- `known` is what the load says of the element and what the store asks of it
      refine (readsAt_inspect (finds_elementAt (framed src isSrc) isSrc _)).bind_worksAt ?_
      intro element known
      exact (worksAt_storeElementAt (framed dst isDst) isDst 0 known).bind_pure rfl
  | ste dst position src =>
      have isDst : dst ∈ [dst, position, src] := by simp
      have isSrc : src ∈ [dst, position, src] := by simp
      have isPosition : position ∈ [dst, position, src] := by simp
      refine (readsAt_readWord (framed position isPosition) isPosition).bind_worksAt ?_
      intro index _
      refine (readsAt_inspect (finds_elementAt (framed src isSrc) isSrc _)).bind_worksAt ?_
      intro element known
      exact (worksAt_storeElementAt (framed dst isDst) isDst _ known).bind_pure rfl
  | ldb dst src offset =>
      have framedDst := framed dst List.mem_cons_self
      have framedSrc := framed src (List.mem_cons_of_mem _ List.mem_cons_self)
      exact (worksAt_loadBytes framedDst framedSrc List.mem_cons_self
        (List.mem_cons_of_mem _ List.mem_cons_self) _).bind_pure rfl
  | stb dst offset src =>
      have framedDst := framed dst List.mem_cons_self
      have framedSrc := framed src (List.mem_cons_of_mem _ List.mem_cons_self)
      exact (worksAt_storeBytes framedDst framedSrc List.mem_cons_self
        (List.mem_cons_of_mem _ List.mem_cons_self) _).bind_pure rfl
  | str dst slot src =>
      have framedDst := framed dst List.mem_cons_self
      have framedSrc := framed src (List.mem_cons_of_mem _ List.mem_cons_self)
      exact (worksAt_storeRef framedDst framedSrc List.mem_cons_self _).bind_pure rfl
  | _ => cases works

end

end Machine

end ScopeMachine
