import ScopeMachine.Proofs.Elements
import ScopeMachine.Proofs.Keeping

/-! # The footprint of an instruction

An instruction gets hold of variables through frames only, and of references through frames and
through the slots of the variables that they lead to. This holds of every program, checked or not.

* `Variable.Revises` describes the changes of a variable that keep its shape;
* `Machine.Offers` says which references are at hand;
* `Machine.Touches` says what an instruction that works on variables makes of a machine: at most one
  variable is revised, which is in a frame, and all references that are new to it were at hand;
* `Machine.touches_execute` says so of all these instructions, and
  `Machine.Allots.keeps_execute_of_touches` reduces an invariant of executions to this. -/

namespace ScopeMachine

/-! ### Revisions of a variable -/

/-- A variable has been changed without a change of its shape, and all references that are new have
some property. -/
structure Variable.Revises (old new : Variable) (Brings : VarId → Prop) : Prop where
  /-- The layout is kept. -/
  layout : new.layout = old.layout
  /-- The number of elements is kept. -/
  count : new.count = old.count
  /-- The arrays stay as long as the shape says. -/
  sized : old.Sized → new.Sized
  /-- New references have the property. -/
  owned : ∀ referent, some referent ∈ new.owned → some referent ∈ old.owned ∨ Brings referent

/-- New references may have a weaker property. -/
theorem Variable.Revises.mono {old new : Variable} {Brings More : VarId → Prop}
    (revises : old.Revises new Brings) (weakens : ∀ id, Brings id → More id) :
    old.Revises new More :=
  ⟨revises.layout, revises.count, revises.sized,
    fun referent member => (revises.owned referent member).imp_right (weakens referent)⟩

namespace Variable

variable {var : Variable} {Brings : VarId → Prop}

/-- Writing bytes. -/
theorem revises_writeBytes (var : Variable) (element position : Nat) (bytes : Array UInt8) :
    var.Revises (var.writeBytes element position bytes) Brings :=
  ⟨rfl, rfl, fun sized => sized.writeBytes element position bytes, fun _ member => .inl member⟩

/-- Copying bytes. -/
theorem revises_copyPayload (var : Variable) (bytes : Array UInt8) :
    var.Revises (var.copyPayload bytes) Brings :=
  ⟨rfl, rfl, fun sized => sized.copyPayload bytes, fun _ member => .inl member⟩

/-- Storing an element. -/
theorem revises_putElement (var : Variable) (index : Nat) {element : Element}
    (right : ∀ referent, some referent ∈ element.owned → Brings referent) :
    var.Revises (var.putElement index element) Brings := by
  refine ⟨rfl, rfl, fun sized => sized.putElement index element, ?_⟩
  intro referent member
  rcases Machine.mem_overwrite member with old | new
  · exact .inl old
  · exact .inr (right referent new)

/-- Storing a reference. -/
theorem revises_putOwnedRef (var : Variable) (element slot : Nat) {frame : Option VarId}
    (right : ∀ referent, frame = some referent → Brings referent) :
    var.Revises (var.putOwnedRef element slot frame) Brings := by
  refine ⟨rfl, rfl, fun sized => sized.putOwnedRef element slot frame, ?_⟩
  intro referent member
  rcases Array.mem_or_eq_of_mem_setIfInBounds member with old | new
  · exact .inl old
  · exact .inr (right referent new.symm)

/-- The references of an element are references of the variable. -/
theorem mem_owned_of_element? {index : Nat} {element : Element} {frame : Option VarId}
    (copied : var.element? index = some element) (member : frame ∈ element.owned) :
    frame ∈ var.owned := by
  obtain ⟨payload, -, rfl⟩ := Option.map_eq_some_iff.mp copied
  obtain ⟨offset, bound, same⟩ := Array.mem_extract_iff_getElem.mp member
  exact same ▸ Array.getElem_mem _

/-- What a slot refers to is a reference of the variable. -/
theorem mem_owned_of_ownedRef? {element slot : Nat} {referent : VarId}
    (found : var.ownedRef? element slot = some referent) : some referent ∈ var.owned := by
  obtain ⟨index, -, isThere⟩ := Option.bind_eq_some_iff.mp found
  exact Array.mem_of_getElem? (Option.join_eq_some_iff.mp isThere)

end Variable

namespace Machine

/-! ### What is at hand -/

/-- The references that a machine has at hand. -/
inductive Offers (machine : Machine) : VarId → Prop
  /-- Those in frames. -/
  | frame {reg : RegId} {id : VarId} (member : some id ∈ machine.registers.framesOf reg) :
      Offers machine id
  /-- Those in the slots of variables in frames. -/
  | slot {reg : RegId} {owner id : VarId} {var : Variable}
      (member : some owner ∈ machine.registers.framesOf reg)
      (found : machine.store.get? owner = some var) (held : some id ∈ var.owned) :
      Offers machine id

/-- What working on variables makes of a machine. -/
inductive Touches (machine : Machine) : Machine → Prop
  /-- Nothing changes. -/
  | nothing : Touches machine machine
  /-- A variable in a frame is revised, and gets no reference that was not at hand. -/
  | revises {reg : RegId} {id : VarId} {change : Variable → Variable}
      (member : some id ∈ machine.registers.framesOf reg)
      (revises : ∀ var : Variable, var.Revises (change var) machine.Offers) :
      Touches machine { machine with store := machine.store.modify id change }

section
variable {machine : Machine} {reg dst src : RegId}

/-- What a register names is in one of its frames and in the store, and the only fault of looking it
up is a null reference. -/
theorem named_cases (machine : Machine) (reg : RegId) :
    (∃ id var, machine.named reg = .ok (id, var) ∧ machine.store.get? id = some var ∧
      some id ∈ machine.registers.framesOf reg) ∨
    ∃ error, machine.named reg = .error error ∧
      ∀ fault, error = .execution fault → fault = .nullReference reg := by
  cases top : machine.registers.framesOf reg with
  | nil =>
      refine .inr ?_
      unfold Machine.named RegisterFile.get
      by_cases has : machine.registers.Has reg
      · rw [RegisterFile.frames_eq_ok has, top]
        exact ⟨_, rfl, by rintro fault ⟨⟩; rfl⟩
      · rw [RegisterFile.frames_eq_error has]
        exact ⟨_, rfl, by rintro fault ⟨⟩⟩
  | cons frame frames =>
      cases frame with
      | none => exact .inr ⟨_, named_eq_error top, by rintro fault ⟨⟩; rfl⟩
      | some id =>
          rw [named_eq top]
          cases found : machine.store.get? id with
          | none => exact .inr ⟨_, rfl, by rintro fault ⟨⟩; rfl⟩
          | some var => exact .inl ⟨id, var, rfl, found, List.mem_cons_self⟩

/-- What a register names. -/
theorem named_eq_ok {id : VarId} {var : Variable}
    (named : machine.named reg = .ok (id, var)) :
    machine.store.get? id = some var ∧ some id ∈ machine.registers.framesOf reg := by
  rcases machine.named_cases reg with ⟨other, otherVar, isNamed, found⟩ | ⟨error, failed, -⟩
  · rw [named] at isNamed
    cases isNamed
    exact found
  · rw [named] at failed
    cases failed

/-- What is in the top frame of a register is in a frame of it. -/
theorem mem_of_top {frame : Frame} {id : VarId}
    (isTop : machine.registers.top reg = .ok frame) (isId : frame = some id) :
    some id ∈ machine.registers.framesOf reg := by
  unfold RegisterFile.top at isTop
  by_cases has : machine.registers.Has reg
  · rw [RegisterFile.frames_eq_ok has] at isTop
    cases isTop
    exact List.mem_of_head? (Option.join_eq_some_iff.mp isId)
  · rw [RegisterFile.frames_eq_error has] at isTop
    cases isTop

/-- A variable is revised after a look that has found it in a frame. -/
theorem touches_look {α : Type} {look : Machine → Except Error α} {target : α → VarId}
    {change : α → Variable → Variable}
    (framed : ∀ value, look machine = .ok value →
      ∃ reg, some (target value) ∈ machine.registers.framesOf reg)
    (revises : ∀ value, look machine = .ok value → ∀ var : Variable,
      var.Revises (change value var) machine.Offers) :
    Keeps machine.Touches (fun _ => True) machine
      (inspect look >>= fun value => updateVar (target value) (change value)) := by
  refine keeps_look .nothing (fun _ _ => trivial) fun value found => ?_
  obtain ⟨reg, member⟩ := framed value found
  exact keeps_ok rfl (.revises member (revises value found))

/-- What a register names is in one of its frames. -/
theorem exists_frame_of_named {id : VarId} {var : Variable}
    (named : machine.named reg = .ok (id, var)) :
    ∃ reg, some id ∈ machine.registers.framesOf reg :=
  ⟨reg, (named_eq_ok named).2⟩

/-! ### Words and bytes -/

/-- Words are read. -/
theorem touches_readWord {α : Type} {next : Int64 → Exec α}
    (keeps : ∀ word, Keeps machine.Touches (fun _ => True) machine (next word)) :
    Keeps machine.Touches (fun _ => True) machine (readWord reg >>= next) :=
  keeps_look .nothing (fun _ _ => trivial) fun word _ => keeps word

/-- Words are written. -/
theorem touches_writeWord (machine : Machine) (reg : RegId) (word : Int64) :
    Keeps machine.Touches (fun _ => True) machine (writeWord reg word) := by
  refine touches_look ?_ fun _ _ var => var.revises_writeBytes 0 0 _
  intro id found
  obtain ⟨⟨target, var⟩, named, found⟩ := bind_eq_ok.mp found
  dsimp only at found
  split at found
  · cases found
    exact exists_frame_of_named named
  · cases found

/-- Words are combined. -/
theorem touches_arithmetic (machine : Machine) (operation : Int64 → Int64 → Int64)
    (dst left right : RegId) :
    Keeps machine.Touches (fun _ => True) machine (arithmetic operation dst left right) :=
  touches_readWord fun _ => touches_readWord fun _ => touches_writeWord machine dst _

/-- Words are compared. -/
theorem touches_compareWords (machine : Machine) (test : Int64 → Int64 → Bool)
    (left right : RegId) :
    Keeps machine.Touches (fun _ => True) machine (compareWords test left right) :=
  touches_readWord fun _ => touches_readWord fun _ => keeps_ok rfl .nothing

/-- Passing control on keeps every invariant. -/
theorem keeps_jumpWhen {holds : Machine → Prop} {strays : ExecFault → Prop} (kept : holds machine)
    (taken : Bool) (instruction : Instruction) (pc : Nat) :
    Keeps holds strays machine (jumpWhen taken instruction pc) := by
  unfold jumpWhen
  split
  · split
    · exact keeps_ok rfl kept
    · exact keeps_throw kept (by rintro fault ⟨⟩)
  · exact keeps_ok rfl kept

/-- Literals are stored. -/
theorem touches_storeLiteral (machine : Machine) (reg : RegId) (literal : Array UInt8) :
    Keeps machine.Touches (fun _ => True) machine (storeLiteral reg literal) := by
  refine touches_look ?_ fun _ _ var => var.revises_writeBytes 0 0 _
  intro id found
  obtain ⟨⟨target, var⟩, named, found⟩ := bind_eq_ok.mp found
  obtain ⟨-, found⟩ := guarded_eq_ok.mp found
  obtain ⟨-, found⟩ := guarded_eq_ok.mp found
  cases found
  exact exists_frame_of_named named

/-- Payloads are copied. -/
theorem touches_copyBytes (machine : Machine) (dst src : RegId) :
    Keeps machine.Touches (fun _ => True) machine (copyBytes dst src) := by
  refine touches_look ?_ fun _ _ var => var.revises_copyPayload _
  intro copy found
  obtain ⟨⟨source, sourceVar⟩, -, found⟩ := bind_eq_ok.mp found
  obtain ⟨⟨target, targetVar⟩, named, found⟩ := bind_eq_ok.mp found
  cases found
  exact exists_frame_of_named named

/-- Bytes are loaded. -/
theorem touches_loadBytes (machine : Machine) (dst src : RegId) (offset : Nat) :
    Keeps machine.Touches (fun _ => True) machine (loadBytes dst src offset) := by
  refine touches_look ?_ fun _ _ var => var.revises_writeBytes 0 0 _
  intro copy found
  obtain ⟨⟨target, targetVar⟩, named, found⟩ := bind_eq_ok.mp found
  obtain ⟨⟨source, sourceVar⟩, -, found⟩ := bind_eq_ok.mp found
  obtain ⟨bytes, -, found⟩ := bind_eq_ok.mp found
  obtain ⟨-, found⟩ := guarded_eq_ok.mp found
  obtain ⟨-, found⟩ := guarded_eq_ok.mp found
  cases found
  exact exists_frame_of_named named

/-- Bytes are stored. -/
theorem touches_storeBytes (machine : Machine) (dst : RegId) (offset : Nat) (src : RegId) :
    Keeps machine.Touches (fun _ => True) machine (storeBytes dst offset src) := by
  refine touches_look ?_ fun _ _ var => var.revises_writeBytes 0 offset _
  intro copy found
  obtain ⟨⟨source, sourceVar⟩, -, found⟩ := bind_eq_ok.mp found
  obtain ⟨bytes, -, found⟩ := bind_eq_ok.mp found
  obtain ⟨⟨target, targetVar⟩, named, found⟩ := bind_eq_ok.mp found
  obtain ⟨-, found⟩ := guarded_eq_ok.mp found
  obtain ⟨-, found⟩ := guarded_eq_ok.mp found
  cases found
  exact exists_frame_of_named named

/-! ### Elements and references -/

/-- The references of a copied element are at hand. -/
theorem offers_of_elementAt {index : Int} {element : Element}
    (copied : elementAt reg index machine = .ok element) {id : VarId}
    (held : some id ∈ element.owned) : machine.Offers id := by
  obtain ⟨⟨owner, var⟩, named, copied⟩ := bind_eq_ok.mp copied
  obtain ⟨position, -, isElement⟩ := Option.bind_eq_some_iff.mp (orError_eq_ok.mp copied)
  obtain ⟨found, member⟩ := named_eq_ok named
  exact .slot member found (Variable.mem_owned_of_element? isElement held)

/-- Elements are stored. -/
theorem touches_storeElementAt (reg : RegId) (index : Int) {element : Element}
    (offered : ∀ id, some id ∈ element.owned → machine.Offers id) :
    Keeps machine.Touches (fun _ => True) machine (storeElementAt reg index element) := by
  refine touches_look ?_ fun _ _ var => var.revises_putElement _ offered
  intro id found
  obtain ⟨⟨target, var⟩, named, found⟩ := bind_eq_ok.mp found
  dsimp only at found
  split at found
  · cases found
    exact exists_frame_of_named named
  · cases found

/-- References are stored. -/
theorem touches_storeRef (machine : Machine) (dst : RegId) (slot : Nat) (src : RegId) :
    Keeps machine.Touches (fun _ => True) machine (storeRef dst slot src) := by
  -- one look finds both the variable and the frame that is stored in it
  refine keeps_look .nothing (fun _ _ => trivial) fun value found => ?_
  obtain ⟨referent, isTop, found⟩ := bind_eq_ok.mp found
  obtain ⟨⟨target, owner⟩, named, found⟩ := bind_eq_ok.mp found
  obtain ⟨-, found⟩ := guarded_eq_ok.mp found
  cases found
  obtain ⟨reg, member⟩ := exists_frame_of_named named
  refine keeps_ok rfl (.revises member fun var => ?_)
  exact var.revises_putOwnedRef 0 slot fun id isFrame => .frame (mem_of_top isTop isFrame)

/-- What is loaded from a slot is at hand. -/
theorem offers_of_loadRef {slot : Nat} {id : VarId}
    (found : (do
      let (_, source) ← machine.named src
      if source.isEmpty then throw (missingElement src 0 source)
      return source.ownedRef? 0 slot : Except Error (Option VarId)) = .ok (some id)) :
    machine.Offers id := by
  obtain ⟨⟨owner, source⟩, named, found⟩ := bind_eq_ok.mp found
  obtain ⟨-, found⟩ := guarded_eq_ok.mp found
  obtain ⟨isThere, member⟩ := named_eq_ok named
  exact .slot member isThere (Variable.mem_owned_of_ownedRef? (Except.ok.inj found))

/-! ### Instructions -/

/-- **Instructions that work on variables** revise at most one, which is in a frame, with references
that are at hand. -/
theorem touches_execute (program : Program) {instruction : Instruction}
    (works : instruction.conduct = .works) (machine : Machine) (pc : Nat) :
    Keeps machine.Touches (fun _ => True) machine (execute program instruction pc) := by
  cases instruction with
  | inc reg | dec reg =>
      exact touches_readWord fun _ => (touches_writeWord machine reg _).bind_pure
  | add dst left right | sub dst left right | mul dst left right =>
      exact (touches_arithmetic machine _ dst left right).bind_pure
  | cpi1 dst literal | cpi2 dst literal | cpi4 dst literal | cpi8 dst literal =>
      exact (touches_storeLiteral machine dst _).bind_pure
  | jz reg offset | jnz reg offset | jgz reg offset | jngz reg offset =>
      exact touches_readWord fun _ => keeps_jumpWhen .nothing _ _ pc
  | jg left right offset | jng left right offset | je left right offset =>
      exact (touches_compareWords machine _ left right).bind fun taken _ _ touches =>
        keeps_jumpWhen touches taken _ pc
  | jmp offset => exact keeps_jumpWhen .nothing true _ pc
  | cpb dst src => exact (touches_copyBytes machine dst src).bind_pure
  | lde dst src position | ste dst position src =>
      refine touches_readWord fun _ => keeps_look .nothing (fun _ _ => trivial) ?_
      intro element copied
      refine (touches_storeElementAt dst _ ?_).bind_pure
      exact fun _ held => offers_of_elementAt copied held
  | ldb dst src offset => exact (touches_loadBytes machine dst src _).bind_pure
  | stb dst offset src => exact (touches_storeBytes machine dst _ src).bind_pure
  | str dst slot src => exact (touches_storeRef machine dst _ src).bind_pure
  | _ => cases works

/-- **What executions keep.** An invariant of store and frames is kept by every instruction if
revisions keep it, and if it allows all references at hand to be in frames. -/
theorem Allots.keeps_execute_of_touches {stored : Store → Prop}
    {framed : Store → RegId → VarId → Prop} {program : Program}
    (allots : Allots stored framed program) (kept : machine.Holds stored framed)
    (touches : ∀ after, machine.Touches after → after.Holds stored framed)
    (offers : ∀ reg id, machine.Offers id → framed machine.store reg id)
    (instruction : Instruction) (pc : Nat) :
    Keeps (Holds stored framed) (fun _ => True) machine (execute program instruction pc) := by
  refine allots.keeps_execute kept instruction pc ?_ ?_ ?_
  · intro works
    have touched := touches_execute program works machine pc
    cases done : execute program instruction pc machine with
    | ok outcome after => exact keeps_ok done (touches after (touched.of_ok done))
    | error error after =>
        exact keeps_error done (touches after (touched.of_error done).1) fun _ _ => trivial
  · intro dst src slot _
    refine keeps_look kept (fun _ _ => trivial) fun referent found => ?_
    refine (keeps_rebind kept ?_).discard
    rintro id rfl
    exact offers dst id (offers_of_loadRef found)
  · intro _
    exact keeps_look kept (fun _ _ => trivial) fun word _ =>
      keeps_error rfl kept fun _ _ => trivial

end

end Machine

end ScopeMachine
