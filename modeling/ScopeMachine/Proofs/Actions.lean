import ScopeMachine.Proofs.Refinement
import ScopeMachine.Proofs.Words

/-! # Actions that succeed

What the actions of a machine come to where registers name variables that have what is asked of
them.

* `Machine.withVar` is the machine after a change of one variable, and `readWord_apply`,
  `copyBytes_apply`, `storeElementAt_apply` and their like describe the actions that work on
  variables;
* `jumpWhen_taken` is about jumps;
* `openFresh_apply`, `loadRef_apply` and `storeRef_apply` are about what registers name. -/

namespace ScopeMachine

namespace Machine

/-! ### Variables that registers name -/

section
variable {machine : Machine} {reg dst src : RegId} {id target source : VarId} {var other : Variable}

/-- The machine after a change of one variable. -/
def withVar (machine : Machine) (id : VarId) (change : Variable → Variable) : Machine :=
  { machine with store := machine.store.modify id change }

/-- A look that finds something. -/
theorem inspect_eq_ok {α : Type} {look : Machine → Except Error α} {value : α}
    (found : look machine = .ok value) : inspect look machine = .ok value machine := by
  rw [inspect_apply, found]

/-- What follows a look that finds something. -/
theorem inspect_bind_eq {α β : Type} {look : Machine → Except Error α} (value : α)
    (found : look machine = .ok value) (next : α → Exec β) :
    (inspect look >>= next) machine = next value machine := by
  rw [bind_apply, inspect_eq_ok found]

/-- Reading the word in a variable. -/
theorem readWord_apply {word : Int64} (named : machine.named reg = .ok (id, var))
    (found : var.word? 0 = some word) : readWord reg machine = .ok word machine := by
  refine inspect_eq_ok ?_
  rw [named]
  exact orError_eq_ok.mpr found

/-- Writing the word in a variable. -/
theorem writeWord_apply (named : machine.named reg = .ok (id, var)) (has : var.hasWord 0 = true)
    (word : Int64) :
    writeWord reg word machine = .ok () (machine.withVar id (·.putWord 0 word)) := by
  refine (inspect_bind_eq id ?_ _).trans rfl
  rw [named]
  exact if_pos has

/-- Applying an operation to two words. -/
theorem arithmetic_apply {operation : Int64 → Int64 → Int64} {left right : RegId}
    {first second : Int64} {after : Machine} (reads : readWord left machine = .ok first machine)
    (readsSecond : readWord right machine = .ok second machine)
    (writes : writeWord dst (operation first second) machine = .ok () after) :
    arithmetic operation dst left right machine = .ok () after := by
  unfold arithmetic
  rw [bind_apply, reads]
  dsimp only
  rw [bind_apply, readsSecond]
  exact writes

/-- Storing a literal that fits into an element. -/
theorem storeLiteral_apply {literal : Array UInt8} (named : machine.named reg = .ok (id, var))
    (some : var.isEmpty = false) (fits : literal.size ≤ var.layout.elementBytes) :
    storeLiteral reg literal machine =
      .ok () (machine.withVar id (·.writeBytes 0 0 literal)) := by
  refine (inspect_bind_eq id ?_ _).trans rfl
  refine bind_eq_ok.mpr ⟨_, named, ?_⟩
  dsimp only
  rw [some, if_neg (Nat.not_lt.mpr fits)]
  rfl

/-- Copying the payload of one variable to another. -/
theorem copyBytes_apply (named : machine.named dst = .ok (target, var))
    (namedSource : machine.named src = .ok (source, other)) :
    copyBytes dst src machine = .ok () (machine.withVar target (·.copyPayload other.payload)) := by
  refine (inspect_bind_eq (target, other.payload) ?_ _).trans rfl
  rw [namedSource, named]
  rfl

/-- Copying an element of a variable. -/
theorem elementAt_eq {index : Nat} {element : Element} (named : machine.named reg = .ok (id, var))
    (found : var.element? index = some element) : elementAt reg index machine = .ok element := by
  unfold elementAt
  rw [named]
  exact orError_eq_ok.mpr found

/-- Storing an element that fits. -/
theorem storeElementAt_apply {index : Nat} {element : Element}
    (named : machine.named reg = .ok (id, var)) (fits : var.fits index element = true) :
    storeElementAt reg index element machine =
      .ok () (machine.withVar id (·.putElement index element)) := by
  refine (inspect_bind_eq id ?_ _).trans rfl
  rw [named]
  exact if_pos ⟨Int.natCast_nonneg index, fits⟩

/-- A jump that is taken. -/
theorem jumpWhen_taken {instruction : Instruction} {pc target : Nat}
    (leads : instruction.jumpTarget? pc = some target) (machine : Machine) :
    jumpWhen true instruction pc machine = .ok (.jump target) machine := by
  unfold jumpWhen
  rw [if_pos rfl, leads]
  rfl

/-- Loading bytes from within an element. -/
theorem loadBytes_apply {offset width : Nat} {bytes : Array UInt8}
    (named : machine.named dst = .ok (target, var))
    (namedSource : machine.named src = .ok (source, other))
    (found : other.bytes? 0 = some bytes) (isWidth : var.layout.elementBytes = width)
    (inside : offset + width ≤ bytes.size) (some : var.isEmpty = false) :
    loadBytes dst src offset machine = .ok () (machine.withVar target
      (·.writeBytes 0 0 (bytes.extract offset (offset + width)))) := by
  subst isWidth
  have isSize := Variable.size_bytes?_lt found
  have isEnd : Variable.partEnd offset var.layout.elementBytes =
      offset + var.layout.elementBytes := Variable.partEnd_eq (by omega)
  refine (inspect_bind_eq (target, bytes.extract offset (offset + var.layout.elementBytes))
    ?_ _).trans rfl
  refine bind_eq_ok.mpr ⟨_, named, bind_eq_ok.mpr ⟨_, namedSource, bind_eq_ok.mpr
    ⟨bytes, orError_eq_ok.mpr found, ?_⟩⟩⟩
  dsimp only
  rw [isEnd, if_neg (by omega), some]
  rfl

/-- Storing bytes within an element. -/
theorem storeBytes_apply {offset width : Nat} {bytes : Array UInt8}
    (named : machine.named dst = .ok (target, var))
    (namedSource : machine.named src = .ok (source, other))
    (found : other.bytes? 0 = some bytes) (isWidth : var.layout.elementBytes = width)
    (inside : offset + bytes.size ≤ width) (some : var.isEmpty = false) :
    storeBytes dst offset src machine =
      .ok () (machine.withVar target (·.writeBytes 0 offset bytes)) := by
  subst isWidth
  have isWord := var.layout.elementBytes_lt
  have isEnd : Variable.partEnd offset bytes.size = offset + bytes.size :=
    Variable.partEnd_eq (by omega)
  refine (inspect_bind_eq (target, bytes) ?_ _).trans rfl
  refine bind_eq_ok.mpr ⟨_, namedSource, bind_eq_ok.mpr ⟨bytes, orError_eq_ok.mpr found,
    bind_eq_ok.mpr ⟨_, named, ?_⟩⟩⟩
  dsimp only
  rw [some, if_neg Bool.false_ne_true, isEnd, if_neg (by omega)]
  rfl

end

/-! ### What registers name -/

section
variable {program : Program} {machine : Machine} {activation : Activation} {rest : List Activation}
  {reg dst src : RegId} {id : VarId} {var : Variable}

/-- Opening a scope with a fresh variable. -/
theorem openFresh_apply {slot : RegSlot} (top : machine.calls.activations = activation :: rest)
    (declared : program.reg reg = .ok slot) (has : machine.registers.Has reg) :
    openFresh program reg machine = .ok ()
      { machine with
        store := machine.store.insert slot.fresh
        registers := machine.registers.modifyFrames reg (some machine.store.next :: ·)
        calls := machine.calls.modifyTop (·.openScope reg) } := by
  let allocated : Machine := { machine with store := machine.store.insert slot.fresh }
  have topAllocated : allocated.calls.activations = activation :: rest := top
  refine (inspect_bind_eq slot declared _).trans ?_
  exact openScope_apply topAllocated has _

/-- Binding a register to what an owned slot refers to. -/
theorem loadRef_apply {slot : Nat} {old : Frame} {frames : List Frame}
    (named : machine.named src = .ok (id, var)) (some : var.isEmpty = false)
    (top : machine.registers.framesOf dst = old :: frames) :
    loadRef dst src slot machine = .ok ()
      { machine with
        registers := machine.registers.modifyFrames dst fun frames =>
          var.ownedRef? 0 slot :: frames.tail } := by
  refine (inspect_bind_eq (var.ownedRef? 0 slot) ?_ _).trans ?_
  · refine bind_eq_ok.mpr ⟨_, named, ?_⟩
    dsimp only
    rw [some]
    rfl
  · rw [discard_apply, onRegisters_eq_ok (Registers.rebind_apply top _)]

/-- Storing what a register names in an owned slot. -/
theorem storeRef_apply {slot : Nat} {referent : Frame} {frames : List Frame}
    (named : machine.named dst = .ok (id, var)) (has : (var.ownedIndex? 0 slot).isNone = false)
    (top : machine.registers.framesOf src = referent :: frames) :
    storeRef dst slot src machine =
      .ok () (machine.withVar id (·.putOwnedRef 0 slot referent)) := by
  have isTop : machine.registers.top src = .ok referent := by
    unfold RegisterFile.top
    rw [RegisterFile.frames_eq_ok (RegisterFile.has_of_framesOf_eq_cons top), top]
    rfl
  refine (inspect_bind_eq (id, referent) ?_ _).trans rfl
  refine bind_eq_ok.mpr ⟨_, isTop, bind_eq_ok.mpr ⟨_, named, ?_⟩⟩
  dsimp only
  rw [has]
  rfl

end

end Machine

end ScopeMachine
