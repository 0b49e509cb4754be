import ScopeMachine.Proofs.Faults

/-! # Calls are confined to what they can reach

A call gets at variables through its argument and through the persistent registers of its program,
and from there on through owned slots. It may rewire all these as it likes, and make new variables
and wire them in. It never comes by a reference to any other variable, so the others stay as they
are. This holds of every program, checked or not, and however the call ends.

* `Store.Confined` says that only some variables have changed since some time, and that these refer
  only to each other;
* `Machine.confined_execute` says that every instruction keeps it so, and
  `Machine.confined_of_invoke` that every call does;
* `Host.ask_call_cases` says what a call makes of the store of a host, and `call_confined` what this
  means for its variables. -/

namespace ScopeMachine

/-! ### Stores -/

namespace Store

/-- Only our variables have changed since some time, and they refer only to ours. -/
structure Confined (Mine : VarId → Prop) (base store : Store) : Prop where
  /-- Our variables refer only to ours. -/
  closed : ∀ {owner id : VarId} {var : Variable}, Mine owner → store.get? owner = some var →
    some id ∈ var.owned → Mine id
  /-- Variables to come are ours. -/
  fresh : ∀ {id : VarId}, store.next ≤ id → Mine id
  /-- No other variable has changed. -/
  others : ∀ {id : VarId}, ¬ Mine id → store.get? id = base.get? id
  /-- Variables stay, with their shapes. -/
  shapes : base.KeepsShapes store

/-- What is reached refers only to what is reached. -/
theorem confined_mine (store : Store) (roots : List VarId) :
    Confined (store.Mine roots) store store := by
  refine ⟨?_, fun unused => .inr unused, fun _ => rfl, KeepsShapes.refl store⟩
  rintro owner id var (reaches | unused) found member
  · exact .inl (.slot reaches found member)
  · exact absurd (Slots.lt_next_of_get? found) (Nat.not_lt_of_le unused)

/-- Variables to come are not there yet. -/
theorem confined_fresh (store : Store) : Confined (store.next ≤ ·) store store := by
  refine ⟨?_, fun unused => unused, fun _ => rfl, KeepsShapes.refl store⟩
  intro owner id var unused found
  exact absurd (Slots.lt_next_of_get? found) (Nat.not_lt_of_le unused)

/-- Revising a variable keeps the shapes. -/
theorem keepsShapes_modify {store : Store} {id : VarId} {change : Variable → Variable}
    {Brings : VarId → Prop} (revises : ∀ var : Variable, var.Revises (change var) Brings) :
    store.KeepsShapes (store.modify id change) := by
  intro other var found
  rw [Slots.get?_modify]
  split
  · exact ⟨change var, by rw [found]; rfl, (revises var).layout, (revises var).count⟩
  · exact ⟨var, found, rfl, rfl⟩

section
variable {Mine : VarId → Prop} {base store : Store}

/-- One of our variables is revised, and gets references to ours only. -/
theorem Confined.modify (confined : Confined Mine base store) {id : VarId}
    {change : Variable → Variable} (mine : Mine id)
    (revises : ∀ var : Variable, var.Revises (change var) Mine) :
    Confined Mine base (store.modify id change) where
  closed := by
    intro owner referent var isMine found member
    rcases get?_modify_eq_some found with ⟨old, rfl, isOld, rfl⟩ | ⟨-, isThere⟩
    · rcases (revises old).owned referent member with before | brought
      · exact confined.closed isMine isOld before
      · exact brought
    · exact confined.closed isMine isThere member
  fresh := by
    intro other unused
    rw [Slots.next_modify] at unused
    exact confined.fresh unused
  others := by
    intro other foreign
    have differs : other ≠ id := by
      rintro rfl
      exact foreign mine
    rw [Slots.get?_modify, if_neg differs]
    exact confined.others foreign
  shapes := KeepsShapes.trans confined.shapes (keepsShapes_modify revises)

/-- A variable enters without references. -/
theorem Confined.insert (confined : Confined Mine base store) {var : Variable}
    (bare : ∀ referent, some referent ∉ var.owned) : Confined Mine base (store.insert var) where
  closed := by
    intro owner id other isMine found member
    rw [Slots.get?_insert] at found
    split at found
    · cases found
      exact absurd member (bare id)
    · exact confined.closed isMine found member
  fresh := by
    intro id unused
    rw [Slots.next_insert] at unused
    exact confined.fresh (Nat.le_of_succ_le unused)
  others := by
    intro id foreign
    have known : id ≠ store.next := by
      rintro rfl
      exact foreign (confined.fresh (Nat.le_refl _))
    rw [Slots.get?_insert, if_neg known]
    exact confined.others foreign
  shapes := KeepsShapes.trans confined.shapes (keepsShapes_insert store var)

/-- Our variables keep their shapes, and the others stay as they are. -/
theorem Confined.exists_get? (confined : Confined Mine base store) {id : VarId} {var : Variable}
    (found : base.get? id = some var) :
    ∃ changed, store.get? id = some changed ∧ changed.layout = var.layout ∧
      changed.count = var.count ∧ (changed = var ∨ Mine id) := by
  obtain ⟨changed, isChanged, layout, count⟩ := confined.shapes found
  refine ⟨changed, isChanged, layout, count, ?_⟩
  by_cases mine : Mine id
  · exact .inr mine
  · refine .inl (Option.some.inj ?_)
    rw [← isChanged, confined.others mine, found]

end

end Store

/-! ### Machines -/

namespace Machine

/-- A machine over a store in which only our variables have changed, whose frames lead to ours. -/
abbrev Confined (Mine : VarId → Prop) (base : Store) : Machine → Prop :=
  Holds (Store.Confined Mine base) fun _ _ id => Mine id

section
variable {Mine : VarId → Prop} {base : Store} {machine : Machine} {program : Program}

/-- Variables can be allocated, and some frames may lead to variables that are not ours, as long as
no instruction is carried out. -/
theorem allots_confined {framed : VarId → Prop} (mine : ∀ id, Mine id → framed id)
    (persistents : ∀ id ∈ program.persistents, framed id) :
    Allots (Store.Confined Mine base) (fun _ _ id => framed id) program where
  fresh := by
    intro store reg slot confined _
    exact ⟨confined.insert slot.bare_fresh, mine _ (confined.fresh (Nat.le_refl _)),
      fun _ _ isFramed => isFramed⟩
  persistent := by
    intro store reg slot id _ found persistent
    refine persistents id (List.mem_filterMap.mpr ⟨slot, ?_, persistent⟩)
    exact Array.mem_toList_iff.mpr (Array.mem_of_getElem? found)

/-- **Every instruction stays with our variables**, whatever the operands are. -/
theorem confined_execute (persistents : ∀ id ∈ program.persistents, Mine id)
    (confined : machine.Confined Mine base) (instruction : Instruction) (pc : Nat) :
    Keeps (Confined Mine base) (fun _ => True) machine (execute program instruction pc) := by
  -- references at hand are ours: those in frames are, and those in slots of our variables
  have offered : ∀ id, machine.Offers id → Mine id := by
    rintro id (⟨member⟩ | ⟨member, found, held⟩)
    · exact confined.frames member
    · exact confined.store.closed (confined.frames member) found held
  refine (allots_confined (fun _ mine => mine) persistents).keeps_execute_of_touches confined ?_
    (fun _ => offered) instruction pc
  rintro after (_ | ⟨member, revises⟩)
  · exact confined
  · refine ⟨confined.store.modify (confined.frames member) ?_, confined.frames⟩
    exact fun var => (revises var).mono offered

/-- **Every call stays with our variables**, if the argument and the storage of persistent registers
are ours. -/
theorem confined_of_invoke {proc : ProcId} {io : VarId} {store : Store}
    (start : Store.Confined Mine store store) (persistents : ∀ id ∈ program.persistents, Mine id)
    (mine : Mine io) (steps : Nat) :
    (invoke program proc io steps store).1.Confined Mine store := by
  have each : ∀ machine : Machine, machine.Confined Mine store →
      Keeps (Confined Mine store) (fun _ => True) machine (step program) := by
    intro machine confined
    exact keeps_step confined program (fun _ => trivial) fun instruction pc _ =>
      confined_execute persistents confined instruction pc
  refine (keeps_invoke each (holds_idle program start) ?_ ?_ steps).1
  · intro entry _
    exact (allots_confined (fun _ mine => mine) persistents).keeps_prepare
      (holds_idle program start) fun _ _ => mine
  · intro machine confined
    exact keeps_enter confined program proc fun limit => ⟨limit, rfl⟩

/-- A call stays with what it can reach. -/
theorem confined_of_reaches (program : Program) (proc : ProcId) (io : VarId) (steps : Nat)
    (store : Store) : Store.Confined (store.Mine (io :: program.persistents)) store
      (invoke program proc io steps store).1.store := by
  refine (confined_of_invoke (store.confined_mine _) ?_ ?_ steps).store
  · exact fun id member => .inl (.root (List.mem_cons_of_mem _ member))
  · exact .inl (.root List.mem_cons_self)

end

end Machine

/-! ### Hosts -/

namespace Host

section
variable {host : Host} {module : Module} {program : Program}

/-- What a machine did is taken over, and what is not needed is let go. -/
theorem store_settle (host : Host) (machine : Machine) (completion : Machine.Completion) :
    (host.after (settle machine completion)).store = machine.store.reclaim host.roots := by
  cases completion <;> rfl

/-- What a call of a compiled module makes of the store. -/
theorem store_callModule {key : Nat} {id : ModuleId}
    (isStage : host.stage key id = .compiled module program) {proc : ProcId} {io : VarId}
    {steps : Nat} (isEntry : (program.entryPoint? proc).isNone = false) :
    (host.after (callModule key id proc io steps)).store =
      (Machine.invoke program proc io steps host.store).1.store.reclaim host.roots := by
  have invoked : (host.after (invokeProgram program proc io steps)).store =
      (Machine.invoke program proc io steps host.store).1.store.reclaim host.roots :=
    store_settle { host with store := Slots.empty } _ _
  rw [after_congr (callModule_apply isStage proc io steps), isEntry, if_neg (by decide)]
  rw [after] at invoked
  cases ran : invokeProgram program proc io steps host with
  | ok value middle =>
      rw [ran] at invoked
      rw [after_tryCatch_ok ran]
      exact invoked
  | error error middle =>
      rw [ran] at invoked
      rw [after_tryCatch_error ran]
      cases error <;> exact invoked

/-- A module without an executable form cannot be called. -/
theorem exists_callModule_error {key : Nat} {id : ModuleId}
    (none : (host.stage key id).program? = none) (proc : ProcId) (io : VarId) (steps : Nat) :
    ∃ error, error.kind ≠ .execution ∧
      callModule key id proc io steps host = .error error host := by
  unfold callModule
  rw [get_bind_apply]
  cases isStage : host.stage key id with
  | structural _ | destroyed => exact ⟨_, by simp [Error.kind], rfl⟩
  | compiled _ _ =>
      rw [isStage] at none
      cases none

/-- **What a call makes of the store.** It is refused with an error that is not of an execution, and
nothing changes; or the program runs, its store is taken over, and what is not needed is let go. -/
theorem ask_call_cases {party : Party} {subject : ModuleRef}
    (speaks : host.subject? party = some subject) (proc : ProcId) (io : VarId) (steps : Nat) :
    ((∃ error, error.kind ≠ .execution ∧
        host.outcome (ask party (.call proc io steps)) = .error error) ∧
      (host.after (ask party (.call proc io steps))).store = host.store) ∨
    ∃ program, (host.stage subject.registry subject.module).program? = some program ∧
      host.outcome (ask party (.call proc io steps)) =
        (Machine.invoke program proc io steps host.store).2.answer.map .status ∧
      (host.after (ask party (.call proc io steps))).store =
        (Machine.invoke program proc io steps host.store).1.store.reclaim host.roots := by
  rcases ask_cases (.call proc io steps) speaks (by simp) with
    ⟨error, kind, failed⟩ | ⟨middle, same, asks⟩
  · exact .inl ⟨⟨error, kind, outcome_error failed⟩, by rw [after_error failed]⟩
  · have ends : host.outcome (ask party (.call proc io steps)) =
        (middle.outcome (callModule subject.registry subject.module proc io steps)).map .status :=
      (outcome_congr asks).trans (outcome_bind_pure middle _ _)
    have leads : host.after (ask party (.call proc io steps)) =
        middle.after (callModule subject.registry subject.module proc io steps) :=
      (after_congr asks).trans (after_bind_pure middle _ _)
    rw [ends, leads, ← same.stage]
    cases isStage : middle.stage subject.registry subject.module with
    | structural _ | destroyed =>
        obtain ⟨error, kind, failed⟩ :=
          exists_callModule_error (by rw [isStage]; rfl) proc io steps
        refine .inl ⟨⟨error, kind, ?_⟩, ?_⟩
        · rw [outcome_error failed]
          rfl
        · rw [after_error failed]
          exact same.store
    | compiled module program =>
        rw [outcome_callModule isStage]
        cases isEntry : (program.entryPoint? proc).isNone with
        | true =>
            refine .inl ⟨⟨_, by simp [Error.kind], rfl⟩, ?_⟩
            rw [after_congr (callModule_apply isStage proc io steps), isEntry, ← same.store]
            rfl
        | false =>
            refine .inr ⟨program, rfl, ?_, ?_⟩
            · rw [if_neg (by decide), same.store]
            · rw [store_callModule isStage isEntry, same.store, same.roots]

/-- The storage of the persistent registers of a module, while it has an executable form. -/
def persistents (host : Host) (subject : ModuleRef) : List VarId :=
  ((host.stage subject.registry subject.module).program?.map Program.persistents).getD []

end

end Host

/-- What is reached from elsewhere is reached over variables that are not ours, and is not let
go. -/
theorem Store.Confined.get?_reclaim {Mine : VarId → Prop} {base store : Store}
    (confined : Store.Confined Mine base store) (closed : Store.Confined Mine base base)
    {roots : List VarId} {id : VarId} (reaches : base.Reaches roots id) (foreign : ¬ Mine id) :
    Slots.get? (store.reclaim roots) id = base.get? id := by
  rw [← confined.others foreign]
  refine Store.get?_reclaim (fun id => base.Reaches roots id ∧ ¬ Mine id) ?_ ⟨reaches, foreign⟩
  rintro id ⟨reaches, foreign⟩
  cases reaches with
  | root member => exact .inl member
  | @slot owner _ var reaches found member =>
      -- what leads to it is not ours either, since ours refer only to ours
      have isForeign : ¬ Mine owner := fun mine => foreign (closed.closed mine found member)
      refine .inr ⟨owner, var, ⟨reaches, isForeign⟩, ?_, member⟩
      rw [confined.others isForeign, found]

/-- **A call is confined to what it can reach.** Every variable is there during the call, with its
shape, and has changed only if it was reached from the argument or from a persistent register when
the call began. So it is afterwards, however the call has ended, and nothing has gone that the host
holds, or that it reaches apart from the call. -/
theorem call_confined {host : Host} {party : Party} {subject : ModuleRef}
    (speaks : host.subject? party = some subject) (proc : ProcId) (io : VarId) (steps : Nat)
    {id : VarId} {var : Variable} (found : host.store.get? id = some var) :
    (∀ program, (host.stage subject.registry subject.module).program? = some program →
      ∃ changed, (Machine.invoke program proc io steps host.store).1.store.get? id = some changed ∧
        changed.layout = var.layout ∧ changed.count = var.count ∧
        (changed = var ∨ host.store.Reaches (io :: host.persistents subject) id)) ∧
    (∀ changed,
      (host.after (Host.ask party (.call proc io steps))).store.get? id = some changed →
        changed.layout = var.layout ∧ changed.count = var.count ∧
        (changed = var ∨ host.store.Reaches (io :: host.persistents subject) id)) ∧
    (id ∈ host.roots →
      ((host.after (Host.ask party (.call proc io steps))).store.get? id).isSome = true) ∧
    (host.store.Reaches host.roots id → ¬ host.store.Reaches (io :: host.persistents subject) id →
      (host.after (Host.ask party (.call proc io steps))).store.get? id = some var) := by
  -- it is not one of the variables to come, which are the call's as well
  have known : ¬ host.store.next ≤ id := Nat.not_le_of_lt (Slots.lt_next_of_get? found)
  have confined : ∀ program, (host.stage subject.registry subject.module).program? = some program →
      Store.Confined (host.store.Mine (io :: host.persistents subject)) host.store
        (Machine.invoke program proc io steps host.store).1.store := by
    intro program isProgram
    unfold Host.persistents
    rw [isProgram]
    exact Machine.confined_of_reaches program proc io steps host.store
  have during : ∀ program, (host.stage subject.registry subject.module).program? = some program →
      ∃ changed, (Machine.invoke program proc io steps host.store).1.store.get? id = some changed ∧
        changed.layout = var.layout ∧ changed.count = var.count ∧
        (changed = var ∨ host.store.Reaches (io :: host.persistents subject) id) := by
    intro program isProgram
    obtain ⟨changed, isChanged, layout, count, same | reaches | unused⟩ :=
      (confined program isProgram).exists_get? found
    · exact ⟨changed, isChanged, layout, count, .inl same⟩
    · exact ⟨changed, isChanged, layout, count, .inr reaches⟩
    · exact absurd unused known
  refine ⟨during, ?_⟩
  rcases Host.ask_call_cases speaks proc io steps with ⟨-, same⟩ | ⟨program, isProgram, -, leads⟩
  · rw [same, found]
    refine ⟨?_, fun _ => rfl, fun _ _ => rfl⟩
    rintro _ ⟨⟩
    exact ⟨rfl, rfl, .inl rfl⟩
  · obtain ⟨changed, isChanged, keeps⟩ := during program isProgram
    have prunes := Store.prunes_reclaim
      (Machine.invoke program proc io steps host.store).1.store host.roots
    rw [leads]
    refine ⟨?_, ?_, ?_⟩
    · intro other isOther
      obtain rfl := Option.some.inj ((prunes.found isOther).symm.trans isChanged)
      exact keeps
    · intro member
      rw [prunes.kept member, isChanged]
      rfl
    · intro reaches foreign
      rw [(confined program isProgram).get?_reclaim (host.store.confined_mine _) reaches ?_, found]
      rintro (mine | unused)
      · exact foreign mine
      · exact known unused

/-- A courier that is given a crate keeps what is in it: its own packet changes, which a persistent
register holds. A word that lies by stays as it is. -/
theorem courier_confined : ∃ turns host old new word,
    advance (Samples.packing ++ [.newVariable 0 VarTypeId.word 1]) [] Host.empty =
      some (turns, host) ∧
    host.store.get? 0 = some old ∧
    (host.after (Host.ask (.handle 0) (.call Samples.entry 3 20))).store.get? 0 = some new ∧
    new ≠ old ∧ host.store.Reaches (3 :: host.persistents ⟨0, Samples.courier⟩) 0 ∧
    host.store.get? 6 = some word ∧
    (host.after (Host.ask (.handle 0) (.call Samples.entry 3 20))).store.get? 6 = some word := by
  have checks : (advance (Samples.packing ++ [.newVariable 0 VarTypeId.word 1]) []
      Host.empty).any fun result =>
      decide (result.2.subject? (.handle 0) = some ⟨0, Samples.courier⟩) &&
      decide (result.2.persistents ⟨0, Samples.courier⟩ = [0, 1, 2]) &&
      result.2.store.isClosed [3, 0, 1, 2, 4, 5] && decide (6 ∈ result.2.roots) &&
      (result.2.store.get? 6).isSome && (result.2.store.get? 0).any fun old =>
        ((result.2.after (Host.ask (.handle 0) (.call Samples.entry 3 20))).store.get? 0).any
          fun new => decide (new ≠ old) := by decide +kernel
  obtain ⟨⟨turns, host⟩, advanced, checks⟩ := (Option.any_eq_true _ _).mp checks
  simp only [Bool.and_eq_true, decide_eq_true_eq, Option.any_eq_true] at checks
  obtain ⟨⟨⟨⟨⟨speaks, persistents⟩, closed⟩, member⟩, known⟩, old, isOld, new, isNew, differs⟩ :=
    checks
  obtain ⟨word, isWord⟩ := Option.isSome_iff_exists.mp known
  refine ⟨turns, host, old, new, word, advanced, isOld, isNew, differs, ?_, isWord, ?_⟩
  · exact ((call_confined speaks Samples.entry 3 20 isOld).2.1 new isNew).2.2.resolve_left differs
  · refine (call_confined speaks Samples.entry 3 20 isWord).2.2.2 (.root member) ?_
    intro reaches
    rw [persistents] at reaches
    exact absurd (reaches.mem closed (by decide)) (by decide)

end ScopeMachine
