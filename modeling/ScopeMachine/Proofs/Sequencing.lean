import ScopeMachine.Error

/-! # Computations in sequence

How computations that can fail are taken apart: what a sequence of two returns is what the second
returns on the value of the first.

* `bind_eq_ok`, `bind_eq_error` and `map_eq_ok` for results, `bind_apply` and `bind_apply_eq_ok`
  for actions on a state;
* `toOption_eq_some` and `exists_of_run'` for what has been evaluated to a value;
* `guarded_eq_ok` for what follows a demand, `orError_eq_ok` and `liftCodec_eq_ok` for the two ways
  in which results arise;
* `mapM_eq_ok` and `forM_eq_ok` for computations over a list;
* `forM_stages` and `forM_keeps` for rows of actions that lead from stage to stage. -/

namespace ScopeMachine

/-! ### Results -/

/-- A sequence of two results succeeds if both do. -/
theorem bind_eq_ok {ε α β : Type} {first : Except ε α} {second : α → Except ε β} {result : β} :
    first >>= second = .ok result ↔ ∃ value, first = .ok value ∧ second value = .ok result := by
  cases first with
  | error error =>
      constructor
      · intro failed
        cases failed
      · rintro ⟨_, failed, _⟩
        cases failed
  | ok value =>
      constructor
      · intro succeeded
        exact ⟨value, rfl, succeeded⟩
      · rintro ⟨_, same, succeeded⟩
        cases same
        exact succeeded

/-- A sequence of two results fails if the first does, or the second on the value of the first. -/
theorem bind_eq_error {ε α β : Type} {first : Except ε α} {second : α → Except ε β} {error : ε} :
    first >>= second = .error error ↔
      first = .error error ∨ ∃ value, first = .ok value ∧ second value = .error error := by
  cases first with
  | error _ =>
      constructor
      · intro failed
        cases failed
        exact .inl rfl
      · rintro (failed | ⟨_, succeeded, -⟩)
        · cases failed
          rfl
        · cases succeeded
  | ok value =>
      constructor
      · intro failed
        exact .inr ⟨value, rfl, failed⟩
      · rintro (failed | ⟨_, same, failed⟩)
        · cases failed
        · cases same
          exact failed

/-- A result under a function succeeds if the result does. -/
theorem map_eq_ok {ε α β : Type} {change : α → β} {result : Except ε α} {value : β} :
    result.map change = .ok value ↔ ∃ old, result = .ok old ∧ value = change old := by
  cases result <;> simp [Except.map, eq_comm]

/-- What follows a demand succeeds if the demand is met. -/
theorem guarded_eq_ok {ε α : Type} {condition : Prop} [Decidable condition] {error : ε}
    {next : Unit → Except ε α} {value : α} :
    (if condition then throw error >>= next else next ()) = .ok value ↔
      ¬ condition ∧ next () = .ok value := by
  by_cases holds : condition
  · rw [if_pos holds]
    constructor
    · intro failed
      cases failed
    · rintro ⟨fails, -⟩
      exact absurd holds fails
  · rw [if_neg holds]
    exact ⟨fun done => ⟨holds, done⟩, fun done => done.2⟩

/-- An option becomes a result exactly if it holds a value. -/
@[simp] theorem orError_eq_ok {α : Type} {error : Error} {option : Option α} {value : α} :
    orError error option = .ok value ↔ option = some value := by
  cases option <;> simp [orError]

/-- A result that is there, without the error that might have been. -/
theorem toOption_eq_some {ε α : Type} {result : Except ε α} {value : α} :
    result.toOption = some value ↔ result = .ok value := by
  cases result <;> simp [Except.toOption]

/-- A result of the byte format is lifted with its value. -/
@[simp] theorem liftCodec_eq_ok {α : Type} {result : Except CodecError α} {value : α} :
    liftCodec result = .ok value ↔ result = .ok value := by
  cases result <;> simp [liftCodec]

/-- A list of results succeeds with as many values, each the value at its position. -/
theorem mapM_eq_ok {ε α β : Type} {compute : α → Except ε β} {items : List α} {values : List β}
    (computed : items.mapM compute = .ok values) :
    values.length = items.length ∧
      ∀ (index : Nat) (item : α), items[index]? = some item →
        ∃ value, values[index]? = some value ∧ compute item = .ok value := by
  induction items generalizing values with
  | nil =>
      rw [List.mapM_nil] at computed
      cases computed
      exact ⟨rfl, fun index item found => by cases found⟩
  | cons head items ih =>
      rw [List.mapM_cons] at computed
      obtain ⟨value, first, computed⟩ := bind_eq_ok.mp computed
      obtain ⟨rest, others, computed⟩ := bind_eq_ok.mp computed
      cases computed
      obtain ⟨sameLength, each⟩ := ih others
      refine ⟨by rw [List.length_cons, List.length_cons, sameLength], ?_⟩
      intro index item found
      cases index with
      | zero =>
          cases found
          exact ⟨value, rfl, first⟩
      | succ index => exact each index item found

/-- A list of results succeeds if each does. -/
theorem exists_mapM_eq_ok {ε α β : Type} {compute : α → Except ε β} {items : List α}
    (each : ∀ item ∈ items, ∃ value, compute item = .ok value) :
    ∃ values, items.mapM compute = .ok values := by
  induction items with
  | nil => exact ⟨[], rfl⟩
  | cons head items ih =>
      obtain ⟨value, first⟩ := each head List.mem_cons_self
      obtain ⟨values, others⟩ := ih fun item member => each item (List.mem_cons_of_mem _ member)
      refine ⟨value :: values, ?_⟩
      rw [List.mapM_cons, first, others]
      rfl

/-- A list of checks passes if each does. -/
theorem forM_eq_ok {ε α : Type} {check : α → Except ε Unit} {items : List α} :
    items.forM check = .ok () ↔ ∀ item ∈ items, check item = .ok () := by
  induction items with
  | nil =>
      constructor
      · intro _ item member
        cases member
      · intro _
        rfl
  | cons head items ih =>
      show (check head >>= fun _ => items.forM check) = .ok () ↔ _
      rw [bind_eq_ok, List.forall_mem_cons, ← ih]
      constructor
      · rintro ⟨_, first, others⟩
        exact ⟨first, others⟩
      · rintro ⟨first, others⟩
        exact ⟨(), first, others⟩

/-! ### Actions on a state -/

section
variable {ε σ α β : Type}

/-- A sequence of two actions runs the second on what the first leaves. -/
theorem bind_apply (first : EStateM ε σ α) (second : α → EStateM ε σ β) (state : σ) :
    (first >>= second) state =
      match first state with
      | .ok value middle => second value middle
      | .error error middle => .error error middle := by
  show EStateM.bind first second state = _
  unfold EStateM.bind
  cases first state <;> rfl

/-- What follows a look at the state runs on the state. -/
theorem get_bind_apply (second : σ → EStateM ε σ β) (state : σ) :
    ((get : EStateM ε σ σ) >>= second) state = second state state := rfl

/-- An action whose value does not matter. -/
theorem discard_apply (action : EStateM ε σ α) (state : σ) :
    discard action state =
      match action state with
      | .ok _ after => .ok () after
      | .error error after => .error error after := by
  show EStateM.map (fun _ => ()) action state = _
  unfold EStateM.map
  cases action state <;> rfl

/-- A handler runs on what a failure leaves. -/
theorem tryCatch_apply (action : EStateM ε σ α) (handler : ε → EStateM ε σ α) (state : σ) :
    (tryCatch action handler : EStateM ε σ α) state =
      match action state with
      | .ok value after => .ok value after
      | .error error after => handler error after := by
  show EStateM.tryCatch action handler state = _
  unfold EStateM.tryCatch
  cases action state <;> rfl

/-- A sequence of two actions succeeds if both do. -/
theorem bind_apply_eq_ok {first : EStateM ε σ α} {second : α → EStateM ε σ β} {state after : σ}
    {result : β} :
    (first >>= second) state = .ok result after ↔
      ∃ value middle, first state = .ok value middle ∧ second value middle = .ok result after := by
  rw [bind_apply]
  cases first state with
  | error error middle =>
      constructor
      · intro failed
        cases failed
      · rintro ⟨_, _, failed, _⟩
        cases failed
  | ok value middle =>
      constructor
      · intro succeeded
        exact ⟨value, middle, rfl, succeeded⟩
      · rintro ⟨_, _, same, succeeded⟩
        cases same
        exact succeeded

/-- A value that is there, without the state that comes with it. -/
theorem exists_of_run' {action : EStateM ε σ α} {state : σ} {value : α}
    (ran : action.run' state = some value) : ∃ after, action state = .ok value after := by
  unfold EStateM.run' EStateM.run at ran
  cases done : action state with
  | error _ _ =>
      rw [done] at ran
      cases ran
  | ok _ after =>
      rw [done] at ran
      cases ran
      exact ⟨after, rfl⟩

/-- A list of actions succeeds with as many values, each the value of the action at its position on
some state. -/
theorem mapM_apply_eq_ok {action : α → EStateM ε σ β} {items : List α} {values : List β}
    {state after : σ} (ran : items.mapM action state = .ok values after) :
    values.length = items.length ∧
      ∀ (index : Nat) (item : α), items[index]? = some item →
        ∃ value before later, values[index]? = some value ∧
          action item before = .ok value later := by
  induction items generalizing values state with
  | nil =>
      rw [List.mapM_nil] at ran
      cases ran
      exact ⟨rfl, fun index item found => by cases found⟩
  | cons head items ih =>
      rw [List.mapM_cons] at ran
      obtain ⟨value, middle, first, ran⟩ := bind_apply_eq_ok.mp ran
      obtain ⟨rest, last, others, ran⟩ := bind_apply_eq_ok.mp ran
      cases ran
      obtain ⟨sameLength, each⟩ := ih others
      refine ⟨by rw [List.length_cons, List.length_cons, sameLength], ?_⟩
      intro index item found
      cases index with
      | zero =>
          cases found
          exact ⟨value, state, middle, rfl, first⟩
      | succ index => exact each index item found

/-- A list of actions succeeds if each does on every state. -/
theorem exists_mapM_apply {action : α → EStateM ε σ β} {items : List α}
    (each : ∀ item ∈ items, ∀ state, ∃ value after, action item state = .ok value after)
    (state : σ) : ∃ values after, items.mapM action state = .ok values after := by
  induction items generalizing state with
  | nil => exact ⟨[], state, rfl⟩
  | cons head items ih =>
      obtain ⟨value, middle, first⟩ := each head List.mem_cons_self state
      obtain ⟨values, after, others⟩ :=
        ih (fun item member => each item (List.mem_cons_of_mem _ member)) middle
      refine ⟨value :: values, after, ?_⟩
      rw [List.mapM_cons, bind_apply, first]
      show ((items.mapM action) >>= fun rest => pure (value :: rest)) middle = _
      rw [bind_apply, others]
      rfl

/-- In a list of actions that succeeds, each has succeeded on some state. -/
theorem forM_apply_eq_ok {action : α → EStateM ε σ PUnit} {items : List α} {state after : σ}
    (ran : items.forM action state = .ok ⟨⟩ after) :
    ∀ item ∈ items, ∃ before later, action item before = .ok ⟨⟩ later := by
  induction items generalizing state with
  | nil =>
      intro item member
      cases member
  | cons head items ih =>
      have ran : (action head >>= fun _ => items.forM action) state = .ok ⟨⟩ after := ran
      obtain ⟨_, middle, first, others⟩ := bind_apply_eq_ok.mp ran
      intro item member
      rcases List.mem_cons.mp member with rfl | member
      · exact ⟨state, middle, first⟩
      · exact ih others item member

end

/-! ### Rows of actions -/

section
variable {ε σ α : Type}

/-- What follows a demand succeeds if the demand is met. -/
theorem guarded_apply_eq_ok {condition : Prop} [Decidable condition] {error : ε}
    {next : Unit → EStateM ε σ α} {state after : σ} {value : α} :
    (if condition then throw error >>= next else next ()) state = .ok value after ↔
      ¬ condition ∧ next () state = .ok value after := by
  by_cases holds : condition
  · rw [if_pos holds]
    constructor
    · intro failed
      cases failed
    · rintro ⟨fails, -⟩
      exact absurd holds fails
  · rw [if_neg holds]
    exact ⟨fun done => ⟨holds, done⟩, fun done => done.2⟩

/-- An action whose value does not matter succeeds if it does. -/
theorem discard_apply_eq_ok {action : EStateM ε σ α} {state after : σ} :
    discard action state = .ok ⟨⟩ after ↔ ∃ value, action state = .ok value after := by
  rw [discard_apply]
  cases action state <;> simp

variable {action : α → EStateM ε σ PUnit} {items : List α}

/-- A row of actions starts with the first. -/
theorem forM_cons_apply_eq_ok {item : α} {state after : σ} :
    (item :: items).forM action state = .ok ⟨⟩ after ↔
      ∃ middle, action item state = .ok ⟨⟩ middle ∧ items.forM action middle = .ok ⟨⟩ after := by
  show (action item >>= fun _ => items.forM action) state = .ok ⟨⟩ after ↔ _
  rw [bind_apply_eq_ok]
  constructor
  · rintro ⟨_, middle, first, others⟩
    exact ⟨middle, first, others⟩
  · rintro ⟨middle, first, others⟩
    exact ⟨⟨⟩, middle, first, others⟩

/-- **A row of actions leads from stage to stage**, and succeeds if each action is admitted at its
stage. -/
theorem forM_stages (stage : Nat → σ) (admits : Nat → α → Prop) (after : σ)
    (step : ∀ (index : Nat) (item : α), items[index]? = some item → ∀ next,
      action item (stage index) = .ok ⟨⟩ next ↔ admits index item ∧ next = stage (index + 1)) :
    items.forM action (stage 0) = .ok ⟨⟩ after ↔
      (∀ (index : Nat) (item : α), items[index]? = some item → admits index item) ∧
        after = stage items.length := by
  induction items generalizing stage admits with
  | nil =>
      show EStateM.Result.ok _ _ = _ ↔ _
      simp [eq_comm]
  | cons head items ih =>
      -- the other actions start at the second stage
      have others : items.forM action (stage 1) = .ok ⟨⟩ after ↔
          (∀ (index : Nat) (item : α), items[index]? = some item → admits (index + 1) item) ∧
            after = stage (items.length + 1) :=
        ih (fun index => stage (index + 1)) (fun index => admits (index + 1))
          fun index item found => step (index + 1) item found
      simp only [forM_cons_apply_eq_ok, step 0 head rfl]
      constructor
      · rintro ⟨_, ⟨admitted, rfl⟩, ran⟩
        obtain ⟨each, same⟩ := others.mp ran
        refine ⟨?_, same⟩
        intro index item found
        cases index with
        | zero =>
            cases found
            exact admitted
        | succ index => exact each index item found
      · rintro ⟨each, same⟩
        refine ⟨stage 1, ⟨each 0 head rfl, rfl⟩, ?_⟩
        exact others.mpr ⟨fun index item found => each (index + 1) item found, same⟩

/-- What each action of a row leads to holds in the end. -/
theorem forM_keeps (holds : Nat → σ → Prop) {before after : σ}
    (step : ∀ (index : Nat) (item : α), items[index]? = some item → ∀ state next,
      holds index state → action item state = .ok ⟨⟩ next → holds (index + 1) next)
    (start : holds 0 before) (ran : items.forM action before = .ok ⟨⟩ after) :
    holds items.length after := by
  induction items generalizing before holds with
  | nil =>
      cases ran
      exact start
  | cons head items ih =>
      obtain ⟨middle, first, others⟩ := forM_cons_apply_eq_ok.mp ran
      have held := step 0 head rfl _ _ start first
      exact ih (fun index => holds (index + 1))
        (fun index item found => step (index + 1) item found) held others

end

end ScopeMachine
