import ScopeMachine.Proofs.Invocation
import ScopeMachine.Proofs.Loading

/-! # Sorting

What `runSort` comes to in a host that offers the module of `quicksort`: the words in ascending
order, or the error of a call too many. Each part of the script leaves the host as the next one
needs it.

* `Ready` says what the host is like once the module is compiled;
* `Ready.exists_array` makes the array, `Ready.exists_setUp` the argument that refers to it;
* `Ready.call_returned` and `Ready.outcome_call` take what a call comes to over to the host;
* `runSort_sorts` puts the parts together. -/

namespace ScopeMachine

namespace Samples

/-! ### The module in a host -/

/-- A handle has been resolved, and its module is the compiled module of `quicksort`. -/
structure Ready (key : Nat) (handle : Handle) (depth : Nat) (host : Host) : Prop where
  /-- The handle has been resolved. -/
  resolved : host.handles.get? key = some { handle with resolved := true }
  /-- The module has been compiled. -/
  stage : host.stage handle.registry handle.module =
    .compiled (sortModule handle.module) (sortProgram handle.module depth)

section
variable {host after : Host} {key depth : Nat} {handle : Handle}

/-- The module is loaded. -/
theorem Ready.loaded (ready : Ready key handle depth host) :
    host.Loaded key handle (sortModule handle.module) (sortProgram handle.module depth) :=
  ⟨ready.resolved, ready.stage⟩

/-- **Unpacking** makes the host ready. -/
theorem Offers.exists_unpack (offers : Offers host handle (sortModule handle.module) depth)
    (found : host.handles.get? key = some handle) :
    ∃ after, Host.unpack key host = .ok () after ∧ Ready key handle depth after := by
  obtain ⟨after, unpacks, loaded⟩ :=
    offers.exists_loaded found fun store => compile_sortModule handle.module depth store
  exact ⟨after, unpacks, loaded.resolved, loaded.stage⟩

/-- Only the handles and the registries matter. -/
theorem Ready.of_same (ready : Ready key handle depth host)
    (handles : after.handles = host.handles) (registries : after.registries = host.registries) :
    Ready key handle depth after := by
  have loaded := ready.loaded.of_same handles registries
  exact ⟨loaded.resolved, loaded.stage⟩

/-! ### The array -/

/-- Words are stored behind those that have been stored before. -/
theorem exists_storeWords_from {var : Nat} {words done rest : List Int64}
    (sameLength : rest.length = words.length)
    (found : host.store.get? var = some (arrayVar (done ++ rest))) :
    ∃ store, (words.zipIdx done.length).forM (fun entry => Host.setWord var entry.2 entry.1) host =
        .ok () { host with store } ∧
      store.get? var = some (arrayVar (done ++ words)) := by
  -- a word moves from those to come to those stored, so both must be general
  induction words generalizing done rest host with
  | nil =>
      obtain rfl := List.eq_nil_of_length_eq_zero sameLength
      exact ⟨host.store, rfl, found⟩
  | cons word words ih =>
      obtain ⟨old, rest, rfl⟩ := List.exists_cons_of_length_eq_add_one sameLength
      have inside : done.length < (done ++ old :: rest).length := by simp
      obtain ⟨changed, sets, isChanged⟩ := exists_setWord holdsWords_array found inside word
      have foundChanged : changed.get? var = some (arrayVar ((done ++ [word]) ++ rest)) := by
        rw [isChanged]
        simp [arrayVar]
      obtain ⟨store, stores, last⟩ :=
        @ih { host with store := changed } _ _ (Nat.succ.inj sameLength) foundChanged
      rw [List.length_append] at stores
      rw [List.append_assoc] at last
      exact ⟨store, forM_cons_apply_eq_ok.mpr ⟨{ host with store := changed }, sets, stores⟩, last⟩

/-- **The array** is made, and holds the words. -/
theorem Ready.exists_array (ready : Ready key handle depth host) {words : List Int64}
    (fits : 8 * words.length < UInt32.size) :
    ∃ array made stored, Host.newVariable key arrayType words.length host = .ok array made ∧
      storeWords array words made = .ok () stored ∧ Ready key handle depth stored ∧
      array ∈ stored.held ∧ stored.store.get? array = some (arrayVar words) := by
  have makes := ready.loaded.newVariable rfl
    (rfl : arrayLayout.resolveCount words.length = .ok words.length)
    (show words.length * 8 < _ by omega)
  have found : (host.store.insert (Variable.zeroed arrayLayout words.length)).get?
      host.store.next = some (arrayVar (List.replicate words.length 0)) := by
    rw [Slots.get?_insert, if_pos rfl, Variable.zeroed_eq_ofWords holdsWords_array]
    rfl
  let made : Host :=
    { host with
      store := host.store.insert (Variable.zeroed arrayLayout words.length)
      held := host.store.next :: host.held }
  have foundMade : made.store.get? host.store.next =
      some (arrayVar ([] ++ List.replicate words.length 0)) := found
  obtain ⟨store, stores, isArray⟩ := exists_storeWords_from List.length_replicate foundMade
  exact ⟨_, made, _, makes, stores, ready.of_same rfl rfl, List.mem_cons_self, isArray⟩

/-! ### The argument -/

/-- All is set up for a call: the argument names the whole array. -/
structure SetUp (key : Nat) (handle : Handle) (depth array argument : Nat) (words : List Int64)
    (host : Host) : Prop where
  /-- The module can be called. -/
  ready : Ready key handle depth host
  /-- The argument names the whole array. -/
  isArgument : host.store.get? argument = some (argsVar (positions [] words) (some array))
  /-- The array holds the words. -/
  isArray : host.store.get? array = some (arrayVar words)
  /-- The array is held. -/
  held : array ∈ host.held

/-- Store the first and the last position in an argument. -/
def writePositions (words : List Int64) (var : Variable) : Except Error Variable :=
  .ok (if var.isEmpty then var
    else (var.writeBytes 0 0 (wordToBytes 0)).writeBytes 0 8
      (wordToBytes (Int64.ofInt ((words.length : Int) - 1))))

section
variable {array argument : Nat} {words : List Int64}

/-- The positions in a fresh argument. -/
theorem writePositions_fresh (words : List Int64) :
    writePositions words (argsVar [0, 0] none) = .ok (argsVar (positions [] words) none) := by
  have written : ((argsVar [0, 0] none).writeBytes 0 0 (wordToBytes 0)).writeBytes 0 8
      (wordToBytes (Int64.ofInt ((words.length : Int) - 1))) =
        argsVar (positions [] words) none := by
    rw [writeBytes_argsVar [0, 0] none 0, writeBytes_argsVar _ none 1]
    unfold positions
    rw [List.length_nil, Int.natCast_zero, Int.zero_add]
    rfl
  unfold writePositions
  rw [written]
  rfl

/-- The array is stored in the argument. -/
theorem exists_setOwnedRef {bounds : List Int64}
    (isArgument : host.store.get? argument = some (argsVar bounds none))
    (isArray : host.store.get? array = some (arrayVar words)) (differs : array ≠ argument)
    (heldArgument : argument ∈ host.held) (held : array ∈ host.held) :
    ∃ store, Host.setOwnedRef argument 0 0 (some array) host = .ok () { host with store } ∧
      store.get? argument = some (argsVar bounds (some array)) ∧
      store.get? array = some (arrayVar words) := by
  have stored : host.store.setOwnedRef argument 0 0 (some array) =
      .ok (host.store.modify argument (·.putOwnedRef 0 0 (some array))) := by
    unfold Store.setOwnedRef
    rw [isArgument]
    dsimp only
    rw [Option.bind_some, isArray]
    rfl
  let changed : Host :=
    { host with store := host.store.modify argument (·.putOwnedRef 0 0 (some array)) }
  have heldChanged : ∀ {var : Nat}, var ∈ host.held →
      (changed.store.reclaim changed.roots).get? var = changed.store.get? var :=
    fun held => Host.get?_reclaim held
  refine ⟨changed.store.reclaim changed.roots, ?_, ?_, ?_⟩
  · unfold Host.setOwnedRef
    rw [bind_apply, Host.inspect_eq_ok stored]
    rfl
  · rw [heldChanged heldArgument, Slots.get?_modify, if_pos rfl, isArgument]
    rfl
  · rw [heldChanged held, Slots.get?_modify, if_neg differs, isArray]

/-- **The argument** is made, and names the whole array. -/
theorem Ready.exists_setUp (ready : Ready key handle depth host) (held : array ∈ host.held)
    (isArray : host.store.get? array = some (arrayVar words)) :
    ∃ argument made written referring, Host.newVariable key argsType 0 host = .ok argument made ∧
      Host.changeVar argument (writePositions words) made = .ok () written ∧
      Host.setOwnedRef argument 0 0 (some array) written = .ok () referring ∧
      SetUp key handle depth array argument words referring := by
  have makes := ready.loaded.newVariable rfl (rfl : argsLayout.resolveCount 0 = .ok 1)
    (by decide)
  -- the argument takes an identity that has not been given out
  have differs : array ≠ host.store.next := Nat.ne_of_lt (Slots.lt_next_of_get? isArray)
  let made : Host :=
    { host with
      store := host.store.insert (Variable.zeroed argsLayout 1)
      held := host.store.next :: host.held }
  have isFresh : made.store.get? host.store.next = some (argsVar [0, 0] none) := by
    show (host.store.insert _).get? host.store.next = _
    rw [Slots.get?_insert, if_pos rfl]
    rfl
  let written : Host :=
    { made with
      store := made.store.modify host.store.next fun _ => argsVar (positions [] words) none }
  have writes : Host.changeVar host.store.next (writePositions words) made = .ok () written := by
    unfold Host.changeVar
    rw [get_bind_apply, isFresh]
    dsimp only
    rw [writePositions_fresh]
    rfl
  have isArgument : written.store.get? host.store.next =
      some (argsVar (positions [] words) none) := by
    show (made.store.modify host.store.next _).get? host.store.next = _
    rw [Slots.get?_modify, if_pos rfl, isFresh]
    rfl
  have isArrayWritten : written.store.get? array = some (arrayVar words) := by
    show ((host.store.insert _).modify host.store.next _).get? array = _
    rw [Slots.get?_modify, if_neg differs, Slots.get?_insert, if_neg differs, isArray]
  have heldWritten : array ∈ written.held := List.mem_cons_of_mem _ held
  obtain ⟨store, refers, isReferring, isArrayReferring⟩ :=
    exists_setOwnedRef isArgument isArrayWritten differs List.mem_cons_self heldWritten
  exact ⟨host.store.next, made, written, _, makes, writes, refers, ready.of_same rfl rfl,
    isReferring, isArrayReferring, heldWritten⟩

end

/-! ### The call -/

/-- How a call of the entry point ends. -/
theorem Ready.outcome_call (ready : Ready key handle depth host) (argument : VarId) (steps : Nat) :
    host.outcome (Host.call key entry argument steps) =
      (Machine.invoke (sortProgram handle.module depth) entry argument steps
        host.store).2.answer :=
  ready.loaded.outcome_call rfl argument steps

/-- A call that returns leaves in a variable that is held what the machine has left there. -/
theorem Ready.call_returned (ready : Ready key handle depth host) {argument var : VarId}
    {steps : Nat} {machine : Machine} (held : var ∈ host.held)
    (returns : Machine.invoke (sortProgram handle.module depth) entry argument steps host.store =
      (machine, .returned)) :
    ∃ after, Host.call key entry argument steps host = .ok .returned after ∧
      after.store.get? var = machine.store.get? var :=
  ready.loaded.call_returned rfl held returns

/-- The words of an array. -/
theorem loadWords_array {array : Nat} {words : List Int64}
    (found : host.store.get? array = some (arrayVar words)) :
    loadWords array host = .ok words host :=
  loadWords_ofWords holdsWords_array found

/-- The last part of the script: call the entry point, and load the words of the array. -/
def callAndLoad (key : Nat) (array argument : VarId) (steps : Nat) :
    HostM (Option (List Int64)) := do
  match ← Host.call key entry argument steps with
  | .unfinished => return none
  | .returned => return some (← loadWords array)

/-- The script ends as its last part does, with all set up for the call. -/
theorem exists_outcome_runSort (offers : Offers host handle (sortModule handle.module) depth)
    (found : host.handles.get? key = some handle) {words : List Int64}
    (fits : 8 * words.length < UInt32.size) :
    ∃ array argument last, SetUp key handle depth array argument words last ∧
      ∀ steps, host.outcome (runSort key words steps) =
        last.outcome (callAndLoad key array argument steps) := by
  obtain ⟨unpacked, unpacks, ready⟩ := offers.exists_unpack found
  obtain ⟨array, made, stored, makes, stores, readyStored, held, isArray⟩ :=
    ready.exists_array fits
  obtain ⟨argument, fresh, written, last, makesArgument, writes, refers, setUp⟩ :=
    readyStored.exists_setUp held isArray
  refine ⟨array, argument, last, setUp, fun steps => ?_⟩
  unfold writePositions at writes
  unfold runSort
  rw [Host.outcome_bind_ok unpacks, Host.outcome_bind_ok makes, Host.outcome_holding,
    Host.outcome_bind_ok stores, Host.outcome_bind_ok makesArgument, Host.outcome_holding]
  dsimp only
  rw [Host.outcome_bind_ok writes, Host.outcome_bind_ok refers]
  rfl

/-- **Quicksort sorts.** If a handle names a module that `quicksort` has built, in a registry that
allows `depth` nested calls, then every list of words whose bytes fit into a variable is sorted: the
script comes to an end, with the words in ascending order. It fails only if fewer nested calls are
allowed than there are words, or none at all, and then since there was a call too many. -/
theorem runSort_sorts {module : Module} {builder : Builder}
    (built : (quicksort >>= fun _ => Builder.finish handle.module) Builder.initial =
      .ok module builder)
    (names : host.handles.get? key = some handle) (offers : Offers host handle module depth)
    (words : List Int64) (fits : 8 * words.length < UInt32.size) :
    (∃ sorted, sorted.Perm words ∧ sorted.Pairwise (· ≤ ·) ∧ ∃ enough, ∀ steps, enough ≤ steps →
      host.outcome (runSort key words steps) = .ok (some sorted)) ∨
    (depth < max 1 words.length ∧ ∃ enough, ∀ steps, enough ≤ steps →
      host.outcome (runSort key words steps) =
        .error (.execution (.callDepthExceeded depth))) := by
  rw [(finish_quicksort_eq_ok.mp built).1] at offers
  obtain ⟨array, argument, last, setUp, ends⟩ := exists_outcome_runSort offers names fits
  have short : words.length ≤ 2 ^ 32 := by
    have : UInt32.size = 2 ^ 32 := rfl
    omega
  rcases invoke_cases handle.module depth setUp.isArgument setUp.isArray short with
    ⟨sorted, machine, ⟨enough, returns⟩, isSorted, perm, ordered⟩ | ⟨deep, machine, enough, fails⟩
  · refine .inl ⟨sorted, perm, ordered, enough, fun steps atLeast => ?_⟩
    obtain ⟨after, called, same⟩ := setUp.ready.call_returned setUp.held (returns steps atLeast)
    rw [ends, callAndLoad, Host.outcome_bind_ok called]
    dsimp only
    rw [Host.outcome_bind_ok (loadWords_array (same.trans isSorted))]
    rfl
  · refine .inr ⟨deep, enough, fun steps atLeast => ?_⟩
    rw [ends, callAndLoad]
    refine Host.outcome_bind_error ?_ _
    rw [setUp.ready.outcome_call, fails steps atLeast]
    rfl

end

/-- Register `quicksort` where three nested calls are allowed, and make a handle to it. -/
def stock : HostM Nat := do
  let registry ← Host.newRegistry (.interpreter 3)
  register registry quicksort ⟨7⟩
  Host.newHandle registry ⟨7⟩

/-- Three words are sorted with three nested calls. -/
theorem runSort_stock : ∃ key host, stock Host.empty = .ok key host ∧
    ∃ sorted : List Int64, sorted.Perm [3, -1, 2] ∧ sorted.Pairwise (· ≤ ·) ∧
      ∃ enough, ∀ steps, enough ≤ steps →
        host.outcome (runSort key [3, -1, 2] steps) = .ok (some sorted) := by
  have stocked : (match stock Host.empty with
      | .ok key host => decide (host.handles.get? key = some ⟨0, ⟨7⟩, false⟩ ∧
          (host.registry 0).backend = .interpreter 3 ∧ (host.registry 0).isDestroyed ⟨7⟩ = false ∧
          host.stage 0 ⟨7⟩ = .structural (sortModule ⟨7⟩))
      | .error _ _ => false) = true := by decide +kernel
  cases ran : stock Host.empty with
  | error error host =>
      rw [ran] at stocked
      cases stocked
  | ok key host =>
      rw [ran] at stocked
      obtain ⟨names, backend, living, isStage⟩ := of_decide_eq_true stocked
      refine ⟨key, host, rfl, ?_⟩
      rcases runSort_sorts (finish_quicksort_eq_ok.mpr ⟨rfl, rfl⟩) names
          ⟨backend, living, .inl isStage⟩ [3, -1, 2] (by decide) with sorted | ⟨deep, -⟩
      · exact sorted
      · exact absurd deep (by decide)

end Samples

end ScopeMachine
