import ScopeMachine.Proofs.Reliance
import ScopeMachine.Proofs.Verification

/-! # The tracker agrees with the verifier

While a procedure grows, its tracker sees a prefix of the code; the verifier sees all of it. What
the tracker knows lies on paths through the code, whatever is appended later, so that it never
objects to code that the verifier accepts.

* `Tracker.follow` checks and records a list of instructions;
* `Tracker.OnPaths` says that all scopes a tracker knows are brought by paths, and
  `Tracker.OnPaths.exists_follow` that such a tracker follows disciplined code to its end;
* `tracker_agrees` compares it with the verifier. -/

namespace ScopeMachine

/-! ### Following code -/

namespace Tracker

/-- Check an instruction at the next position and record it. -/
def extend (context : ScopeContext) (tracker : Tracker) (instruction : Instruction) :
    Except ScopeViolation Tracker :=
  (tracker.check context instruction).map tracker.apply

/-- Check and record instructions one after the other. -/
def follow (context : ScopeContext) (tracker : Tracker) (code : List Instruction) :
    Except ScopeViolation Tracker :=
  code.foldlM (extend context) tracker

section
variable {context : ScopeContext} {tracker after : Tracker} {instruction : Instruction}
  {code : List Instruction}

/-- An instruction is recorded if it passes the check. -/
theorem extend_eq_ok :
    tracker.extend context instruction = .ok after ↔
      ∃ update, tracker.check context instruction = .ok update ∧ after = tracker.apply update :=
  map_eq_ok

/-- The first instruction is recorded first. -/
theorem follow_cons : tracker.follow context (instruction :: code) =
    (tracker.extend context instruction >>= fun next => next.follow context code) :=
  List.foldlM_cons

/-- Code is followed part by part. -/
theorem follow_append (done rest : List Instruction) : tracker.follow context (done ++ rest) =
    (tracker.follow context done >>= fun middle => middle.follow context rest) :=
  List.foldlM_append

/-- A tracker counts the instructions that it has recorded. -/
theorem size_follow (followed : tracker.follow context code = .ok after) :
    after.size = tracker.size + code.length := by
  induction code generalizing tracker with
  | nil =>
      cases followed
      rfl
  | cons instruction code ih =>
      rw [follow_cons] at followed
      obtain ⟨next, extended, followed⟩ := bind_eq_ok.mp followed
      obtain ⟨update, -, rfl⟩ := extend_eq_ok.mp extended
      rw [ih followed, Builder.size_apply, List.length_cons]
      omega

/-- Contexts that agree on all instructions lead to the same tracker. -/
theorem follow_congr {left right : ScopeContext}
    (agree : ∀ instruction ∈ code, left.Agree right instruction) (tracker : Tracker) :
    tracker.follow left code = tracker.follow right code := by
  induction code generalizing tracker with
  | nil => rfl
  | cons instruction code ih =>
      have first := check_congr (agree instruction List.mem_cons_self) tracker
      have others := ih fun other member => agree other (List.mem_cons_of_mem _ member)
      simp only [follow_cons, extend, first, others]

end

/-! ### Scopes that lie on paths -/

/-- All scopes that a tracker knows are brought by paths through the code. -/
structure OnPaths (context : ScopeContext) (code : Array Instruction) (tracker : Tracker) :
    Prop where
  /-- Recorded entries are brought to their instruction. -/
  entries : ∀ {position : Nat} {scopes : Scopes}, tracker.entries[position]? = some (some scopes) →
    Reaches context code position scopes
  /-- Scopes that wait are brought to the target of their jump. -/
  pending : ∀ {target : Nat} {scopes : Scopes}, (target, scopes) ∈ tracker.pending →
    Reaches context code target scopes
  /-- Scopes that fall through are brought to the next position. -/
  fallthrough : ∀ {scopes : Scopes}, tracker.fallthrough = some scopes →
    Reaches context code tracker.size scopes

section
variable {context : ScopeContext} {code : Array Instruction} {tracker : Tracker}

/-- Before the first instruction only the empty path is known. -/
theorem onPaths_empty : OnPaths context code empty where
  entries := by simp [empty]
  pending := by simp [empty]
  fallthrough := by
    rintro scopes same
    cases same
    exact .start

/-- What is found under a key is an entry. -/
theorem mem_of_lookup {target : Nat} {scopes : Scopes} {pending : List (Nat × Scopes)}
    (found : pending.lookup target = some scopes) : (target, scopes) ∈ pending := by
  obtain ⟨before, rest, rfl, -⟩ := List.lookup_eq_some_iff.mp found
  exact List.mem_append_right _ List.mem_cons_self

/-- Paths that meet at the next instruction do not contradict each other. -/
theorem OnPaths.exists_nextEntry (onPaths : OnPaths context code tracker)
    (keeps : KeepsDiscipline context code) :
    ∃ entry, tracker.nextEntry = .ok entry ∧
      ∀ scopes, entry = some scopes → Reaches context code tracker.size scopes := by
  cases falls : tracker.fallthrough with
  | none =>
      refine ⟨tracker.pending.lookup tracker.size, by simp [nextEntry, falls], ?_⟩
      intro scopes found
      exact onPaths.pending (mem_of_lookup found)
  | some falling =>
      have path := onPaths.fallthrough falls
      refine ⟨some falling, ?_, by rintro _ ⟨⟩; exact path⟩
      cases waits : tracker.pending.lookup tracker.size with
      | none => simp [nextEntry, falls, waits]
      | some waiting =>
          have same := keeps.agree path (onPaths.pending (mem_of_lookup waits))
          simp [nextEntry, falls, waits, same]

/-- The scopes known at a target are brought there by a path. -/
theorem OnPaths.reaches_of_knownAt (onPaths : OnPaths context code tracker) {entry known : Scopes}
    {target : Nat} (path : Reaches context code tracker.size entry)
    (isKnown : tracker.knownAt entry target = some known) : Reaches context code target known := by
  unfold knownAt at isKnown
  split at isKnown
  next here =>
    cases isKnown
    rw [here]
    exact path
  next =>
    split at isKnown
    · exact onPaths.entries (Option.join_eq_some_iff.mp isKnown)
    · exact onPaths.pending (mem_of_lookup isKnown)

/-- A jump on a path brings what is known at its target, and carries nothing else forward. -/
theorem OnPaths.exists_checkJump (onPaths : OnPaths context code tracker)
    (keeps : KeepsDiscipline context code) {entry after : Scopes} {target : Nat}
    (path : Reaches context code tracker.size entry) (lands : Reaches context code target after) :
    ∃ forward, tracker.checkJump entry after target = .ok forward ∧
      ∀ carried, forward = some carried → carried = (target, after) := by
  unfold checkJump
  cases isKnown : tracker.knownAt entry target with
  | some known =>
      have same := keeps.agree (onPaths.reaches_of_knownAt path isKnown) lands
      exact ⟨none, by simp [same], by simp⟩
  | none => exact ⟨_, rfl, by simp +contextual [eq_comm]⟩

/-- **An instruction of disciplined code passes the check**, and what it adds lies on paths. -/
theorem OnPaths.exists_extend (onPaths : OnPaths context code tracker)
    (keeps : KeepsDiscipline context code) {instruction : Instruction}
    (found : code[tracker.size]? = some instruction) :
    ∃ after, tracker.extend context instruction = .ok after ∧ OnPaths context code after := by
  obtain ⟨entry, next, reached⟩ := onPaths.exists_nextEntry keeps
  -- it is enough to know the update: what it adds to the tracker is brought by paths
  suffices ∃ update, tracker.check context instruction = .ok update ∧
      (∀ scopes, update.entry = some scopes → Reaches context code tracker.size scopes) ∧
      (∀ target scopes, update.forward = some (target, scopes) →
        Reaches context code target scopes) ∧
      ∀ scopes, update.fallthrough = some scopes →
        Reaches context code (tracker.size + 1) scopes by
    obtain ⟨update, checked, entered, carried, falls⟩ := this
    refine ⟨tracker.apply update, extend_eq_ok.mpr ⟨update, checked, rfl⟩, ?_, ?_, ?_⟩
    · intro position scopes recorded
      have recorded : (tracker.entries.push update.entry)[position]? = some (some scopes) :=
        recorded
      rw [Array.getElem?_push] at recorded
      split at recorded
      next last =>
        rw [last]
        exact entered scopes (Option.some.inj recorded)
      next => exact onPaths.entries recorded
    · intro target scopes waits
      rcases List.mem_append.mp waits with isNew | before
      · exact carried target scopes (Option.mem_toList.mp isNew)
      · exact onPaths.pending (List.mem_filter.mp before).1
    · intro scopes same
      rw [Builder.size_apply]
      exact falls scopes same
  unfold check
  rw [next]
  cases entry with
  | none => exact ⟨⟨none, none, none⟩, rfl, by simp, by simp, by simp⟩
  | some entry =>
      have path := reached entry rfl
      obtain ⟨after, stepped⟩ := keeps.steps path found
      have falls : ∀ scopes, (if instruction.isTerminator then none else some after) =
          some scopes → Reaches context code (tracker.size + 1) scopes := by
        intro scopes isAfter
        split at isAfter
        · cases isAfter
        next continues =>
          cases isAfter
          exact .next path found stepped (.inr ⟨by simpa using continues, rfl⟩)
      simp only [bind, Except.bind, stepped]
      cases jumps : instruction.jumpTarget? tracker.size with
      | none =>
          refine ⟨_, rfl, by rintro _ ⟨⟩; exact path, by simp, falls⟩
      | some target =>
          have lands := Reaches.next path found stepped (.inl jumps)
          obtain ⟨forward, checked, carries⟩ := onPaths.exists_checkJump keeps path lands
          simp only [checked]
          refine ⟨_, rfl, by rintro _ ⟨⟩; exact path, ?_, falls⟩
          intro other scopes carried
          cases carries _ carried
          exact lands

/-- **Disciplined code can be followed to its end**, and all scopes recorded on the way lie on
paths. -/
theorem OnPaths.exists_follow (keeps : KeepsDiscipline context code) {rest : List Instruction}
    (onPaths : OnPaths context code tracker) (whole : code.toList.drop tracker.size = rest) :
    ∃ after, tracker.follow context rest = .ok after ∧ OnPaths context code after := by
  induction rest generalizing tracker with
  | nil => exact ⟨tracker, rfl, onPaths⟩
  | cons instruction rest ih =>
      have found : code[tracker.size]? = some instruction := by
        have first := congrArg (·[0]?) whole
        simpa using first
      obtain ⟨next, extended, onPathsNext⟩ := onPaths.exists_extend keeps found
      obtain ⟨update, -, rfl⟩ := extend_eq_ok.mp extended
      have remaining : code.toList.drop (tracker.apply update).size = rest := by
        rw [Builder.size_apply, ← List.drop_drop, whole, List.drop_one, List.tail_cons]
      obtain ⟨after, followed, onPathsAfter⟩ := ih onPathsNext remaining
      exact ⟨after, by rw [follow_cons, extended]; exact followed, onPathsAfter⟩

end

end Tracker

/-! ### Comparison with the verifier -/

/-- The module in which a procedure has the given instructions. -/
def Module.withCode (module : Module) (proc : ProcId) (code : List Instruction) : Module :=
  { module with
    procs := module.procs.modify proc.index.toNat fun declared =>
      { declared with
        code := (Instruction.encodeAll code).toArray
        instrCount := UInt32.ofNat code.length } }

/-- Other code makes no difference to the declarations. -/
theorem Module.sameDeclarations_withCode (module : Module) (proc : ProcId)
    (code : List Instruction) : SameDeclarations module (module.withCode proc code) :=
  .modify module proc.index.toNat fun _ => rfl

/-- Both modules give the procedure the same argument register. -/
theorem Module.of?_withCode {module : Module} {proc : ProcId} {code : List Instruction}
    {context : ScopeContext} :
    ScopeContext.of? (module.withCode proc code) proc = some context ↔
      ∃ io, ScopeContext.of? module proc = some ⟨module, io⟩ ∧
        context = ⟨module.withCode proc code, io⟩ := by
  have sameIo := (module.sameDeclarations_withCode proc code).ioOf?_eq proc
  simp only [ScopeContext.of?, ← sameIo, Option.map_eq_some_iff]
  constructor
  · rintro ⟨io, found, rfl⟩
    exact ⟨io, ⟨io, found, rfl⟩, rfl⟩
  · rintro ⟨io, ⟨_, found, same⟩, rfl⟩
    cases same
    exact ⟨io, found, rfl⟩

/-- The code that a procedure has been given is what it decodes to. -/
theorem Module.instructions_withCode {module : Module} {proc : ProcId} {code : List Instruction}
    {declared : ProcDef} (found : (module.withCode proc code).proc? proc = some declared) :
    declared.instructions = .ok code.toArray := by
  rw [proc?, withCode, Array.getElem?_modify, if_pos rfl] at found
  obtain ⟨old, -, rfl⟩ := Option.map_eq_some_iff.mp found
  exact Instruction.decodeAll_encodeAll code

/-- The tracker follows code that the verifier accepts, and every entry that it records is what the
verifier finds. -/
theorem exists_follow_of_verifyProc {module : Module} {proc : ProcId} {code : List Instruction}
    (verified : verifyProc (module.withCode proc code) proc = .ok ()) :
    ∃ io tracker flow solution, ScopeContext.of? module proc = some ⟨module, io⟩ ∧
      Tracker.empty.follow ⟨module, io⟩ code = .ok tracker ∧
      solveProc (module.withCode proc code) proc = .ok (flow, solution) ∧
      ∀ position scopes, tracker.entries[position]? = some (some scopes) →
        flow.scopesAt solution position = some scopes := by
  obtain ⟨⟨flow, solution⟩, solved, -⟩ := bind_eq_ok.mp verified
  obtain ⟨declared, found, decoded, -, resolves, cut, isSolution⟩ := solveProc_eq_ok solved
  have isCode : flow.code = code.toArray := by
    rw [Module.instructions_withCode found] at decoded
    exact (Except.ok.inj decoded).symm
  obtain ⟨io, context, isContext⟩ := Module.of?_withCode.mp resolves
  have keeps := isSolution.keepsDiscipline cut
  obtain ⟨tracker, followed, onPaths⟩ := Tracker.OnPaths.exists_follow keeps
    Tracker.onPaths_empty (show flow.code.toList.drop 0 = code by rw [isCode]; rfl)
  refine ⟨io, tracker, flow, solution, context, ?_, solved, ?_⟩
  · -- the verifier looks at the module with the code, the tracker at the one without
    rw [← followed, isContext]
    exact Tracker.follow_congr
      (fun instruction _ => (module.sameDeclarations_withCode proc code).agree io instruction) _
  · intro position scopes recorded
    exact isSolution.scopesAt_eq cut (onPaths.entries recorded)

/-- **The tracker agrees with the verifier.** Code that the verifier accepts as the code of a
procedure passes the check at every instruction, and every entry that the tracker has recorded at
the end is the list of open scopes that the verifier finds for the instruction. So once the check
rejects an instruction, the verifier rejects the code however it goes on. -/
theorem tracker_agrees (module : Module) (proc : ProcId) :
    (∀ code, verifyProc (module.withCode proc code) proc = .ok () →
      ∃ context tracker flow solution, ScopeContext.of? module proc = some context ∧
        Tracker.empty.follow context code = .ok tracker ∧ tracker.entries.size = code.length ∧
        solveProc (module.withCode proc code) proc = .ok (flow, solution) ∧
        ∀ position scopes, tracker.entries[position]? = some (some scopes) →
          flow.scopesAt solution position = some scopes) ∧
    ∀ context done tracker instruction violation, ScopeContext.of? module proc = some context →
      Tracker.empty.follow context done = .ok tracker →
      tracker.check context instruction = .error violation →
      ∀ rest, verifyProc (module.withCode proc (done ++ instruction :: rest)) proc ≠ .ok () := by
  constructor
  · intro code verified
    obtain ⟨io, tracker, flow, solution, context, followed, solved, same⟩ :=
      exists_follow_of_verifyProc verified
    have size : tracker.size = 0 + code.length := Tracker.size_follow followed
    exact ⟨_, tracker, flow, solution, context, followed, size.trans (Nat.zero_add _), solved, same⟩
  · intro context done tracker instruction violation isContext followed rejected rest verified
    obtain ⟨io, whole, flow, solution, isContext', followedAll, -⟩ :=
      exists_follow_of_verifyProc verified
    rw [isContext] at isContext'
    obtain rfl := Option.some.inj isContext'
    -- the whole can only be followed through the instruction that was rejected
    rw [Tracker.follow_append, followed] at followedAll
    have extended : (tracker.extend ⟨module, io⟩ instruction >>= fun next =>
        next.follow ⟨module, io⟩ rest) = .ok whole := followedAll
    obtain ⟨next, extended, -⟩ := bind_eq_ok.mp extended
    obtain ⟨update, checked, -⟩ := Tracker.extend_eq_ok.mp extended
    rw [rejected] at checked
    cases checked

/-- In the factorial sample the tracker and the verifier know one open scope behind the loop, where
the jump over the loop and the last round of it meet. A loop that opens a scope in every round is
rejected at the jump back, and no code behind that jump makes up for it. -/
theorem factorial_tracked :
    (∃ tracker flow solution,
      Tracker.empty.follow ⟨Samples.factorialModule, ⟨1, by decide⟩⟩
        (Samples.factorialCode ⟨1, by decide⟩ ⟨2, by decide⟩) = .ok tracker ∧
      tracker.entries[6]? = some (some [⟨2, by decide⟩]) ∧
      solveProc (Samples.factorialModule.withCode Samples.entry
        (Samples.factorialCode ⟨1, by decide⟩ ⟨2, by decide⟩)) Samples.entry =
          .ok (flow, solution) ∧
      flow.scopesAt solution 6 = some [⟨2, by decide⟩]) ∧
    verifyProc (Samples.factorialModule.withCode Samples.entry
      [.als ⟨2, by decide⟩, .jnz ⟨1, by decide⟩ (-1), .frs ⟨2, by decide⟩, .ret]) Samples.entry ≠
        .ok () := by
  obtain ⟨accepts, rejects⟩ := tracker_agrees Samples.factorialModule Samples.entry
  constructor
  · have verified : verifyProc (Samples.factorialModule.withCode Samples.entry
        (Samples.factorialCode ⟨1, by decide⟩ ⟨2, by decide⟩)) Samples.entry = .ok () := rfl
    obtain ⟨context, tracker, flow, solution, isContext, followed, -, solved, same⟩ :=
      accepts _ verified
    cases isContext
    have recorded : tracker.entries[6]? = some (some [⟨2, by decide⟩]) := by
      cases followed
      rfl
    exact ⟨tracker, flow, solution, followed, recorded, solved, same 6 _ recorded⟩
  · exact rejects ⟨Samples.factorialModule, ⟨1, by decide⟩⟩ [.als ⟨2, by decide⟩] _
      (.jnz ⟨1, by decide⟩ (-1)) (.mergeMismatch 0) rfl rfl rfl
      [.frs ⟨2, by decide⟩, .ret]

end ScopeMachine
