import ScopeMachine.Proofs.Records
import ScopeMachine.Proofs.Upkeep
import ScopeMachine.Proofs.Windows

/-! # Data movement with direct access

Instructions that move data take parts of variables by positions and widths that come from layouts,
and copy them over parts of other variables. Variables that are found in owned slots can have any
layout, so no check of the code says anything of these widths. Here the instructions are written
with direct access to the arrays, in the order in which they get at them. There are no slips as long
as variables are as large as their layouts say, and they stay so, but for one: an offset and a width
can have a sum that is no word.

* `Abrupt` are the actions that can slip, and `Abrupt.Mirrors` says that one does what an action
  without slips does;
* `Machine.AddsUp` says that the sum of an instruction is a word, and `Abrupt.mirrors_execute` that
  there are no slips then;
* `Machine.sized_of_invoke` and `History.sized` say that variables stay as large as their layouts
  say. -/

namespace ScopeMachine

open Machine

/-! ### Stores -/

/-- Putting the changed value in the place of a value is changing it. -/
theorem Slots.modify_const {α : Type} {slots : Slots α} {id : Nat} {value : α}
    (found : slots.get? id = some value) (change : α → α) :
    (slots.modify id fun _ => change value) = slots.modify id change := by
  unfold Slots.modify
  congr 1
  apply Array.ext_getElem?
  intro other
  rw [Array.getElem?_modify, Array.getElem?_modify]
  by_cases same : id = other
  · subst same
    obtain isThere : slots.cells[id]? = some (some value) := Option.join_eq_some_iff.mp found
    rw [if_pos rfl, if_pos rfl, isThere]
    rfl
  · rw [if_neg same, if_neg same]

/-- Every variable is as large as its layout says. -/
def Store.Sized (store : Store) : Prop :=
  ∀ ⦃id : VarId⦄ ⦃var : Variable⦄, store.get? id = some var → var.Sized

/-! ### Sums -/

namespace Machine

/-- What a register names, if it names anything, has some property. -/
def Names (machine : Machine) (reg : RegId) (holds : Variable → Prop) : Prop :=
  ∀ id var, machine.named reg = .ok (id, var) → holds var

/-- What an instruction adds to its offset, if it has one, leads to a word of 64 bits: the width
that the layout of a target says when bytes are loaded, and the size of the element, if there is
one, when bytes are stored. -/
def AddsUp (machine : Machine) : Instruction → Prop
  | .ldb dst _ offset =>
      machine.Names dst fun target => offset.toNat + target.layout.elementBytes < UInt64.size
  | .stb _ offset src =>
      machine.Names src fun source =>
        0 < source.count → offset.toNat + source.layout.elementBytes < UInt64.size
  | _ => True

end Machine

/-! ### Actions -/

/-- Why an action with direct access ends early. -/
inductive Halt where
  /-- It fails. -/
  | fault (error : Error)
  /-- It slips. -/
  | slip (slip : Slip)

/-- Actions of a machine that can slip. -/
abbrev Abrupt := EStateM Halt Machine

namespace Abrupt

section
variable {α β : Type}

/-- An action without slips. -/
def ofExec (action : Exec α) : Abrupt α := fun machine =>
  match action machine with
  | .ok value after => .ok value after
  | .error error after => .error (.fault error) after

/-- The variable that a register names, with its identity. -/
def named (reg : RegId) : Abrupt (VarId × Variable) :=
  ofExec (inspect fun machine => machine.named reg)

/-- What is there, or else a fault. -/
def demand (error : Error) : Option α → Abrupt α
  | some value => pure value
  | none => throw (.fault error)

/-- What comes of direct access. -/
def risk : Except Slip α → Abrupt α
  | .ok value => pure value
  | .error slip => throw (.slip slip)

/-- Put a variable in the place of the one with the same identity. -/
def put (id : VarId) (var : Variable) : Abrupt Unit := ofExec (updateVar id fun _ => var)

/-- The word that a register holds. -/
def readWord (reg : RegId) : Abrupt Int64 := do
  let (_, var) ← named reg
  demand (missingElement reg 0 var) (← risk (word var 0))

/-- Store a word in a register. -/
def writeWord (reg : RegId) (word : Int64) : Abrupt Unit := do
  let (id, var) ← named reg
  put id (← demand (missingElement reg 0 var) (← risk (setWord var 0 word)))

/-- Store literal bytes at the front of a register's first element. -/
def storeLiteral (reg : RegId) (literal : Array UInt8) : Abrupt Unit := do
  let (id, var) ← named reg
  let bytes ← demand (missingElement reg 0 var) (window? var 0)
  let front ← demand (.execution (.byteRange reg 0 literal.size bytes.width))
    (bytes.part? 0 literal.size)
  let payload ← risk (Window.copy var.payload front literal)
  put id { var with payload }

/-- Copy the payload of one register over the front of another's, as far as both reach. -/
def copyBytes (dst src : RegId) : Abrupt Unit := do
  let (_, source) ← named src
  let (id, target) ← named dst
  put id (← risk (copyPayload target source.payload))

/-- A copy of the element of a register at a position given by a word. -/
def elementAt (reg : RegId) (index : Int) : Abrupt Element := do
  let (_, var) ← named reg
  match index.toNat? with
  | none => throw (.fault (missingElement reg index var))
  | some position => demand (missingElement reg index var) (← risk (element var position))

/-- Store an element into a register at a position given by a word. -/
def storeElementAt (reg : RegId) (index : Int) (value : Element) : Abrupt Unit := do
  let (id, var) ← named reg
  match index.toNat? with
  | none => throw (.fault (missingElement reg index var))
  | some position =>
      put id (← demand (missingElement reg index var) (← risk (storeElement var position value)))

/-- Load as many bytes as an element of `dst` has, from a position within the first element of
`src`. -/
def loadBytes (dst src : RegId) (offset : Nat) : Abrupt Unit := do
  let (_, shape) ← named dst
  let stop ← risk (sum offset shape.layout.elementBytes)
  let (_, source) ← named src
  let bytes ← demand (missingElement src 0 source) (window? source 0)
  let part ← demand (.execution (.byteRange src offset stop bytes.width))
    (bytes.part? offset stop)
  let (id, target) ← named dst
  let covered ← demand (missingElement dst 0 target) (window? target 0)
  let payload ← risk (Window.copy target.payload covered (Window.read source.payload part))
  put id { target with payload }

/-- Store the first element of `src` at a position within the first element of `dst`. -/
def storeBytes (dst : RegId) (offset : Nat) (src : RegId) : Abrupt Unit := do
  let (_, source) ← named src
  let bytes ← demand (missingElement src 0 source) (window? source 0)
  let values := Window.read source.payload bytes
  let stop ← risk (sum offset values.size)
  let (id, target) ← named dst
  let whole ← demand (missingElement dst 0 target) (window? target 0)
  let covered ← demand (.execution (.byteRange dst offset stop whole.width))
    (whole.part? offset stop)
  let payload ← risk (Window.copy target.payload covered values)
  put id { target with payload }

/-- Bind a register to the referent in an owned slot of the first element of another. -/
def loadRef (dst src : RegId) (slot : Nat) : Abrupt Unit := do
  let (_, source) ← named src
  if source.isEmpty then throw (.fault (missingElement src 0 source))
  let referent ← risk (ownedRef source 0 slot)
  ofExec (discard (onRegisters (Registers.rebind dst referent)))

/-- Store a reference to a register's variable, or null, in an owned slot of the first element of
another. -/
def storeRef (dst : RegId) (slot : Nat) (src : RegId) : Abrupt Unit := do
  let referent ← ofExec (inspect fun machine => machine.registers.top src)
  let (id, target) ← named dst
  put id (← demand (missingElement dst 0 target)
    (← risk (replaceOwnedRef target 0 slot referent)))

/-- At a machine, an action that could slip does what an action without slips does. -/
def Mirrors (machine : Machine) (abrupt : Abrupt α) (action : Exec α) : Prop :=
  abrupt machine = ofExec action machine

variable {machine : Machine}

/-- Actions that mirror each other step by step. -/
theorem Mirrors.bind {abrupt : Abrupt α} {action : Exec α} {more : α → Abrupt β}
    {next : α → Exec β} (first : Mirrors machine abrupt action)
    (second : ∀ value after, action machine = .ok value after →
      Mirrors after (more value) (next value)) :
    Mirrors machine (abrupt >>= more) (action >>= next) := by
  unfold Mirrors ofExec at *
  rw [bind_apply, bind_apply, first]
  cases done : action machine with
  | ok value after => exact second value after done
  | error error after => rfl

/-- A value after actions that mirror each other. -/
theorem Mirrors.bind_pure {abrupt : Abrupt α} {action : Exec α} {value : β}
    (mirrors : Mirrors machine abrupt action) :
    Mirrors machine (abrupt >>= fun _ => pure value) (action >>= fun _ => pure value) :=
  mirrors.bind fun _ _ _ => rfl

/-- A look that finds something. -/
theorem mirrors_of_look {abrupt : Abrupt β} {look : Machine → Except Error α} {next : α → Exec β}
    {value : α} (found : look machine = .ok value) (mirrors : Mirrors machine abrupt (next value)) :
    Mirrors machine abrupt (inspect look >>= next) := by
  unfold Mirrors ofExec at *
  rw [bind_apply, inspect_apply, found]
  exact mirrors

/-- A look that fails. -/
theorem mirrors_of_fault {abrupt : Abrupt β} {look : Machine → Except Error α} {next : α → Exec β}
    {error : Error} (failed : look machine = .error error)
    (same : abrupt machine = .error (.fault error) machine) :
    Mirrors machine abrupt (inspect look >>= next) := by
  unfold Mirrors ofExec
  rw [bind_apply, inspect_apply, failed]
  exact same

/-- Looks leave the machine as it is. -/
theorem Mirrors.look_bind {abrupt : Abrupt α} {look : Machine → Except Error α}
    {more : α → Abrupt β} {next : α → Exec β} (first : Mirrors machine abrupt (inspect look))
    (second : ∀ value, look machine = .ok value → Mirrors machine (more value) (next value)) :
    Mirrors machine (abrupt >>= more) (inspect look >>= next) := by
  refine first.bind ?_
  intro value after done
  rw [inspect_apply] at done
  split at done
  next found =>
    cases done
    exact second value found
  next => cases done

/-- What follows a demand that is met. -/
theorem demand_some_bind (error : Error) (value : α) (next : α → Abrupt β) :
    (demand error (some value) >>= next) = next value := rfl

/-- What follows direct access without a slip. -/
theorem risk_ok_bind (value : α) (next : α → Abrupt β) : (risk (.ok value) >>= next) = next value :=
  rfl

/-- Looking twice. -/
theorem inspect_bind (first : Machine → Except Error α) (rest : α → Machine → Except Error β) :
    (inspect fun machine => first machine >>= fun value => rest value machine) =
      inspect first >>= fun value => inspect (rest value) := by
  funext machine
  rw [bind_apply, inspect_apply, inspect_apply]
  cases first machine with
  | ok value =>
      dsimp only
      rw [inspect_apply]
      rfl
  | error error => rfl

/-- What follows a register that names a variable. -/
theorem mirrors_named (sized : machine.store.Sized) {reg : RegId} {next : VarId × Variable → Exec β}
    {more : VarId × Variable → Abrupt β}
    (each : ∀ id var, machine.named reg = .ok (id, var) → machine.store.get? id = some var →
      var.Sized → Mirrors machine (more (id, var)) (next (id, var))) :
    Mirrors machine (named reg >>= more) (inspect (fun machine => machine.named reg) >>= next) := by
  refine Mirrors.look_bind rfl ?_
  rintro ⟨id, var⟩ isNamed
  have found := (named_eq_ok isNamed).1
  exact each id var isNamed found (sized found)

/-- A look that starts with what a register names. -/
theorem mirrors_look_named (sized : machine.store.Sized) {reg : RegId}
    {rest : VarId × Variable → Machine → Except Error α} {next : α → Exec β}
    {more : VarId × Variable → Abrupt β}
    (each : ∀ id var, machine.named reg = .ok (id, var) → machine.store.get? id = some var →
      var.Sized → Mirrors machine (more (id, var)) (inspect (rest (id, var)) >>= next)) :
    Mirrors machine (named reg >>= more)
      (inspect (fun machine => machine.named reg >>= fun found => rest found machine) >>=
        next) := by
  rw [inspect_bind, bind_assoc]
  exact mirrors_named sized each

/-- What follows a register whose variable is known. -/
theorem mirrors_known {reg : RegId} {found : VarId × Variable} {action : Exec β}
    {more : VarId × Variable → Abrupt β} (isNamed : machine.named reg = .ok found)
    (mirrors : Mirrors machine (more found) action) :
    Mirrors machine (named reg >>= more) action := by
  unfold Mirrors at *
  rw [bind_apply]
  unfold named ofExec
  rw [inspect_apply, isNamed]
  exact mirrors

/-- A variable is put in its place as it is changed there. -/
theorem mirrors_put {id : VarId} {var changed : Variable} {change : Variable → Variable}
    (found : machine.store.get? id = some var) (same : change var = changed) :
    Mirrors machine (put id changed) (updateVar id change) := by
  subst same
  have replaced := Slots.modify_const found change
  show EStateM.Result.ok _ { machine with store := _ } = .ok _ { machine with store := _ }
  rw [replaced]

/-! ### Words -/

/-- Words are read. -/
theorem mirrors_readWord (sized : machine.store.Sized) (reg : RegId) :
    Mirrors machine (readWord reg) (Machine.readWord reg) := by
  unfold readWord Machine.readWord
  rw [inspect_bind]
  refine mirrors_named sized fun id var isNamed found sizedVar => ?_
  dsimp only
  rw [word_eq sizedVar]
  unfold Mirrors ofExec
  rw [inspect_apply]
  cases var.word? 0 <;> rfl

/-- Words are written. -/
theorem mirrors_writeWord (sized : machine.store.Sized) (reg : RegId) (word : Int64) :
    Mirrors machine (writeWord reg word) (Machine.writeWord reg word) := by
  unfold writeWord Machine.writeWord
  refine mirrors_look_named sized fun id var isNamed found sizedVar => ?_
  dsimp only
  rw [setWord_eq sizedVar]
  by_cases holds : var.hasWord 0 = true
  · rw [if_pos holds]
    refine mirrors_of_look (if_pos holds) ?_
    exact mirrors_put found rfl
  · rw [if_neg holds]
    exact mirrors_of_fault (if_neg holds) rfl

/-! ### Bytes -/

/-- There are elements. -/
theorem isEmpty_eq_false {var : Variable} (present : 0 < var.count) : var.isEmpty = false := by
  simpa [Variable.isEmpty] using Nat.ne_of_gt present

/-- There are no elements. -/
theorem isEmpty_eq_true {var : Variable} (missing : ¬ 0 < var.count) : var.isEmpty = true := by
  simpa [Variable.isEmpty] using missing

/-- Literals are stored. -/
theorem mirrors_storeLiteral (sized : machine.store.Sized) (reg : RegId) (literal : Array UInt8) :
    Mirrors machine (storeLiteral reg literal) (Machine.storeLiteral reg literal) := by
  unfold storeLiteral Machine.storeLiteral
  refine mirrors_look_named sized fun id var isNamed found sizedVar => ?_
  dsimp only
  by_cases present : 0 < var.count
  · obtain ⟨bytes, isBytes, start, width, -⟩ := exists_window sizedVar present
    rw [isEmpty_eq_false present, isBytes, demand_some_bind, width]
    by_cases narrow : var.layout.elementBytes < literal.size
    · rw [Window.part?_eq_none 0 (width.symm ▸ narrow)]
      exact mirrors_of_fault (if_pos narrow) rfl
    · obtain ⟨part, isPart, first, -, size⟩ :=
        bytes.exists_part (Nat.zero_le literal.size) (width.symm ▸ Nat.le_of_not_lt narrow)
      rw [isPart, demand_some_bind, Window.copy_eq size.symm, risk_ok_bind]
      refine mirrors_of_look (if_neg narrow) (mirrors_put found ?_)
      rw [Variable.writeBytes, first, start]
  · rw [isEmpty_eq_true present, window?_eq_none (Nat.le_of_not_lt present)]
    exact mirrors_of_fault rfl rfl

/-- Payloads are copied. -/
theorem mirrors_copyBytes (sized : machine.store.Sized) (dst src : RegId) :
    Mirrors machine (copyBytes dst src) (Machine.copyBytes dst src) := by
  unfold copyBytes Machine.copyBytes
  refine mirrors_look_named sized fun _ source _ _ _ => ?_
  dsimp only
  refine mirrors_look_named sized fun id target _ found _ => ?_
  dsimp only
  rw [copyPayload_eq, risk_ok_bind]
  exact mirrors_of_look rfl (mirrors_put found rfl)

/-- Bytes are loaded, if the end of the part is a word. -/
theorem mirrors_loadBytes (sized : machine.store.Sized) {dst : RegId} (src : RegId) {offset : Nat}
    (adds : machine.Names dst fun target =>
      offset + target.layout.elementBytes < UInt64.size) :
    Mirrors machine (loadBytes dst src offset) (Machine.loadBytes dst src offset) := by
  unfold loadBytes Machine.loadBytes
  refine mirrors_look_named sized fun id target isTarget found sizedTarget => ?_
  have fits := adds id target isTarget
  dsimp only
  rw [sum_eq fits, risk_ok_bind, Variable.partEnd_eq fits]
  refine mirrors_look_named sized fun _ source _ _ sizedSource => ?_
  dsimp only
  by_cases present : 0 < source.count
  · obtain ⟨bytes, isBytes, -, -, isRow⟩ := exists_window sizedSource present
    have size := Window.size_read source.payload bytes
    rw [isBytes, demand_some_bind, isRow]
    by_cases narrow : bytes.width < offset + target.layout.elementBytes
    · rw [Window.part?_eq_none offset narrow, ← size]
      exact mirrors_of_fault (if_pos (.inr (size.symm ▸ narrow))) rfl
    · have inside : ¬ (offset + target.layout.elementBytes < offset ∨
          (Window.read source.payload bytes).size < offset + target.layout.elementBytes) := by
        omega
      obtain ⟨part, isPart, first, last, partWidth⟩ :=
        bytes.exists_part (Nat.le_add_right offset _) (Nat.le_of_not_lt narrow)
      rw [isPart, demand_some_bind]
      -- the register is looked up once more, and names the same variable
      refine mirrors_known isTarget ?_
      dsimp only
      by_cases holds : 0 < target.count
      · obtain ⟨covered, isCovered, begins, wide, -⟩ := exists_window sizedTarget holds
        -- the width has been taken from the variable that the bytes now go to
        have same : (Window.read source.payload part).size = covered.width := by
          rw [Window.size_read, partWidth, wide, Nat.add_sub_cancel_left]
        rw [isCovered, demand_some_bind, Window.copy_eq same, risk_ok_bind]
        refine mirrors_of_look ((if_neg inside).trans
          (if_neg (by rw [isEmpty_eq_false holds]; decide))) (mirrors_put found ?_)
        rw [Variable.writeBytes, begins, Window.read_part (Nat.le_of_not_lt narrow) first last]
        rfl
      · rw [window?_eq_none (Nat.le_of_not_lt holds)]
        exact mirrors_of_fault ((if_neg inside).trans (if_pos (isEmpty_eq_true holds))) rfl
  · rw [window?_eq_none (Nat.le_of_not_lt present), Variable.bytes?, if_neg present]
    exact mirrors_of_fault rfl rfl

/-- Bytes are stored, if the end of the part is a word. -/
theorem mirrors_storeBytes (sized : machine.store.Sized) (dst : RegId) {offset : Nat} {src : RegId}
    (adds : machine.Names src fun source =>
      0 < source.count → offset + source.layout.elementBytes < UInt64.size) :
    Mirrors machine (storeBytes dst offset src) (Machine.storeBytes dst offset src) := by
  unfold storeBytes Machine.storeBytes
  refine mirrors_look_named sized fun id source isSource _ sizedSource => ?_
  dsimp only
  by_cases present : 0 < source.count
  · obtain ⟨bytes, isBytes, -, isWidth, isRow⟩ := exists_window sizedSource present
    have fits : offset + (Window.read source.payload bytes).size < UInt64.size := by
      rw [Window.size_read, isWidth]
      exact adds id source isSource present
    rw [isBytes, demand_some_bind, isRow]
    generalize Window.read source.payload bytes = values at fits ⊢
    rw [sum_eq fits, risk_ok_bind]
    show Mirrors machine _ (inspect (fun machine => machine.named dst >>= _) >>= _)
    refine mirrors_look_named sized fun id target _ found sizedTarget => ?_
    dsimp only
    rw [Variable.partEnd_eq fits]
    by_cases holds : 0 < target.count
    · obtain ⟨whole, isWhole, begins, wide, -⟩ := exists_window sizedTarget holds
      rw [isWhole, demand_some_bind, isEmpty_eq_false holds, wide]
      by_cases narrow : target.layout.elementBytes < offset + values.size
      · rw [Window.part?_eq_none offset (wide.symm ▸ narrow)]
        exact mirrors_of_fault ((if_neg Bool.false_ne_true).trans (if_pos (.inr narrow))) rfl
      · have inside : ¬ (offset + values.size < offset ∨
            target.layout.elementBytes < offset + values.size) := by omega
        obtain ⟨covered, isCovered, first, -, coveredWidth⟩ :=
          whole.exists_part (Nat.le_add_right offset values.size)
            (wide.symm ▸ Nat.le_of_not_lt narrow)
        have same : values.size = covered.width := by
          rw [coveredWidth, Nat.add_sub_cancel_left]
        rw [isCovered, demand_some_bind, Window.copy_eq same, risk_ok_bind]
        refine mirrors_of_look ((if_neg Bool.false_ne_true).trans (if_neg inside))
          (mirrors_put found ?_)
        rw [Variable.writeBytes, first, begins]
    · rw [isEmpty_eq_true holds, window?_eq_none (Nat.le_of_not_lt holds)]
      exact mirrors_of_fault rfl rfl
  · rw [window?_eq_none (Nat.le_of_not_lt present), Variable.bytes?, if_neg present]
    exact mirrors_of_fault rfl rfl

/-! ### Elements and references -/

/-- Elements are copied. -/
theorem mirrors_elementAt (sized : machine.store.Sized) (reg : RegId) (index : Int) :
    Mirrors machine (elementAt reg index) (inspect (Machine.elementAt reg index)) := by
  unfold elementAt Machine.elementAt
  rw [inspect_bind]
  refine mirrors_named sized fun _ var _ _ sizedVar => ?_
  dsimp only
  cases index.toNat? with
  | none => rfl
  | some position =>
      dsimp only
      rw [element_eq sizedVar, risk_ok_bind, Option.bind_some]
      unfold Mirrors ofExec
      rw [inspect_apply]
      cases var.element? position <;> rfl

/-- Elements are stored. -/
theorem mirrors_storeElementAt (sized : machine.store.Sized) (reg : RegId) (index : Int)
    (value : Element) :
    Mirrors machine (storeElementAt reg index value) (Machine.storeElementAt reg index value) := by
  unfold storeElementAt Machine.storeElementAt
  refine mirrors_look_named sized fun id var _ found sizedVar => ?_
  dsimp only
  cases index with
  | negSucc below =>
      refine mirrors_of_fault (if_neg ?_) rfl
      exact fun fits => absurd fits.1 (by omega)
  | ofNat position =>
      show Mirrors machine (risk (storeElement var position value) >>= _) _
      rw [storeElement_eq sizedVar, risk_ok_bind, Variable.storeElement]
      by_cases fits : var.fits position value = true
      · rw [if_pos fits]
        refine mirrors_of_look (if_pos ⟨Int.natCast_nonneg position, fits⟩) ?_
        exact mirrors_put found rfl
      · rw [if_neg fits]
        exact mirrors_of_fault (if_neg fun both => fits both.2) rfl

/-- References are loaded. -/
theorem mirrors_loadRef (sized : machine.store.Sized) (dst src : RegId) (slot : Nat) :
    Mirrors machine (loadRef dst src slot) (Machine.loadRef dst src slot) := by
  unfold loadRef Machine.loadRef
  refine mirrors_look_named sized fun _ source _ _ sizedSource => ?_
  dsimp only
  cases source.isEmpty with
  | true => exact mirrors_of_fault rfl rfl
  | false =>
      rw [ownedRef_eq sizedSource]
      exact mirrors_of_look rfl rfl

/-- References are stored. -/
theorem mirrors_storeRef (sized : machine.store.Sized) (dst : RegId) (slot : Nat) (src : RegId) :
    Mirrors machine (storeRef dst slot src) (Machine.storeRef dst slot src) := by
  unfold storeRef Machine.storeRef
  rw [inspect_bind, bind_assoc]
  refine Mirrors.look_bind rfl fun referent _ => ?_
  refine mirrors_look_named sized fun id target _ found sizedTarget => ?_
  dsimp only
  rw [replaceOwnedRef_eq sizedTarget, risk_ok_bind]
  cases target.ownedIndex? 0 slot with
  | none => exact mirrors_of_fault rfl rfl
  | some position => exact mirrors_of_look rfl (mirrors_put found rfl)

/-! ### Instructions -/

/-- Apply an operation to two words. -/
def arithmetic (operation : Int64 → Int64 → Int64) (dst left right : RegId) : Abrupt Unit := do
  let first ← readWord left
  let second ← readWord right
  writeWord dst (operation first second)

/-- Compare two words. -/
def compareWords (test : Int64 → Int64 → Bool) (left right : RegId) : Abrupt Bool := do
  let first ← readWord left
  let second ← readWord right
  return test first second

/-- Carry out one instruction at position `pc`. Those that open and close scopes or pass control on
have no variables to reach into. -/
def execute (program : Program) (instruction : Instruction) (pc : Nat) : Abrupt Outcome := do
  match instruction with
  | .inc reg => writeWord reg ((← readWord reg) + 1); return .next
  | .dec reg => writeWord reg ((← readWord reg) - 1); return .next
  | .add dst left right => arithmetic (· + ·) dst left right; return .next
  | .sub dst left right => arithmetic (· - ·) dst left right; return .next
  | .mul dst left right => arithmetic (· * ·) dst left right; return .next
  | .cpi1 dst literal =>
      storeLiteral dst ((wordToBytes (Int64.ofInt literal.toInt)).take 1); return .next
  | .cpi2 dst literal =>
      storeLiteral dst ((wordToBytes (Int64.ofInt literal.toInt)).take 2); return .next
  | .cpi4 dst literal =>
      storeLiteral dst ((wordToBytes (Int64.ofInt literal.toInt)).take 4); return .next
  | .cpi8 dst literal => storeLiteral dst (wordToBytes literal); return .next
  | .jz reg _ => ofExec (jumpWhen ((← readWord reg) == 0) instruction pc)
  | .jnz reg _ => ofExec (jumpWhen ((← readWord reg) != 0) instruction pc)
  | .jgz reg _ => ofExec (jumpWhen (0 < (← readWord reg)) instruction pc)
  | .jngz reg _ => ofExec (jumpWhen ((← readWord reg) ≤ 0) instruction pc)
  | .jg left right _ =>
      let taken ← compareWords (fun first second => second < first) left right
      ofExec (jumpWhen taken instruction pc)
  | .jng left right _ =>
      let taken ← compareWords (fun first second => first ≤ second) left right
      ofExec (jumpWhen taken instruction pc)
  | .je left right _ =>
      let taken ← compareWords (· == ·) left right
      ofExec (jumpWhen taken instruction pc)
  | .cpb dst src => copyBytes dst src; return .next
  | .lde dst src position =>
      let index ← readWord position
      let value ← elementAt src index.toInt
      storeElementAt dst 0 value
      return .next
  | .ste dst position src =>
      let index ← readWord position
      let value ← elementAt src 0
      storeElementAt dst index.toInt value
      return .next
  | .ldb dst src offset => loadBytes dst src offset.toNat; return .next
  | .stb dst offset src => storeBytes dst offset.toNat src; return .next
  | .ldr dst src slot => loadRef dst src slot.toNat; return .next
  | .str dst slot src => storeRef dst slot.toNat src; return .next
  | .throw => throw (.fault (.execution (.thrown (← readWord RegId.error))))
  | .jmp _ | .als _ | .push _ | .alsr _ | .pushr _ | .pushh _ | .frs _ | .pop _ | .frsl _
  | .popl _ | .call _ | .ret => ofExec (Machine.execute program instruction pc)

/-- **Instructions are carried out without slips**, if what they add up are words. -/
theorem mirrors_execute (sized : machine.store.Sized) (program : Program)
    {instruction : Instruction} (adds : machine.AddsUp instruction) (pc : Nat) :
    Mirrors machine (execute program instruction pc)
      (Machine.execute program instruction pc) := by
  cases instruction with
  | inc reg | dec reg =>
      exact (mirrors_readWord sized reg).look_bind fun _ _ =>
        (mirrors_writeWord sized reg _).bind_pure
  | add dst left right | sub dst left right | mul dst left right =>
      refine Mirrors.bind_pure ?_
      refine (mirrors_readWord sized left).look_bind fun _ _ => ?_
      exact (mirrors_readWord sized right).look_bind fun _ _ => mirrors_writeWord sized dst _
  | cpi1 dst literal | cpi2 dst literal | cpi4 dst literal | cpi8 dst literal =>
      exact (mirrors_storeLiteral sized dst _).bind_pure
  | jz reg offset | jnz reg offset | jgz reg offset | jngz reg offset =>
      exact (mirrors_readWord sized _).look_bind fun _ _ => rfl
  | jg left right offset | jng left right offset | je left right offset =>
      refine Mirrors.bind ?_ fun _ _ _ => rfl
      refine (mirrors_readWord sized left).look_bind fun _ _ => ?_
      exact (mirrors_readWord sized right).look_bind fun _ _ => rfl
  | cpb dst src => exact (mirrors_copyBytes sized dst src).bind_pure
  | lde dst src position | ste dst position src =>
      refine (mirrors_readWord sized position).look_bind fun index _ => ?_
      refine (mirrors_elementAt sized src _).look_bind fun value _ => ?_
      exact (mirrors_storeElementAt sized dst _ value).bind_pure
  | ldb dst src offset => exact (mirrors_loadBytes sized src adds).bind_pure
  | stb dst offset src => exact (mirrors_storeBytes sized dst adds).bind_pure
  | ldr dst src slot => exact (mirrors_loadRef sized dst src _).bind_pure
  | str dst slot src => exact (mirrors_storeRef sized dst _ src).bind_pure
  | throw => exact (mirrors_readWord sized _).look_bind fun _ _ => rfl
  | _ => rfl

end

end Abrupt

/-! ### Sizes along a run -/

/-- A variable that is large enough enters. -/
theorem Store.Sized.insert {store : Store} (sized : store.Sized) {var : Variable}
    (sizedVar : var.Sized) : Store.Sized (Slots.insert store var) :=
  forall_insert sized sizedVar

namespace Machine

/-- A machine over a store whose variables are as large as their layouts say. -/
abbrev Sized : Machine → Prop := Holds Store.Sized fun _ _ _ => True

/-- Registers are given variables that are large enough, and revisions keep their sizes. -/
theorem lasts_sized (program : Program) : Lasts Store.Sized program :=
  lasts_forall (fun _ _ => Variable.sized_zeroed _ _) Variable.Revises.sized

/-- **A call leaves variables as large as they were**, whatever program it is a call of. -/
theorem sized_of_invoke {store : Store} (sized : store.Sized) (program : Program) (proc : ProcId)
    (io : VarId) (steps : Nat) : (invoke program proc io steps store).1.store.Sized :=
  (lasts_sized program).stored_of_invoke sized proc io steps

end Machine

/-- **After every history, variables are as large as their layouts say.** -/
theorem History.sized {turns : List Turn} {host : Host} (history : History turns host) :
    host.store.Sized :=
  fun _ _ found => history.kept.sound.sized found

end ScopeMachine
