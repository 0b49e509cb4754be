import ScopeMachine.Proofs.Safety
import ScopeMachine.Proofs.Typing

/-! # Checked code conforms to the types

Each instruction that has passed the check of its operands keeps slots and frames to their types. It
finds the widths, windows and slots that were checked, so that it can only fail where the types
leave something open.

* there is one lemma for each way to reach a variable, from `Machine.Holds.keeps_readWord` to
  `Machine.Holds.keeps_storeRef`;
* `Machine.Allots.typed_execute` puts all instructions together;
* `Machine.Meets` is what is asked of a call, and `Machine.Meets.invoke` says what then holds of all
  its states, and of the fault in which it may end. -/

namespace ScopeMachine

namespace Machine

section
variable {module : Module} {typing : Typing module} {Mine : VarId → Prop} {base : Store}
  {machine : Machine} {instruction : Instruction}

/-! ### Words -/

section
variable {reg : RegId} {declared : DeclaredReg}

/-- A register that passes the check for a word. -/
theorem exists_of_checkWordReg (checked : module.checkWordReg reg = .ok ()) :
    ∃ declared, module.declaredReg reg = .ok declared ∧ wordBytes ≤ declared.bytes := by
  obtain ⟨declared, isDeclared, checked⟩ := bind_eq_ok.mp checked
  refine ⟨declared, isDeclared, ?_⟩
  unfold DeclaredReg.checkWord at checked
  split at checked
  next holds => exact of_decide_eq_true holds
  next => cases checked

/-- Where there is room for a word, only elements can be missing. -/
theorem Located.hasWord {id : VarId} {var : Variable}
    (located : Located typing Mine machine reg declared id var)
    (wide : wordBytes ≤ declared.bytes) : var.hasWord 0 = decide (0 < var.count) := by
  unfold Variable.hasWord
  rw [located.elementBytes, decide_eq_true wide, Bool.and_true]

/-- **Words are read**, unless there are no elements. -/
theorem Holds.keeps_readWord {α : Type} (typed : machine.Typed typing Mine base)
    (sound : machine.store.Sound) (checked : module.checkWordReg reg = .ok ())
    (member : reg ∈ instruction.accesses) {next : Int64 → Exec α}
    (keeps : ∀ word, readWord reg machine = .ok word machine →
      Keeps (Typed typing Mine base) (Strays module machine instruction) machine (next word)) :
    Keeps (Typed typing Mine base) (Strays module machine instruction) machine
      (readWord reg >>= next) := by
  obtain ⟨declared, isDeclared, wide⟩ := exists_of_checkWordReg checked
  refine keeps_of_sees (fun _ => True) typed ((typed.sees_named sound isDeclared).bind ?_) ?_
  · rintro ⟨id, var⟩ located
    refine sees_orError (fun _ _ => trivial) ?_
    intro none
    refine located.strays member ?_
    unfold Variable.word? at none
    rw [located.hasWord wide] at none
    simpa using none
  · intro word found _
    refine keeps word ?_
    unfold readWord
    rw [inspect_apply, found]

/-- **Words are written**, unless there are no elements. -/
theorem Holds.keeps_writeWord (typed : machine.Typed typing Mine base)
    (sound : machine.store.Sound) (checked : module.checkWordReg reg = .ok ())
    (member : reg ∈ instruction.accesses) (word : Int64) :
    Keeps (Typed typing Mine base) (Strays module machine instruction) machine
      (writeWord reg word) := by
  obtain ⟨declared, isDeclared, wide⟩ := exists_of_checkWordReg checked
  refine keeps_of_sees Mine typed ((typed.sees_named sound isDeclared).bind ?_) ?_
  · rintro ⟨id, var⟩ located
    dsimp only
    rw [located.hasWord wide]
    split
    next => exact located.mine
    next none =>
      rintro fault ⟨⟩
      exact located.strays member (by simpa using none)
  · intro id _ mine
    exact typed.keeps_writeBytes mine 0 0 (wordToBytes word)

/-- Words are combined. -/
theorem Holds.keeps_arithmetic {dst left right : RegId} (typed : machine.Typed typing Mine base)
    (sound : machine.store.Sound) (operation : Int64 → Int64 → Int64)
    (checked : (do
      module.checkWordReg dst
      module.checkWordReg left
      module.checkWordReg right) = .ok ())
    (members : ∀ reg ∈ [dst, left, right], reg ∈ instruction.accesses) :
    Keeps (Typed typing Mine base) (Strays module machine instruction) machine
      (arithmetic operation dst left right) := by
  obtain ⟨_, checkedDst, checked⟩ := bind_eq_ok.mp checked
  obtain ⟨_, checkedLeft, checkedRight⟩ := bind_eq_ok.mp checked
  refine typed.keeps_readWord sound checkedLeft (members left (by simp)) fun first _ => ?_
  refine typed.keeps_readWord sound checkedRight (members right (by simp)) fun second _ => ?_
  exact typed.keeps_writeWord sound checkedDst (members dst (by simp)) _

/-- Words are compared. -/
theorem Holds.keeps_compareWords {left right : RegId} (typed : machine.Typed typing Mine base)
    (sound : machine.store.Sound) (test : Int64 → Int64 → Bool)
    (checked : (do
      module.checkWordReg left
      module.checkWordReg right) = .ok ())
    (members : ∀ reg ∈ [left, right], reg ∈ instruction.accesses) :
    Keeps (Typed typing Mine base) (Strays module machine instruction) machine
      (compareWords test left right) := by
  obtain ⟨_, checkedLeft, checkedRight⟩ := bind_eq_ok.mp checked
  refine typed.keeps_readWord sound checkedLeft (members left (by simp)) fun first _ => ?_
  refine typed.keeps_readWord sound checkedRight (members right (by simp)) fun second _ => ?_
  exact keeps_ok rfl typed

/-! ### Bytes -/

/-- A register that passes the check for a width. -/
theorem exists_of_checkRegWidth {needed : Nat}
    (checked : module.checkRegWidth reg needed = .ok ()) :
    ∃ declared, module.declaredReg reg = .ok declared ∧ needed ≤ declared.bytes := by
  obtain ⟨declared, isDeclared, checked⟩ := bind_eq_ok.mp checked
  refine ⟨declared, isDeclared, ?_⟩
  unfold DeclaredReg.checkWidth at checked
  split at checked
  next wide => exact wide
  next => cases checked

/-- **Literals fit**, unless there are no elements. -/
theorem Holds.keeps_storeLiteral (typed : machine.Typed typing Mine base)
    (sound : machine.store.Sound) {literal : Array UInt8}
    (checked : module.checkRegWidth reg literal.size = .ok ())
    (member : reg ∈ instruction.accesses) :
    Keeps (Typed typing Mine base) (Strays module machine instruction) machine
      (storeLiteral reg literal) := by
  obtain ⟨declared, isDeclared, wide⟩ := exists_of_checkRegWidth checked
  refine keeps_of_sees Mine typed ((typed.sees_named sound isDeclared).bind ?_) ?_
  · rintro ⟨id, var⟩ located
    refine sees_unless (fun empty => located.strays member (beq_iff_eq.mp empty)) fun _ => ?_
    refine sees_unless (fun narrow => ?_) fun _ => located.mine
    rw [located.elementBytes] at narrow
    exact absurd wide (Nat.not_le_of_lt narrow)
  · intro id _ mine
    exact typed.keeps_writeBytes mine 0 0 literal

/-- Payloads are copied. -/
theorem Holds.keeps_copyBytes {dst src : RegId} (typed : machine.Typed typing Mine base)
    (sound : machine.store.Sound)
    (checked : (do
      module.checkRegWidth dst 1
      module.checkRegWidth src 1) = .ok ()) :
    Keeps (Typed typing Mine base) (Strays module machine instruction) machine
      (copyBytes dst src) := by
  obtain ⟨_, checkedDst, checkedSrc⟩ := bind_eq_ok.mp checked
  obtain ⟨target, isTarget, -⟩ := exists_of_checkRegWidth checkedDst
  obtain ⟨source, isSource, -⟩ := exists_of_checkRegWidth checkedSrc
  refine keeps_of_sees (fun copy => Mine copy.1) typed
    ((typed.sees_named sound isSource).bind ?_) ?_
  · rintro ⟨sourceId, sourceVar⟩ -
    refine (typed.sees_named sound isTarget).bind ?_
    rintro ⟨id, var⟩ located
    exact located.mine
  · rintro ⟨id, bytes⟩ _ mine
    exact typed.keeps_updateVar mine (fun var => var.revises_copyPayload bytes)
      fun _ found => (typed.store.slots mine found).copyPayload bytes

/-- A window that passes the check. -/
theorem le_of_checkWindow {offset width : Nat}
    (checked : declared.checkWindow offset width = .ok ()) : offset + width ≤ declared.bytes := by
  unfold DeclaredReg.checkWindow at checked
  split at checked
  next inside => exact inside
  next => cases checked

/-- There are bytes unless there are no elements, and as many as declared. -/
theorem Located.sees_bytes {id : VarId} {var : Variable}
    (located : Located typing Mine machine reg declared id var)
    (member : reg ∈ instruction.accesses) :
    Sees (Strays module machine instruction) (orError (missingElement reg 0 var) (var.bytes? 0))
      fun bytes => bytes.size = declared.bytes := by
  refine sees_orError ?_ ?_
  · intro bytes found
    rw [located.sized.size_bytes? found, located.elementBytes]
  · intro none
    refine located.strays member ?_
    unfold Variable.bytes? at none
    simpa using none

/-- **Bytes are loaded from within an element**, unless there are no elements. -/
theorem Holds.keeps_loadBytes {dst src : RegId} {offset : Nat}
    (typed : machine.Typed typing Mine base) (sound : machine.store.Sound)
    {target source : DeclaredReg} (isTarget : module.declaredReg dst = .ok target)
    (isSource : module.declaredReg src = .ok source)
    (checked : source.checkWindow offset target.bytes = .ok ())
    (members : ∀ reg ∈ [dst, src], reg ∈ instruction.accesses) :
    Keeps (Typed typing Mine base) (Strays module machine instruction) machine
      (loadBytes dst src offset) := by
  refine keeps_of_sees (fun copy => Mine copy.1) typed
    ((typed.sees_named sound isTarget).bind ?_) ?_
  · rintro ⟨id, var⟩ located
    refine (typed.sees_named sound isSource).bind ?_
    rintro ⟨sourceId, sourceVar⟩ locatedSource
    refine (locatedSource.sees_bytes (members src (by simp))).bind fun bytes size => ?_
    refine sees_unless (fun beyond => ?_) fun _ => ?_
    · have inside := le_of_checkWindow checked
      rw [size, ← locatedSource.elementBytes, Variable.beyond_partEnd_iff
        var.layout.elementBytes_lt sourceVar.layout.elementBytes_lt, located.elementBytes,
        locatedSource.elementBytes] at beyond
      exact absurd inside (Nat.not_le_of_lt beyond)
    · exact sees_unless (fun empty => located.strays (members dst (by simp)) (beq_iff_eq.mp empty))
        fun _ => located.mine
  · rintro ⟨id, bytes⟩ _ mine
    exact typed.keeps_writeBytes mine 0 0 bytes

/-- **Bytes are stored within an element**, unless there are no elements. -/
theorem Holds.keeps_storeBytes {dst src : RegId} {offset : Nat}
    (typed : machine.Typed typing Mine base) (sound : machine.store.Sound)
    {target source : DeclaredReg} (isTarget : module.declaredReg dst = .ok target)
    (isSource : module.declaredReg src = .ok source)
    (checked : target.checkWindow offset source.bytes = .ok ())
    (members : ∀ reg ∈ [dst, src], reg ∈ instruction.accesses) :
    Keeps (Typed typing Mine base) (Strays module machine instruction) machine
      (storeBytes dst offset src) := by
  refine keeps_of_sees (fun copy => Mine copy.1) typed
    ((typed.sees_named sound isSource).bind ?_) ?_
  · rintro ⟨sourceId, sourceVar⟩ locatedSource
    refine (locatedSource.sees_bytes (members src (by simp))).bind fun bytes size => ?_
    refine (typed.sees_named sound isTarget).bind ?_
    rintro ⟨id, var⟩ located
    refine sees_unless (fun empty => located.strays (members dst (by simp)) (beq_iff_eq.mp empty))
      fun _ => ?_
    refine sees_unless (fun beyond => ?_) fun _ => located.mine
    have inside := le_of_checkWindow checked
    rw [size, ← locatedSource.elementBytes, Variable.beyond_partEnd_iff
      sourceVar.layout.elementBytes_lt var.layout.elementBytes_lt, located.elementBytes,
      locatedSource.elementBytes] at beyond
    exact absurd inside (Nat.not_le_of_lt beyond)
  · rintro ⟨id, bytes⟩ _ mine
    exact typed.keeps_writeBytes mine 0 offset bytes

/-! ### Elements -/

/-- Types that pass the check for the same shape. -/
theorem sameShape_of_checkSameShape {other : DeclaredReg}
    (checked : declared.checkSameShape other = .ok ()) :
    declared.type.sameShape other.type = true := by
  unfold DeclaredReg.checkSameShape at checked
  split at checked
  next same => exact same
  next => cases checked

/-- The first element is missing only if there are none. -/
theorem Located.strays_first {id : VarId} {var : Variable}
    (located : Located typing Mine machine reg declared id var)
    (member : reg ∈ instruction.accesses) (outside : (0 : Int) < 0 ∨ (var.count : Int) ≤ 0) :
    Strays module machine instruction (.indexOutOfRange reg 0 var.count) :=
  located.strays member (by omega)

/-- The element that is copied to or from is missing only if its position is outside. -/
theorem Located.strays_position {id : VarId} {var : Variable} {position : RegId} {word : Int64}
    (located : Located typing Mine machine reg declared id var)
    (copies : (∃ dst, instruction = .lde dst reg position) ∨
      ∃ src, instruction = .ste reg position src)
    (read : readWord position machine = .ok word machine)
    (outside : word.toInt < 0 ∨ (var.count : Int) ≤ word.toInt) :
    Strays module machine instruction (.indexOutOfRange reg word.toInt var.count) :=
  ⟨id, var, located.named, rfl, .inl ⟨position, word, copies, read, rfl, outside⟩⟩

/-- An element is copied, unless its position is outside. -/
theorem Holds.sees_elementAt (typed : machine.Typed typing Mine base) (sound : machine.store.Sound)
    (isDeclared : module.declaredReg reg = .ok declared) {index : Int}
    (strays : ∀ id var, Located typing Mine machine reg declared id var →
      (index < 0 ∨ (var.count : Int) ≤ index) →
        Strays module machine instruction (.indexOutOfRange reg index var.count)) :
    Sees (Strays module machine instruction) (elementAt reg index machine) fun element =>
      ∃ id var position, Located typing Mine machine reg declared id var ∧
        var.element? position = some element := by
  refine (typed.sees_named sound isDeclared).bind ?_
  rintro ⟨id, var⟩ located
  refine sees_orError ?_ ?_
  · intro element copied
    obtain ⟨position, -, isElement⟩ := Option.bind_eq_some_iff.mp copied
    exact ⟨id, var, position, located, isElement⟩
  · intro missing
    refine strays id var located ?_
    cases index with
    | negSucc below => exact .inl (Int.negSucc_lt_zero below)
    | ofNat position =>
        replace missing : var.element? position = none := missing
        refine .inr (Int.ofNat_le.mpr (Nat.le_of_not_lt ?_))
        intro inside
        rw [Variable.element?_eq inside] at missing
        cases missing

/-- An element of the same shape is stored, unless its position is outside. -/
theorem Holds.keeps_storeElementAt {src : RegId} {source : DeclaredReg} {sourceId : VarId}
    {sourceVar : Variable} {position : Nat} {element : Element} {index : Int}
    (typed : machine.Typed typing Mine base) (sound : machine.store.Sound)
    (isDeclared : module.declaredReg reg = .ok declared)
    (locatedSource : Located typing Mine machine src source sourceId sourceVar)
    (same : declared.type.sameShape source.type = true)
    (copied : sourceVar.element? position = some element)
    (strays : ∀ id var, Located typing Mine machine reg declared id var →
      (index < 0 ∨ (var.count : Int) ≤ index) →
        Strays module machine instruction (.indexOutOfRange reg index var.count)) :
    Keeps (Typed typing Mine base) (Strays module machine instruction) machine
      (storeElementAt reg index element) := by
  refine keeps_of_sees
    (fun id => ∃ var, Located typing Mine machine reg declared id var) typed
    ((typed.sees_named sound isDeclared).bind ?_) ?_
  · rintro ⟨id, var⟩ located
    replace located : Located typing Mine machine reg declared id var := located
    have fits := locatedSource.sized.fits_of_same (located.sameShape locatedSource same) copied
    dsimp only
    split
    next => exact ⟨var, located⟩
    next outside =>
      rintro fault ⟨⟩
      refine strays id var located ?_
      rw [fits, decide_eq_true_eq] at outside
      omega
  · rintro id _ ⟨var, located⟩
    refine typed.keeps_updateVar located.mine
      (fun var => var.revises_putElement _ fun _ _ => trivial) ?_
    intro other found
    obtain rfl : var = other := Option.some.inj (located.found.symm.trans found)
    refine located.slots.putElement locatedSource.slots ?_ copied _
    rw [located.ownedRefs, locatedSource.ownedRefs]
    exact (VarType.sameShape_iff.mp same).2.1

/-- **Elements are moved between registers of the same shape**, unless the position is outside. -/
theorem Holds.keeps_lde {dst src position : RegId} (typed : machine.Typed typing Mine base)
    (sound : machine.store.Sound) (checked : module.checkOperands (.lde dst src position) = .ok ())
    (program : Program) (pc : Nat) :
    Keeps (Typed typing Mine base) (Strays module machine (.lde dst src position)) machine
      (execute program (.lde dst src position) pc) := by
  obtain ⟨target, isTarget, checked⟩ := bind_eq_ok.mp checked
  obtain ⟨source, isSource, checked⟩ := bind_eq_ok.mp checked
  obtain ⟨_, same, isWord⟩ := bind_eq_ok.mp checked
  replace same := sameShape_of_checkSameShape same
  have members : ∀ reg ∈ [dst, src, position], reg ∈ (Instruction.lde dst src position).accesses :=
    fun _ member => member
  refine typed.keeps_readWord sound isWord (members position (by simp)) fun index read => ?_
  refine keeps_of_sees _ typed (typed.sees_elementAt sound isSource ?_) ?_
  · intro id var located outside
    exact located.strays_position (.inl ⟨dst, rfl⟩) read outside
  · rintro element - ⟨id, var, place, located, copied⟩
    refine (typed.keeps_storeElementAt sound isTarget located same copied ?_).bind_pure
    intro targetId targetVar locatedTarget outside
    exact locatedTarget.strays_first (members dst (by simp)) outside

/-- **Elements are moved between registers of the same shape**, unless the position is outside. -/
theorem Holds.keeps_ste {dst position src : RegId} (typed : machine.Typed typing Mine base)
    (sound : machine.store.Sound) (checked : module.checkOperands (.ste dst position src) = .ok ())
    (program : Program) (pc : Nat) :
    Keeps (Typed typing Mine base) (Strays module machine (.ste dst position src)) machine
      (execute program (.ste dst position src) pc) := by
  obtain ⟨target, isTarget, checked⟩ := bind_eq_ok.mp checked
  obtain ⟨source, isSource, checked⟩ := bind_eq_ok.mp checked
  obtain ⟨_, same, isWord⟩ := bind_eq_ok.mp checked
  replace same := sameShape_of_checkSameShape same
  have members : ∀ reg ∈ [dst, position, src], reg ∈ (Instruction.ste dst position src).accesses :=
    fun _ member => member
  refine typed.keeps_readWord sound isWord (members position (by simp)) fun index read => ?_
  refine keeps_of_sees _ typed (typed.sees_elementAt sound isSource ?_) ?_
  · intro id var located outside
    exact located.strays_first (members src (by simp)) outside
  · rintro element - ⟨id, var, place, located, copied⟩
    refine (typed.keeps_storeElementAt sound isTarget located same copied ?_).bind_pure
    intro targetId targetVar locatedTarget outside
    exact locatedTarget.strays_position (.inr ⟨src, rfl⟩) read outside

/-! ### References -/

/-- A slot that passes the check. -/
theorem ownedRefs_of_checkSlot {slot : Nat} {referent : DeclaredReg}
    (checked : declared.checkSlot slot referent = .ok ()) :
    declared.type.ownedRefs[slot]? = some referent.spec.vtype := by
  unfold DeclaredReg.checkSlot at checked
  split at checked
  next held isHeld =>
    split at checked
    next same => rw [isHeld, same]
    next => cases checked
  next => cases checked

/-- **References are loaded into registers of their types**, unless there are no elements. -/
theorem Holds.keeps_loadRef {dst src : RegId} {slot : Nat} {target owner : DeclaredReg}
    (typed : machine.Typed typing Mine base) (sound : machine.store.Sound)
    (isTarget : module.declaredReg dst = .ok target) (isOwner : module.declaredReg src = .ok owner)
    (checked : owner.checkSlot slot target = .ok ()) (member : src ∈ instruction.accesses) :
    Keeps (Typed typing Mine base) (Strays module machine instruction) machine
      (loadRef dst src slot) := by
  refine keeps_of_sees
    (fun referent => ∀ id, referent = some id →
      machine.store.Suits typing Mine target.spec.vtype id) typed
    ((typed.sees_named sound isOwner).bind ?_) ?_
  · rintro ⟨ownerId, var⟩ located
    refine sees_unless (fun empty => located.strays member (beq_iff_eq.mp empty)) fun _ => ?_
    intro id isReferent
    refine located.slots.ownedRef? isReferent ?_
    rw [located.ownedRefs]
    exact ownedRefs_of_checkSlot checked
  · intro referent _ suits
    refine (keeps_rebind typed ?_).discard
    intro id isReferent spec isSpec
    obtain rfl : target.spec = spec :=
      Option.some.inj ((declaredReg_eq_ok isTarget).1.symm.trans isSpec)
    exact suits id isReferent

/-- **References are stored in slots of their types**, unless there are no elements. -/
theorem Holds.keeps_storeRef {dst src : RegId} {slot : Nat} {owner referent : DeclaredReg}
    (typed : machine.Typed typing Mine base) (sound : machine.store.Sound)
    (isOwner : module.declaredReg dst = .ok owner)
    (isReferent : module.declaredReg src = .ok referent)
    (checked : owner.checkSlot slot referent = .ok ()) (member : dst ∈ instruction.accesses) :
    Keeps (Typed typing Mine base) (Strays module machine instruction) machine
      (storeRef dst slot src) := by
  have held := ownedRefs_of_checkSlot checked
  have inside : slot < owner.type.ownedRefs.size := (Array.getElem?_eq_some_iff.mp held).1
  have isTop : Sees (Strays module machine instruction) (machine.registers.top src) fun frame =>
      ∀ id, frame = some id → machine.store.Suits typing Mine referent.spec.vtype id := by
    cases isTop : machine.registers.top src with
    | ok frame =>
        intro id isFrame
        exact typed.frames (mem_of_top isTop isFrame) _ (declaredReg_eq_ok isReferent).1
    | error error =>
        rintro fault rfl
        unfold RegisterFile.top RegisterFile.frames at isTop
        cases found : machine.registers.byReg[src.index]? with
        | none => rw [found] at isTop; cases isTop
        | some frames => rw [found] at isTop; cases isTop
  refine keeps_of_sees
    (fun store => (∃ var, Located typing Mine machine dst owner store.1 var) ∧
      ∀ id, store.2 = some id → machine.store.Suits typing Mine referent.spec.vtype id) typed
    (isTop.bind ?_) ?_
  · intro frame suits
    refine (typed.sees_named sound isOwner).bind ?_
    rintro ⟨id, var⟩ located
    refine sees_unless (fun none => located.strays member ?_) fun _ => ⟨⟨var, located⟩, suits⟩
    unfold Variable.ownedIndex? Layout.ownedWidth at none
    rw [located.ownedRefs] at none
    simpa [inside] using none
  · rintro ⟨id, frame⟩ _ ⟨⟨var, located⟩, suits⟩
    refine typed.keeps_updateVar located.mine
      (fun var => var.revises_putOwnedRef 0 slot fun _ _ => trivial) ?_
    intro other found
    obtain rfl : var = other := Option.some.inj (located.found.symm.trans found)
    refine located.slots.putOwnedRef ?_ ?_
    · intro referentId isFrame vtype declared
      rw [located.ownedRefs, held] at declared
      cases declared
      exact suits referentId isFrame
    · unfold Layout.ownedWidth
      rw [located.ownedRefs]
      exact inside

end

/-! ### Instructions -/

variable {program : Program}

/-- Words have eight bytes, of which the first can be taken. -/
theorem size_take_wordToBytes (word : Int64) {width : Nat} (short : width ≤ 8) :
    ((wordToBytes word).take width).size = width := by
  simp [wordToBytes, short]

/-- **Every checked instruction that works on variables keeps to the types**, or has one of the
faults that remain. -/
theorem Holds.keeps_works (typed : machine.Typed typing Mine base) (sound : machine.store.Sound)
    (checked : module.checkOperands instruction = .ok ()) (works : instruction.conduct = .works)
    (pc : Nat) :
    Keeps (Typed typing Mine base) (Strays module machine instruction) machine
      (execute program instruction pc) := by
  cases instruction with
  | inc reg | dec reg =>
      refine typed.keeps_readWord sound checked List.mem_cons_self fun word _ => ?_
      exact (typed.keeps_writeWord sound checked List.mem_cons_self _).bind_pure
  | add dst left right | sub dst left right | mul dst left right =>
      refine (typed.keeps_arithmetic sound _ checked ?_).bind_pure
      exact fun _ member => member
  | cpi1 dst literal | cpi2 dst literal | cpi4 dst literal =>
      refine (typed.keeps_storeLiteral sound ?_ List.mem_cons_self).bind_pure
      rw [size_take_wordToBytes _ (by decide)]
      exact checked
  | cpi8 dst literal =>
      refine (typed.keeps_storeLiteral sound ?_ List.mem_cons_self).bind_pure
      exact checked
  | jz reg offset | jnz reg offset | jgz reg offset | jngz reg offset =>
      refine typed.keeps_readWord sound checked List.mem_cons_self fun word _ => ?_
      exact keeps_jumpWhen typed _ _ pc
  | jg left right offset | jng left right offset | je left right offset =>
      refine (typed.keeps_compareWords sound _ checked ?_).bind ?_
      · exact fun _ member => member
      · intro taken after _ typed
        exact keeps_jumpWhen typed taken _ pc
  | jmp offset => exact keeps_jumpWhen typed _ _ pc
  | cpb dst src => exact (typed.keeps_copyBytes sound checked).bind_pure
  | lde dst src position => exact typed.keeps_lde sound checked program pc
  | ste dst position src => exact typed.keeps_ste sound checked program pc
  | ldb dst src offset =>
      obtain ⟨target, isTarget, checked⟩ := bind_eq_ok.mp checked
      obtain ⟨source, isSource, checked⟩ := bind_eq_ok.mp checked
      refine (typed.keeps_loadBytes sound isTarget isSource checked ?_).bind_pure
      exact fun _ member => member
  | stb dst offset src =>
      obtain ⟨target, isTarget, checked⟩ := bind_eq_ok.mp checked
      obtain ⟨source, isSource, checked⟩ := bind_eq_ok.mp checked
      refine (typed.keeps_storeBytes sound isTarget isSource checked ?_).bind_pure
      exact fun _ member => member
  | str dst slot src =>
      obtain ⟨owner, isOwner, checked⟩ := bind_eq_ok.mp checked
      obtain ⟨referent, isReferent, checked⟩ := bind_eq_ok.mp checked
      exact (typed.keeps_storeRef sound isOwner isReferent checked List.mem_cons_self).bind_pure
  | _ => cases works

/-- The error register holds a word. -/
theorem checkWordReg_error (wellFormed : module.WellFormed) :
    module.checkWordReg RegId.error = .ok () := by
  have isDeclared : module.declaredReg RegId.error =
      .ok ⟨RegId.error, RegSpec.error, VarType.word⟩ := by
    refine bind_eq_ok.mpr ⟨RegSpec.error, orError_eq_ok.mpr wellFormed.error, ?_⟩
    exact bind_eq_ok.mpr ⟨VarType.word, orError_eq_ok.mpr wellFormed.word, rfl⟩
  exact bind_eq_ok.mpr ⟨_, isDeclared, rfl⟩

/-- Variables of the declared types can be allocated. -/
theorem allots_typed (compiles : Compiles module program) (wellFormed : module.WellFormed)
    (persistents : ∀ {reg : RegId} {slot : RegSlot} {spec : RegSpec} {id : VarId},
      program.regs[reg.index]? = some slot → slot.persistent = some id →
        module.reg? reg = some spec → base.Suits typing Mine spec.vtype id) :
    Allots (Store.Typed typing Mine base)
      (fun store reg id => ∀ spec, module.reg? reg = some spec →
        store.Suits typing Mine spec.vtype id) program where
  fresh := by
    intro store reg slot typed found
    have ages := store.ages_insert slot.fresh
    refine ⟨typed.insert fun holds => Variable.slotsHold_zeroed _ _, ?_, ?_⟩
    · intro spec isSpec
      obtain ⟨other, isOther, resolves⟩ := compiles.reg found
      obtain rfl : other = spec := Option.some.inj (isOther.symm.trans isSpec)
      refine ⟨typed.fresh (Nat.le_refl _), ?_, ?_⟩
      · rw [Slots.next_insert]
        exact Nat.lt_succ_self _
      · intro var isFresh
        rw [Slots.get?_insert, if_pos rfl] at isFresh
        cases isFresh
        rw [← resolves.vtype]
        exact typing.made (compiles.makes wellFormed (Array.mem_of_getElem? found))
    · intro other id suits spec isSpec
      exact (suits spec isSpec).of_ages ages
  persistent := by
    intro store reg slot id typed found persistent spec isSpec
    exact (persistents found persistent isSpec).of_ages typed.ages

/-- **Every checked instruction keeps to the types**, or has one of the faults that remain. -/
theorem Allots.typed_execute
    (allots : Allots (Store.Typed typing Mine base)
      (fun store reg id => ∀ spec, module.reg? reg = some spec →
        store.Suits typing Mine spec.vtype id) program)
    (wellFormed : module.WellFormed) (typed : machine.Typed typing Mine base)
    (sound : machine.store.Sound) (checked : module.checkOperands instruction = .ok ()) (pc : Nat) :
    Keeps (Typed typing Mine base) (Strays module machine instruction) machine
      (execute program instruction pc) := by
  refine allots.keeps_execute typed instruction pc ?_ ?_ ?_
  · intro works
    exact typed.keeps_works sound checked works pc
  · rintro dst src slot rfl
    obtain ⟨target, isTarget, checked⟩ := bind_eq_ok.mp checked
    obtain ⟨_, -, checked⟩ := bind_eq_ok.mp checked
    obtain ⟨owner, isOwner, checked⟩ := bind_eq_ok.mp checked
    refine typed.keeps_loadRef sound isTarget isOwner checked ?_
    exact List.mem_cons_of_mem _ List.mem_cons_self
  · rintro rfl
    refine typed.keeps_readWord sound (checkWordReg_error wellFormed) List.mem_cons_self
      fun word _ => ?_
    refine keeps_error rfl typed ?_
    rintro fault ⟨⟩
    trivial

/-! ### Calls -/

/-- The instruction that a machine carries out next may have a fault. -/
def StraysNext (module : Module) (program : Program) (machine : Machine) (fault : ExecFault) :
    Prop :=
  ∀ instruction pc, current program machine = .ok (instruction, pc) →
    Strays module machine instruction fault

/-- The current instruction is one of the code of a procedure. -/
theorem exists_of_current {pc : Nat} (isCurrent : current program machine = .ok (instruction, pc)) :
    ∃ (proc : ProcId) (code : ProcCode), program.procs[proc.index.toNat]? = some code ∧
      code.code[pc]? = some instruction := by
  unfold current at isCurrent
  cases top : machine.calls.top? with
  | none =>
      rw [top] at isCurrent
      cases isCurrent
  | some activation =>
      rw [top] at isCurrent
      obtain ⟨code, isCode, isCurrent⟩ := bind_eq_ok.mp isCurrent
      obtain ⟨found, isFound, isCurrent⟩ := bind_eq_ok.mp isCurrent
      cases isCurrent
      exact ⟨activation.proc, code, orError_eq_ok.mp isCode, orError_eq_ok.mp isFound⟩

/-- What is asked of a call: the program is that of a well-formed module, everything that it can
reach is ours, and the slots, the argument and the persistent registers hold variables of their
types. -/
structure Meets (module : Module) (typing : Typing module) (Mine : VarId → Prop) (program : Program)
    (proc : ProcId) (io : VarId) (store : Store) : Prop where
  /-- The program is that of the module. -/
  compiles : Compiles module program
  /-- The module is well-formed. -/
  wellFormed : module.WellFormed
  /-- The store is sound. -/
  sound : store.Sound
  /-- The slots hold variables of their types. -/
  typed : Store.Typed typing Mine store store
  /-- The argument is there. -/
  io_found : (store.get? io).isSome = true
  /-- It is one of the type of its register, if the call is allowed. -/
  io_suits : ∀ entry, checkCall program proc io store = .ok entry →
    ∀ spec, module.reg? entry.io = some spec → store.Suits typing Mine spec.vtype io
  /-- The storage of persistent registers is there. -/
  persistents : ∀ id ∈ program.persistents, (store.get? id).isSome = true
  /-- It is of their types. -/
  persistents_suit : ∀ {reg : RegId} {slot : RegSlot} {spec : RegSpec} {id : VarId},
    program.regs[reg.index]? = some slot → slot.persistent = some id →
      module.reg? reg = some spec → store.Suits typing Mine spec.vtype id

/-- What holds of a machine during a call that meets this. -/
structure Conforms (typing : Typing module) (Mine : VarId → Prop) (program : Program)
    (base : Store) (machine : Machine) : Prop where
  /-- The store is sound, and frames lead to variables. -/
  sound : machine.Sound program base
  /-- Slots and frames hold variables of their types. -/
  typed : machine.Typed typing Mine base

/-- **Every call keeps to the types.** At every time slots and frames hold variables of their types,
and if an execution ends in a fault, this is for too many calls or one of the faults that remain for
the instruction that it was about to carry out. -/
theorem Meets.invoke {proc : ProcId} {io : VarId} {store : Store}
    (meets : Meets module typing Mine program proc io store) (steps : Nat) :
    Conforms typing Mine program store (invoke program proc io steps store).1 ∧
    ∀ fault, (invoke program proc io steps store).2 = .failed (.execution fault) →
      (∃ limit, fault = .callDepthExceeded limit) ∨
      ∃ taken earlier, taken < steps ∧
        invoke program proc io taken store = (earlier, .running) ∧
        Stumbles (Conforms typing Mine program store) (StraysNext module program) program fault
          earlier := by
  have allots := allots_typed meets.compiles meets.wellFormed meets.persistents_suit
  have each : ∀ machine : Machine, Conforms typing Mine program store machine →
      Keeps (Conforms typing Mine program store) (StraysNext module program machine) machine
        (step program) := by
    rintro machine ⟨sound, typed⟩
    refine (sound_step meets.persistents sound).and (keeps_step typed program ?_ ?_) .mk
    · intro limit instruction pc _
      trivial
    · intro instruction pc isCurrent
      obtain ⟨_, code, found, isThere⟩ := exists_of_current isCurrent
      have checked := meets.compiles.checkOperands meets.wellFormed found isThere
      refine (allots.typed_execute meets.wellFormed typed sound.store.sound checked pc).mono ?_
      intro fault strays other otherPc isOther
      rw [isCurrent] at isOther
      cases isOther
      exact strays
  refine keeps_invoke each
    ⟨holds_idle program (meets.sound.grows program), holds_idle program meets.typed⟩ ?_ ?_ steps
  · intro entry allowed
    refine (keeps_prepare_sound meets.sound meets.persistents meets.io_found entry).and
      (allots.keeps_prepare (holds_idle program meets.typed) ?_) .mk
    intro other typed spec isSpec
    exact (meets.io_suits entry allowed spec isSpec).of_ages typed.ages
  · rintro machine ⟨sound, typed⟩
    exact (keeps_enter sound program proc fun _ => trivial).and
      (keeps_enter typed program proc fun limit => ⟨limit, rfl⟩) .mk

end

end Machine

end ScopeMachine
