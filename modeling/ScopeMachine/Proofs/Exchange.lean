import ScopeMachine.Module.Json
import ScopeMachine.Proofs.Texts

/-! # The exchange form of a module

A module is read back from its exchange form exactly as it was, whatever its counts, bytes and
flags, and from both written forms of it. Read as a module is only what names registers by numbers
of 14 bits and flags by texts that list flags.

* `Module.ofJson?_toJson` is the round trip through values, and `Module.exact_toJson` says that the
  values can be written;
* `Module.Worded` is the condition on registers and flags, and `Module.worded_of_ofJson?` says that
  it is necessary. -/

namespace ScopeMachine

/-! ### Parts -/

namespace Json

/-- A natural number below a bound is read back. -/
theorem natBelow?_nat {bound value : Nat} (below : value < bound) :
    (nat value).natBelow? bound = some value := by
  show (if (0 : Int) ≤ value ∧ (value : Int) < bound then some (value : Int).toNat else none) = _
  rw [if_pos ⟨by omega, by omega⟩]
  rfl

/-- A 32-bit number is read back. -/
theorem uint32?_ofUInt32 (value : UInt32) : (ofUInt32 value).uint32? = some value := by
  rw [uint32?, ofUInt32, natBelow?_nat value.toNat_lt, Option.map_some, UInt32.ofNat_toNat]

/-- A byte is read back. -/
theorem byte?_nat (byte : UInt8) : (nat byte.toNat).byte? = some byte := by
  rw [byte?, natBelow?_nat byte.toNat_lt, Option.map_some, UInt8.ofNat_toNat]

/-- An array is read back if its items are. -/
theorem array?_map {α : Type} {toJson : α → Json} {item? : Json → Option α}
    (reads : ∀ item, item? (toJson item) = some item) (items : Array α) :
    (arr (items.toList.map toJson)).array? item? = some items := by
  have all : (items.toList.map toJson).mapM item? = some (items.toList.map id) := by
    rw [List.mapM_map]
    exact mapM_eq_some_map fun item _ => reads item
  rw [List.map_id] at all
  show ((items.toList.map toJson).mapM item?).map List.toArray = _
  rw [all]
  rfl

/-- Bytes are read back. -/
theorem array?_ofBytes (bytes : Array UInt8) : (ofBytes bytes).array? byte? = some bytes :=
  array?_map byte?_nat bytes

/-- A natural number of 64 bits can be written. -/
theorem exact_nat {value : Nat} (fits : value < UInt64.size) : Exact (nat value) := by
  refine .int ?_ (Int.ofNat_lt.mpr fits)
  have least : Int64.minValue.toInt = -9223372036854775808 := by decide
  omega

/-- A 32-bit number can be written. -/
theorem exact_ofUInt32 (value : UInt32) : Exact (ofUInt32 value) :=
  exact_nat (Nat.lt_trans value.toNat_lt (by decide))

/-- An array can be written if its items can. -/
theorem exact_map {α : Type} {toJson : α → Json} (exact : ∀ item, Exact (toJson item))
    (items : List α) : Exact (arr (items.map toJson)) := by
  refine .arr fun json mem => ?_
  obtain ⟨item, -, rfl⟩ := List.mem_map.mp mem
  exact exact item

/-- Bytes can be written. -/
theorem exact_ofBytes (bytes : Array UInt8) : Exact (ofBytes bytes) :=
  exact_map (fun byte => exact_nat (Nat.lt_trans byte.toNat_lt (by decide))) bytes.toList

end Json

/-- A register is read back. -/
theorem RegId.ofJson?_toJson (reg : RegId) : ofJson? reg.toJson = some reg := by
  have fits : reg.index < UInt32.size := Nat.lt_of_le_of_lt reg.index_le (by decide)
  rw [ofJson?, toJson, Json.natBelow?_nat fits, Option.bind_some, ofIndex?, dif_pos reg.index_le]

/-- Flags are read back. -/
theorem Flags.ofJson?_toJson {kind : FlagKind} (flags : Flags kind) :
    ofJson? flags.toJson = some flags := by
  rw [ofJson?, toJson, Json.str?, Option.bind_some, parse?_text]

/-- An identity is read back. -/
theorem ModuleId.ofJson?_toJson (id : ModuleId) : ofJson? id.toJson = some id := by
  rw [ofJson?, toJson, Json.str?, Option.bind_some, parse?_text]

/-! ### Table entries -/

/-- A variable type is read from the values of its record. -/
theorem VarType.ofJson?_of_record {json count bytes owned native : Json} {type : VarType}
    (record : json.record? ["element_count", "element_bytes", "owned_refs", "native_refs"] =
      some [some count, some bytes, some owned, some native])
    (isCount : count.uint32? = some type.elementCount)
    (isBytes : bytes.uint32? = some type.elementBytes)
    (isOwned : owned.array? (fun id => id.uint32?.map VarTypeId.mk) = some type.ownedRefs)
    (isNative : native.array? (fun id => id.uint32?.map ProcTypeId.mk) = some type.nativeRefs) :
    ofJson? json = some type := by
  rw [ofJson?, record]
  simp [isCount, isBytes, isOwned, isNative]

/-- A variable type is read back. -/
theorem VarType.ofJson?_toJson (type : VarType) : ofJson? type.toJson = some type := by
  refine ofJson?_of_record rfl (Json.uint32?_ofUInt32 _) (Json.uint32?_ofUInt32 _)
    (Json.array?_map (fun id => ?_) _) (Json.array?_map (fun id => ?_) _)
  all_goals rw [Json.uint32?_ofUInt32, Option.map_some]

/-- A procedure type is read back. -/
theorem ProcType.ofJson?_toJson (type : ProcType) : ofJson? type.toJson = some type := by
  have record : type.toJson.record? ["flags", "io"] =
      some [some type.flags.toJson, some type.io.toJson] := rfl
  rw [ofJson?, record]
  simp [Flags.ofJson?_toJson, RegId.ofJson?_toJson]

/-- A register's declaration is read from the values of its record. -/
theorem RegSpec.ofJson?_of_record {json vtype count flags : Json} {init : Option Json}
    {spec : RegSpec} (record : json.record? ["vtype", "count", "flags", "init"] =
      some [some vtype, some count, some flags, init])
    (isType : vtype.uint32? = some spec.vtype.index) (isCount : count.uint32? = some spec.count)
    (areFlags : Flags.ofJson? flags = some spec.flags)
    (isPayload : initOfJson? init = some spec.init) : ofJson? json = some spec := by
  rw [ofJson?, record]
  simp [isType, isCount, areFlags, isPayload]

/-- A register's declaration is read back; no payload is told from an empty one. -/
theorem RegSpec.ofJson?_toJson (spec : RegSpec) : ofJson? spec.toJson = some spec := by
  obtain ⟨vtype, count, flags, init⟩ := spec
  cases init with
  | none =>
      exact ofJson?_of_record rfl (Json.uint32?_ofUInt32 _) (Json.uint32?_ofUInt32 _)
        (Flags.ofJson?_toJson flags) rfl
  | some bytes =>
      exact ofJson?_of_record rfl (Json.uint32?_ofUInt32 _) (Json.uint32?_ofUInt32 _)
        (Flags.ofJson?_toJson flags) (congrArg (Option.map some) (Json.array?_ofBytes bytes))

/-- A procedure is read from the values of its record. -/
theorem ProcDef.ofJson?_of_record {json flags ptype code count : Json} {proc : ProcDef}
    (record : json.record? ["flags", "ptype", "code", "instr_count"] =
      some [some flags, some ptype, some code, some count])
    (areFlags : Flags.ofJson? flags = some proc.flags)
    (isType : ptype.uint32? = some proc.ptype.index)
    (isCode : code.array? Json.byte? = some proc.code)
    (isCount : count.uint32? = some proc.instrCount) : ofJson? json = some proc := by
  rw [ofJson?, record]
  simp [areFlags, isType, isCode, isCount]

/-- A procedure is read back. -/
theorem ProcDef.ofJson?_toJson (proc : ProcDef) : ofJson? proc.toJson = some proc :=
  ofJson?_of_record rfl (Flags.ofJson?_toJson _) (Json.uint32?_ofUInt32 _)
    (Json.array?_ofBytes _) (Json.uint32?_ofUInt32 _)

/-! ### Modules -/

namespace Module

/-- **A module is read back from its exchange form.** -/
theorem ofJson?_toJson (module : Module) : ofJson? module.toJson = some module := by
  have record : module.toJson.record? ["id", "vtypes", "ptypes", "regs", "procs"] =
      some [some module.id.toJson, some (.arr (module.vtypes.toList.map VarType.toJson)),
        some (.arr (module.ptypes.toList.map ProcType.toJson)),
        some (.arr (module.regs.toList.map RegSpec.toJson)),
        some (.arr (module.procs.toList.map ProcDef.toJson))] := rfl
  rw [ofJson?, record]
  simp [ModuleId.ofJson?_toJson, Json.array?_map VarType.ofJson?_toJson,
    Json.array?_map ProcType.ofJson?_toJson, Json.array?_map RegSpec.ofJson?_toJson,
    Json.array?_map ProcDef.ofJson?_toJson]

end Module

/-! ### Written forms -/

/-- A variable type can be written. -/
theorem VarType.exact_toJson (type : VarType) : type.toJson.Exact := by
  refine .obj ?_
  simp only [List.forall_mem_cons]
  exact ⟨Json.exact_ofUInt32 _, Json.exact_ofUInt32 _,
    Json.exact_map (fun _ => Json.exact_ofUInt32 _) _,
    Json.exact_map (fun _ => Json.exact_ofUInt32 _) _, List.forall_mem_nil _⟩

/-- A procedure type can be written. -/
theorem ProcType.exact_toJson (type : ProcType) : type.toJson.Exact := by
  have fits : type.io.index < UInt64.size := Nat.lt_of_le_of_lt type.io.index_le (by decide)
  refine .obj ?_
  simp only [List.forall_mem_cons]
  exact ⟨.str _, Json.exact_nat fits, List.forall_mem_nil _⟩

/-- A register's declaration can be written. -/
theorem RegSpec.exact_toJson (spec : RegSpec) : spec.toJson.Exact := by
  refine .obj ?_
  simp only [List.cons_append, List.nil_append, List.forall_mem_cons]
  refine ⟨Json.exact_ofUInt32 _, Json.exact_ofUInt32 _, .str _, ?_⟩
  cases spec.init with
  | none => exact List.forall_mem_nil _
  | some bytes => exact List.forall_mem_singleton.mpr (Json.exact_ofBytes bytes)

/-- A procedure can be written. -/
theorem ProcDef.exact_toJson (proc : ProcDef) : proc.toJson.Exact := by
  refine .obj ?_
  simp only [List.forall_mem_cons]
  exact ⟨.str _, Json.exact_ofUInt32 _, Json.exact_ofBytes _, Json.exact_ofUInt32 _,
    List.forall_mem_nil _⟩

/-- **The exchange form of a module can be written.** -/
theorem Module.exact_toJson (module : Module) : module.toJson.Exact := by
  refine .obj ?_
  simp only [List.forall_mem_cons]
  exact ⟨.str _, Json.exact_map VarType.exact_toJson _, Json.exact_map ProcType.exact_toJson _,
    Json.exact_map RegSpec.exact_toJson _, Json.exact_map ProcDef.exact_toJson _,
    List.forall_mem_nil _⟩

/-! ### What can be read -/

section
variable (IsItem : FlagKind → List Char → Prop)

/-- The record of a procedure type names its register by a number of 14 bits, and its flags by a
text that lists them. -/
def ProcType.Worded (json : Json) : Prop :=
  ∃ flags io, json.record? ["flags", "io"] = some [some (.str flags), some (.int io)] ∧
    0 ≤ io ∧ io ≤ RegId.maxIndex ∧ Flags.Listed (IsItem .procType) flags.toList

/-- The record of a register names its flags by a text that lists them. -/
def RegSpec.Worded (json : Json) : Prop :=
  ∃ vtype count flags init, json.record? ["vtype", "count", "flags", "init"] =
    some [vtype, count, some (.str flags), init] ∧
      Flags.Listed (IsItem .register) flags.toList

/-- The record of a procedure names its flags by a text that lists them. -/
def ProcDef.Worded (json : Json) : Prop :=
  ∃ flags ptype code count, json.record? ["flags", "ptype", "code", "instr_count"] =
    some [some (.str flags), ptype, code, count] ∧ Flags.Listed (IsItem .proc) flags.toList

/-- The record of a module, in which every procedure type names its register by a number of 14 bits
and every flag text lists flags. -/
def Module.Worded (json : Json) : Prop :=
  ∃ id vtypes ptypes regs procs, json.record? ["id", "vtypes", "ptypes", "regs", "procs"] =
    some [id, vtypes, some (.arr ptypes), some (.arr regs), some (.arr procs)] ∧
      (∀ entry ∈ ptypes, ProcType.Worded IsItem entry) ∧
      (∀ entry ∈ regs, RegSpec.Worded IsItem entry) ∧
      ∀ entry ∈ procs, ProcDef.Worded IsItem entry

end

/-- What may stand between bars in a flag text. -/
def Flags.IsItem (kind : FlagKind) (item : List Char) : Prop := ∃ bits, Flags.Item kind item bits

/-- What is read as an array is one, and so are its items what they are read as. -/
theorem Json.arr_of_array? {α : Type} {item? : Json → Option α} {json : Json} {values : Array α}
    (read : json.array? item? = some values) :
    ∃ items, json = .arr items ∧ ∀ item ∈ items, ∃ value, item? item = some value := by
  obtain ⟨items, isArray, read⟩ := Option.bind_eq_some_iff.mp read
  obtain ⟨all, readAll, -⟩ := Option.map_eq_some_iff.mp read
  cases json <;> cases isArray
  exact ⟨items, rfl, exists_of_mapM readAll⟩

/-- Flags are read from a text that lists them. -/
theorem Flags.listed_of_ofJson? {kind : FlagKind} {json : Json} {flags : Flags kind}
    (read : ofJson? json = some flags) :
    ∃ text, json = .str text ∧ Listed (IsItem kind) text.toList := by
  obtain ⟨text, isText, read⟩ := Option.bind_eq_some_iff.mp read
  cases json <;> cases isText
  exact ⟨text, rfl, listed_of_parse? read⟩

/-- A register is read from a number of 14 bits. -/
theorem RegId.int_of_ofJson? {json : Json} {reg : RegId} (read : ofJson? json = some reg) :
    ∃ value, json = .int value ∧ 0 ≤ value ∧ value ≤ maxIndex := by
  obtain ⟨index, isIndex, inRange⟩ := Option.bind_eq_some_iff.mp read
  obtain ⟨value, isInt, bounded⟩ := Option.bind_eq_some_iff.mp isIndex
  cases json <;> cases isInt
  refine ⟨value, rfl, ?_⟩
  split at bounded
  next bounds =>
    obtain rfl := Option.some.inj bounded
    unfold ofIndex? at inRange
    split at inRange
    next small => omega
    next => cases inRange
  next => cases bounded

/-- What is read as a procedure type is worded. -/
theorem ProcType.worded_of_ofJson? {json : Json} {type : ProcType}
    (read : ofJson? json = some type) : Worded Flags.IsItem json := by
  obtain ⟨values, record, read⟩ := Option.bind_eq_some_iff.mp read
  split at read
  next flags io =>
    obtain ⟨isFlags, readFlags, read⟩ := Option.bind_eq_some_iff.mp read
    obtain ⟨isIo, readIo, -⟩ := Option.bind_eq_some_iff.mp read
    obtain ⟨text, rfl, listed⟩ := Flags.listed_of_ofJson? readFlags
    obtain ⟨value, rfl, least, most⟩ := RegId.int_of_ofJson? readIo
    exact ⟨text, value, record, least, most, listed⟩
  next => cases read

/-- What is read as a register is worded. -/
theorem RegSpec.worded_of_ofJson? {json : Json} {spec : RegSpec}
    (read : ofJson? json = some spec) : Worded Flags.IsItem json := by
  obtain ⟨values, record, read⟩ := Option.bind_eq_some_iff.mp read
  split at read
  next vtype count flags init =>
    obtain ⟨isType, -, read⟩ := Option.bind_eq_some_iff.mp read
    obtain ⟨isCount, -, read⟩ := Option.bind_eq_some_iff.mp read
    obtain ⟨isFlags, readFlags, -⟩ := Option.bind_eq_some_iff.mp read
    obtain ⟨text, rfl, listed⟩ := Flags.listed_of_ofJson? readFlags
    exact ⟨_, _, text, _, record, listed⟩
  next => cases read

/-- What is read as a procedure is worded. -/
theorem ProcDef.worded_of_ofJson? {json : Json} {proc : ProcDef}
    (read : ofJson? json = some proc) : Worded Flags.IsItem json := by
  obtain ⟨values, record, read⟩ := Option.bind_eq_some_iff.mp read
  split at read
  next flags ptype code count =>
    obtain ⟨isFlags, readFlags, -⟩ := Option.bind_eq_some_iff.mp read
    obtain ⟨text, rfl, listed⟩ := Flags.listed_of_ofJson? readFlags
    exact ⟨text, _, _, _, record, listed⟩
  next => cases read

/-- **What is read as a module is worded.** -/
theorem Module.worded_of_ofJson? {json : Json} {module : Module}
    (read : ofJson? json = some module) : Worded Flags.IsItem json := by
  obtain ⟨values, record, read⟩ := Option.bind_eq_some_iff.mp read
  split at read
  next id vtypes ptypes regs procs =>
    obtain ⟨_, -, read⟩ := Option.bind_eq_some_iff.mp read
    obtain ⟨_, -, read⟩ := Option.bind_eq_some_iff.mp read
    obtain ⟨_, readTypes, read⟩ := Option.bind_eq_some_iff.mp read
    obtain ⟨_, readRegs, read⟩ := Option.bind_eq_some_iff.mp read
    obtain ⟨_, readProcs, -⟩ := Option.bind_eq_some_iff.mp read
    obtain ⟨types, rfl, eachType⟩ := Json.arr_of_array? readTypes
    obtain ⟨specs, rfl, eachReg⟩ := Json.arr_of_array? readRegs
    obtain ⟨defs, rfl, eachProc⟩ := Json.arr_of_array? readProcs
    refine ⟨_, _, types, specs, defs, record, fun entry mem => ?_, fun entry mem => ?_,
      fun entry mem => ?_⟩
    · exact (eachType entry mem).elim fun _ => ProcType.worded_of_ofJson?
    · exact (eachReg entry mem).elim fun _ => RegSpec.worded_of_ofJson?
    · exact (eachProc entry mem).elim fun _ => ProcDef.worded_of_ofJson?
  next => cases read

/-- A name, or `0x` and the digits of a byte, without a sign. -/
def Flags.IsUnsignedItem (kind : FlagKind) (item : List Char) : Prop :=
  (∃ entry ∈ kind.table, item = entry.1.toList) ∨
    ∃ digits value, item = '0' :: 'x' :: digits ∧ Text.hexNumber? digits = some value ∧ value < 256

/-- An unsigned item has no blanks and no bars. -/
theorem Flags.IsUnsignedItem.solid {kind : FlagKind} {item : List Char}
    (unsigned : IsUnsignedItem kind item) :
    item ≠ [] ∧ ∀ c ∈ item, c ≠ '|' ∧ Text.isBlank c = false := by
  rcases unsigned with ⟨entry, named, rfl⟩ | ⟨digits, value, rfl, denotes, small⟩
  · exact (Item.name named).solid
  · have isItem : Item kind ('0' :: 'x' :: ([] ++ digits)) (UInt8.ofNat value) :=
      .number (.inl rfl) denotes small
    exact isItem.solid

/-- The record of a register whose flags are a number with a sign. -/
def signedReg : Json := .obj [("vtype", .nat 0), ("count", .nat 1), ("flags", .str "0x+1")]

/-- The exchange form of a module with such a register. -/
def signedFlags : Json :=
  .obj [("id", .str ModuleId.nil.text), ("vtypes", .arr [VarType.word.toJson]),
    ("ptypes", .arr []), ("regs", .arr [signedReg]), ("procs", .arr [])]

/-- **A sign is read as well**, so a flag text may have an item that is more than `0x` and
digits. -/
theorem signedFlags_read :
    (Module.ofJson? signedFlags).isSome = true ∧
      ¬Module.Worded Flags.IsUnsignedItem signedFlags := by
  refine ⟨by decide +kernel, ?_⟩
  rintro ⟨id, vtypes, ptypes, regs, procs, record, -, worded, -⟩
  have isRegs : regs = [signedReg] := by
    have same : signedFlags.record? ["id", "vtypes", "ptypes", "regs", "procs"] =
      some [some (.str ModuleId.nil.text), some (.arr [VarType.word.toJson]), some (.arr []),
        some (.arr [signedReg]), some (.arr [])] := rfl
    rw [same] at record
    cases record
    rfl
  rw [isRegs, List.forall_mem_singleton] at worded
  obtain ⟨vtype, count, flags, init, record, listed⟩ := worded
  have isText : flags = "0x+1" := by
    have same : signedReg.record? ["vtype", "count", "flags", "init"] =
      some [some (.nat 0), some (.nat 1), some (.str "0x+1"), none] := rfl
    rw [same] at record
    cases record
    rfl
  rw [isText, Flags.listed_iff fun _ => Flags.IsUnsignedItem.solid] at listed
  rcases listed with blank | items
  · exact absurd (blank '0' (by decide)) (by decide)
  · have unsigned : Flags.IsUnsignedItem .register ['0', 'x', '+', '1'] :=
      items _ List.mem_cons_self
    rcases unsigned with ⟨entry, named, same⟩ | ⟨digits, value, same, denotes, -⟩
    · have others : ∀ entry ∈ FlagKind.register.table, ['0', 'x', '+', '1'] ≠ entry.1.toList := by
        decide
      exact others entry named same
    · cases same
      cases denotes

/-- **The exchange form.** A module is read back from its exchange form, from the form as a value as
well as from both written forms; and only what names registers by numbers of 14 bits and flags by
texts that list flags is read as a module. -/
theorem exchange (module : Module) :
    Module.ofJson? module.toJson = some module ∧
      Module.parse? module.toJson.compact = some module ∧
      Module.parse? module.toJson.pretty = some module ∧
      ∀ (json : Json) (described : Module), Module.ofJson? json = some described →
        Module.Worded Flags.IsItem json := by
  have exact := module.exact_toJson
  refine ⟨module.ofJson?_toJson, ?_, ?_, fun _ _ => Module.worded_of_ofJson?⟩
  · rw [Module.parse?, Json.parse?_compact exact, Option.bind_some, module.ofJson?_toJson]
  · rw [Module.parse?, Json.parse?_pretty exact, Option.bind_some, module.ofJson?_toJson]

/-- A module with a bit in each flag set that has no name, and with an empty payload: it is read
back from its exchange form, which is worded. -/
theorem exchange_unnamed :
    let module : Module := ⟨ModuleId.nil, #[VarType.word], #[⟨⟨130⟩, ⟨16383, by decide⟩⟩],
      #[⟨VarTypeId.word, 1, ⟨255⟩, some #[]⟩], #[⟨⟨8⟩, ⟨7⟩, #[0, 255], 9⟩]⟩
    Module.ofJson? module.toJson = some module ∧ Module.Worded Flags.IsItem module.toJson := by
  intro module
  obtain ⟨back, -, -, worded⟩ := exchange module
  exact ⟨back, worded module.toJson module back⟩

end ScopeMachine
