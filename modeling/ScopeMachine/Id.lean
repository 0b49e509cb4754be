/-! # Identifiers of a module's parts

Types, procedure types and procedures are named by their position in the tables of a module, a
32-bit index. Registers are named by a 14-bit index, and that bound is part of the type: a
`RegId` is always encodable.

* `RegId.ofIndex?` admits exactly the indices up to `RegId.maxIndex`;
* `RegId.text`, `VarTypeId.text`, `ProcTypeId.text`, `ProcId.text` give the written form of each
  kind of identifier, a letter followed by the index. -/

namespace ScopeMachine

/-! ### Registers -/

/-- The largest register index, the last of the 14-bit range. -/
def RegId.maxIndex : Nat := 16383

/-- A register of a module. -/
structure RegId where
  /-- Position in the register table. -/
  index : Nat
  /-- The index is in the 14-bit range. -/
  index_le : index ≤ RegId.maxIndex
deriving DecidableEq

namespace RegId

/-- The register with a given index, if the index is in range. -/
def ofIndex? (index : Nat) : Option RegId :=
  if h : index ≤ maxIndex then some ⟨index, h⟩ else none

/-- The register that carries fault codes, allocated in every execution. -/
def error : RegId := ⟨0, by decide⟩

/-- Registers with an index below this are allocated by the machine itself. -/
def reservedCount : Nat := 1

/-- Whether the register is allocated by the machine itself. -/
def isReserved (reg : RegId) : Bool := reg.index < reservedCount

/-- The written form, `R` and the index. -/
def text (reg : RegId) : String := "R" ++ reg.index.repr

/-- Registers with the same index are the same. -/
theorem ext_index {left right : RegId} (equal : left.index = right.index) : left = right := by
  cases left; cases right; cases equal; rfl

/-- A register's index gives the register back. -/
@[simp] theorem ofIndex?_index (reg : RegId) : ofIndex? reg.index = some reg := by
  simp [ofIndex?, reg.index_le]

/-- Exactly the indices up to the maximum name a register. -/
theorem ofIndex?_eq_none_iff {index : Nat} : ofIndex? index = none ↔ maxIndex < index := by
  simp [ofIndex?]

end RegId

/-! ### Types and procedures -/

/-- A variable type of a module. -/
structure VarTypeId where
  /-- Position in the table of variable types. -/
  index : UInt32
deriving DecidableEq

/-- The type of one eight-byte word, the first type of every module. -/
def VarTypeId.word : VarTypeId := ⟨0⟩

/-- The written form, `T` and the index. -/
def VarTypeId.text (id : VarTypeId) : String := "T" ++ id.index.toNat.repr

/-- A procedure type of a module. -/
structure ProcTypeId where
  /-- Position in the table of procedure types. -/
  index : UInt32
deriving DecidableEq

/-- The written form, `P` and the index. -/
def ProcTypeId.text (id : ProcTypeId) : String := "P" ++ id.index.toNat.repr

/-- A procedure of a module. -/
structure ProcId where
  /-- Position in the table of procedures. -/
  index : UInt32
deriving DecidableEq

/-- The written form, `F` and the index. -/
def ProcId.text (id : ProcId) : String := "F" ++ id.index.toNat.repr

end ScopeMachine
