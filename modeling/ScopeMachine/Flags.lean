/-! # Flag sets

Registers, procedure types and procedures carry sets of flags, one byte each. The kinds of flag set
differ only in the flags that have a name, so `Flags` is one type indexed by `FlagKind`. Bits that
have no name are kept.

* `Flags.contains` and `Flags.isKnown` answer what a set holds and whether all of it has names;
* `Flags.names` lists the names of a set in bit order, `Flags.unnamed` what remains. -/

namespace ScopeMachine

/-- What a flag set belongs to. -/
inductive FlagKind where
  /-- Flags of a register. -/
  | register
  /-- Flags of a procedure type. -/
  | procType
  /-- Flags of a procedure. -/
  | proc
deriving DecidableEq

/-- The named flags of each kind, from the lowest bit. -/
def FlagKind.table : FlagKind → List (String × UInt8)
  | register => [("PERSISTENT", 1), ("THREAD_LOCAL", 2), ("NON_FIXED_REF", 4)]
  | procType => [("EXTERNAL", 1), ("FUNCTION", 2)]
  | proc => [("TRACE", 1)]

/-- The bits that have a name. -/
def FlagKind.knownBits (kind : FlagKind) : UInt8 :=
  kind.table.foldl (fun bits entry => bits ||| entry.2) 0

/-- A set of flags of one kind. -/
structure Flags (kind : FlagKind) where
  /-- One bit for each flag. -/
  bits : UInt8
deriving DecidableEq

/-- Flags of a register. -/
abbrev RegFlags := Flags .register

/-- Flags of a procedure type. -/
abbrev ProcTypeFlags := Flags .procType

/-- Flags of a procedure. -/
abbrev ProcFlags := Flags .proc

namespace Flags

variable {kind : FlagKind}

/-- The set of no flags. -/
def empty : Flags kind := ⟨0⟩

/-- The flags in either set. -/
def union (left right : Flags kind) : Flags kind := ⟨left.bits ||| right.bits⟩

/-- Whether every flag of `other` is in the set. -/
def contains (flags other : Flags kind) : Bool := flags.bits &&& other.bits == other.bits

/-- Whether the sets share a flag. -/
def intersects (flags other : Flags kind) : Bool := flags.bits &&& other.bits != 0

/-- Whether there is no flag in the set. -/
def isEmpty (flags : Flags kind) : Bool := flags.bits == 0

/-- Whether every flag of the set has a name. -/
def isKnown (flags : Flags kind) : Bool := flags.bits &&& ~~~kind.knownBits == 0

/-- The names of the flags in the set, in bit order. -/
def names (flags : Flags kind) : List String :=
  (kind.table.filter fun entry => flags.contains ⟨entry.2⟩).map Prod.fst

/-- The bits of the set that have no name. -/
def unnamed (flags : Flags kind) : UInt8 := flags.bits &&& ~~~kind.knownBits

end Flags

/-! ### Registers -/

/-- The register's storage belongs to the compiled module and outlives each call. -/
def RegFlags.persistent : RegFlags := ⟨1⟩

/-- The register's storage is allocated once for each call. -/
def RegFlags.threadLocal : RegFlags := ⟨2⟩

/-- The register may hold a null frame and be bound to a referent. -/
def RegFlags.nonFixedRef : RegFlags := ⟨4⟩

/-- Whether the register's storage is allocated before any scope opens. -/
def RegFlags.isStatic (flags : RegFlags) : Bool :=
  flags.intersects (RegFlags.persistent.union RegFlags.threadLocal)

/-! ### Procedures -/

/-- Procedures of the type are entry points. -/
def ProcTypeFlags.external : ProcTypeFlags := ⟨1⟩

/-- Procedures of the type can be called by other procedures. -/
def ProcTypeFlags.function : ProcTypeFlags := ⟨2⟩

/-- Calls of the procedure are reported. -/
def ProcFlags.trace : ProcFlags := ⟨1⟩

end ScopeMachine
