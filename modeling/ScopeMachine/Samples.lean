import ScopeMachine.Host

/-! # Sample modules

Two modules that serve as examples.

* `factorial` computes the factorial of its argument, a word, in place.
* `quicksort` sorts an array of words in place. Its argument holds the first and the last position
  in its payload and the array in its owned slot. Each call partitions around the last word and
  calls itself for both sides with a fresh argument. -/

namespace ScopeMachine.Samples

/-! ### Declarations -/

/-- The entry point of each sample. -/
def entry : ProcId := ⟨0⟩

/-- The type of the arrays that `quicksort` sorts. -/
def arrayType : VarTypeId := ⟨1⟩

/-- The type of the arguments of `quicksort`. -/
def argsType : VarTypeId := ⟨2⟩

/-- The samples can be called from outside and by themselves. -/
def entryFlags : ProcTypeFlags := ProcTypeFlags.external.union ProcTypeFlags.function

/-- A register for one word. -/
def addWordReg : Build RegId := Builder.addReg VarTypeId.word 0 Flags.empty

/-- Append a list of instructions. -/
def addCode (proc : ProcId) (code : List Instruction) : Build Unit :=
  code.forM fun instruction => discard (Builder.addInstruction proc instruction)

/-! ### Factorial -/

/-- The code of `factorial`, for the argument `n` and the product `t`. -/
def factorialCode (n t : RegId) : List Instruction :=
  [.als t,
    .cpi8 t 1,
    .jz n 4,
    .mul t t n,
    .dec n,
    .jnz n (-2),
    .cpb n t,
    .frs t,
    .ret]

/-- Build the factorial module. -/
def factorial : Build Unit := do
  let n ← addWordReg
  let t ← addWordReg
  let ptype ← Builder.addProcType entryFlags n
  let proc ← Builder.addProc Flags.empty ptype
  addCode proc (factorialCode n t)

/-! ### Quicksort -/

/-- The code of `quicksort`. -/
def quicksortCode (sort : ProcId) (args arr lo hi i j piv x y : RegId) : List Instruction :=
  -- 0: scopes for the local words and for the array
  [.als lo, .als hi, .als i, .als j, .als piv, .als x, .als y, .alsr arr,
    .ldr arr args 0,
    .ldb lo args 0,
    .ldb hi args 8,
    .jng hi lo 29,
    -- 12: partition around the last word
    .lde piv arr hi,
    .cpb i lo,
    .cpb j lo,
    .jng hi j 9,
    .lde x arr j,
    .jng piv x 5,
    .lde y arr i,
    .ste arr i x,
    .ste arr j y,
    .inc i,
    .inc j,
    .jmp (-8),
    -- 24: move that word to its place
    .lde x arr i,
    .ste arr i piv,
    .ste arr hi x,
    -- 27: sort both sides with a fresh argument
    .als args,
    .str args 0 arr,
    .stb args 0 lo,
    .cpb x i,
    .dec x,
    .stb args 8 x,
    .call sort,
    .cpb x i,
    .inc x,
    .stb args 0 x,
    .stb args 8 hi,
    .call sort,
    .frs args,
    -- 40: done
    .frsl 8,
    .ret]

/-- Build the quicksort module. -/
def quicksort : Build Unit := do
  let array ← Builder.addVarType 0 8
  let argument ← Builder.addVarType 1 16
  let _ ← Builder.addOwnedSlot argument array
  let args ← Builder.addReg argument 0 Flags.empty
  let arr ← Builder.addReg array 0 RegFlags.nonFixedRef
  let lo ← addWordReg
  let hi ← addWordReg
  let i ← addWordReg
  let j ← addWordReg
  let piv ← addWordReg
  let x ← addWordReg
  let y ← addWordReg
  let ptype ← Builder.addProcType entryFlags args
  let sort ← Builder.addProc Flags.empty ptype
  addCode sort (quicksortCode sort args arr lo hi i j piv x y)

/-- The sample with a given name. -/
def named? (name : String) : Option (Build Unit) :=
  if name = "factorial" then some factorial
  else if name = "quicksort" || name = "sort" then some quicksort
  else none

/-! ### In a host -/

/-- Finish a sample without registering it, under a fresh identity. -/
def describe (registry : Nat) (sample : Build Unit) (fresh : ModuleId) : HostM Module := do
  let builder ← Host.newBuilder registry Builder.initial
  Host.build builder sample
  let module ← Host.finish builder fresh
  Host.dropBuilder builder
  return module

/-- Finish a sample and register it, under a fresh identity. -/
def register (registry : Nat) (sample : Build Unit) (fresh : ModuleId) : HostM Unit := do
  let builder ← Host.newBuilder registry Builder.initial
  Host.build builder sample
  Host.create builder fresh
  Host.dropBuilder builder

/-- Store words in the elements of a variable, from the first on. -/
def storeWords (var : VarId) (words : List Int64) : HostM Unit :=
  words.zipIdx.forM fun entry => Host.setWord var entry.2 entry.1

/-- The words of a variable. -/
def loadWords (var : VarId) : HostM (List Int64) := do
  return (((← get).store.get? var).map Variable.words).getD []

/-- Carry out an action on a variable that is held meanwhile. -/
def holding {α : Type} (var : VarId) (action : HostM α) : HostM α := do
  try
    let value ← action
    Host.unhold var
    return value
  catch error =>
    Host.unhold var
    throw error

/-- What a call of a procedure on words gives: how the call ended, and the words after it. -/
structure WordCall where
  /-- How the call ended. -/
  result : Except Error Host.CallStatus
  /-- The words of the argument after the call. -/
  words : List Int64

/-- Call a procedure of a handle's module on a fresh variable that holds the given words. -/
def callOnWords (handle : Nat) (vtype : VarTypeId) (proc : ProcId) (words : List Int64)
    (steps : Nat) : HostM WordCall := do
  let io ← Host.newVariable handle vtype words.length
  holding io do
    storeWords io words
    let result ← observing (Host.call handle proc io steps)
    return ⟨result, ← loadWords io⟩
where
  /-- Carry out an action and give its result, an error as well. -/
  observing {α : Type} (action : HostM α) : HostM (Except Error α) := do
    try return .ok (← action)
    catch error => return .error error

/-- Run the factorial sample on a word; nothing if it has not come to an end. -/
def runFactorial (handle : Nat) (n : Int64) (steps : Nat) : HostM (Option Int64) := do
  Host.unpack handle
  let io ← Host.newVariable handle VarTypeId.word 1
  holding io do
    Host.setWord io 0 n
    match ← Host.call handle entry io steps with
    | .unfinished => return none
    | .returned => return some ((← loadWords io).headD 0)

/-- Run the quicksort sample on words; nothing if it has not come to an end. -/
def runSort (handle : Nat) (words : List Int64) (steps : Nat) : HostM (Option (List Int64)) := do
  Host.unpack handle
  let array ← Host.newVariable handle arrayType words.length
  holding array do
    storeWords array words
    let args ← Host.newVariable handle argsType 0
    holding args do
      let last := Int64.ofInt ((words.length : Int) - 1)
      Host.changeVar args fun var =>
        .ok (if var.isEmpty then var
          else (var.writeBytes 0 0 (wordToBytes 0)).writeBytes 0 8 (wordToBytes last))
      Host.setOwnedRef args 0 0 (some array)
      match ← Host.call handle entry args steps with
      | .unfinished => return none
      | .returned => return some (← loadWords array)

end ScopeMachine.Samples
