import ScopeMachine.Slots
import ScopeMachine.Variable

/-! # The store

All variables, by identity. Owned slots name variables by identity, so the store is a graph, and a
variable stays in it as long as something refers to it: a root, or an owned slot of a variable that
is itself in the store. Variables that refer to each other in a circle therefore stay.

* `Store.refCount` counts the references to a variable;
* `Store.setOwnedRef` stores a reference, which must have the type that the slot declares;
* `Store.reclaim` removes the variables that nothing refers to, and then those that only they
  referred to, until none is left. -/

namespace ScopeMachine

/-- The variables by identity. -/
abbrev Store := Slots Variable

namespace Store

/-! ### References -/

/-- The number of references to a variable from the roots and from the owned slots in the store. -/
def refCount (store : Store) (roots : List VarId) (id : VarId) : Nat :=
  roots.count id + (store.values.flatMap Variable.referents).count id

/-- Store a reference in an owned slot of a variable. The referent must have the type that the slot
declares. -/
def setOwnedRef (store : Store) (owner : VarId) (element slot : Nat) (referent : Option VarId) :
    Except Error Store := do
  match store.get? owner with
  | none => return store
  | some var =>
      if (var.ownedIndex? element slot).isNone then
        throw (.range (.noOwnedSlot slot element))
      match referent.bind store.get?, var.layout.shape.ownedRefs[slot]? with
      | some target, some held =>
          if target.layout.vtype ≠ held then
            throw (.type (.referentMismatch slot held target.layout.vtype))
      | _, _ => pure ()
      return store.modify owner (·.putOwnedRef element slot referent)

/-! ### Reclaiming -/

/-- Add one at a position. -/
def countOne (counts : Array Nat) (id : VarId) : Array Nat := counts.modify id (· + 1)

/-- For each identity, the number of references to it. -/
def refCounts (store : Store) (roots : List VarId) : Array Nat :=
  let fromRoots := roots.foldl countOne (Array.replicate store.next 0)
  store.values.foldl (fun counts var => var.referents.foldl countOne counts) fromRoots

/-- Take away one reference; a variable that loses its last one is added to those to remove. -/
def loseOne (state : Array Nat × List VarId) (id : VarId) : Array Nat × List VarId :=
  match state with
  | (counts, unreferenced) =>
      if counts[id]? = some 1 then (counts.setIfInBounds id 0, id :: unreferenced)
      else (counts.modify id (· - 1), unreferenced)

/-- Remove variables that nothing refers to, at most `steps` of them. Each variable removed takes
away the references in its owned slots. -/
def reclaimFrom : (steps : Nat) → (unreferenced : List VarId) → Array Nat → Store → Store
  | 0, _, _, store => store
  | _ + 1, [], _, store => store
  | steps + 1, id :: unreferenced, counts, store =>
      let released := ((store.get? id).map Variable.referents).getD []
      let (counts, unreferenced) := released.foldl loseOne (counts, unreferenced)
      reclaimFrom steps unreferenced counts (store.erase id)

/-- Remove every variable that no root keeps, apart from those that keep each other. No variable is
removed twice, so there are no more steps than identities. -/
def reclaim (store : Store) (roots : List VarId) : Store :=
  let counts := store.refCounts roots
  let unreferenced := (store.entries.map Prod.fst).filter fun id => counts[id]? == some 0
  reclaimFrom store.next unreferenced counts store

end Store

end ScopeMachine
