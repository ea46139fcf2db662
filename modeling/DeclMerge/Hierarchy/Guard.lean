/-!
# Recursion guards

A guard watches a recursive walk. It knows the keys that are being visited, and it refuses to
enter a key that is among them, to go deeper than a limit, and to be asked more often than
another limit.

## Main definitions

* `Guard` — the keys being visited, with counters and limits
* `Guard.enter` — the answer to a request to visit a key
* `Guard.leave?` — the end of a visit, which must have begun
* `GuardMisuse` — visits that end without a beginning, or never end
-/

namespace DeclMerge

/-- The answer to a request to visit a key. -/
inductive Admission where
  | entered | cycle | depthExceeded | iterationExceeded
deriving DecidableEq, Repr, Inhabited

/-- The largest number of requests that a guard counts. -/
def maxCount : Nat := 0xFFFFFFFF

/-- The keys being visited, the last one first, with counters and limits. -/
structure Guard (κ : Type) where
  active : List κ := []
  depth : Nat := 0
  iterations : Nat := 0
  maxDepth : Nat
  maxIterations : Nat
deriving Repr

/-- How visits can be unbalanced. -/
inductive GuardMisuse where
  | unmatchedLeave
  | stillActive (keys : Nat)
deriving DecidableEq, Repr

namespace GuardMisuse

/-- The text for unbalanced visits. -/
def message : GuardMisuse → String
  | .unmatchedLeave =>
    "RecursionGuard::leave() called with a key that is not in the visiting set. " ++
      "This indicates a double-leave or a leave without a matching enter()."
  | .stillActive keys =>
    "RecursionGuard dropped with " ++ keys.repr ++ " active entries (missing leave() calls)"

end GuardMisuse

namespace Guard

/-- The number of requests that a walk over a hierarchy may make. -/
def hierarchyIterations : Nat := 1000000

/-- The guard of a walk over a hierarchy. -/
def forClasses (κ : Type) (maxDepth : Nat) : Guard κ :=
  { maxDepth, maxIterations := hierarchyIterations }

variable {κ : Type} [DecidableEq κ]

/-- Asks to visit a key. Every request counts, up to `maxCount`. The limit on requests is looked
at first, then whether the key is being visited, then the limit on depth. -/
def enter (guard : Guard κ) (key : κ) : Admission × Guard κ :=
  let guard := { guard with iterations := min (guard.iterations + 1) maxCount }
  if guard.maxIterations < guard.iterations then (.iterationExceeded, guard)
  else if key ∈ guard.active then (.cycle, guard)
  else if guard.maxDepth ≤ guard.depth then (.depthExceeded, guard)
  else (.entered, { guard with active := key :: guard.active, depth := guard.depth + 1 })

/-- Ends the visit of a key, which must be being visited. -/
def leave? (guard : Guard κ) (key : κ) : Except GuardMisuse (Guard κ) :=
  if key ∈ guard.active then
    .ok { guard with active := guard.active.erase key, depth := guard.depth - 1 }
  else .error .unmatchedLeave

/-- Puts a guard away, which must be visiting nothing. -/
def close? (guard : Guard κ) : Except GuardMisuse Unit :=
  if guard.active.isEmpty then .ok () else .error (.stillActive guard.active.length)

end Guard

end DeclMerge
