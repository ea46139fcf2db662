import DeclMerge.Text.Split

/-!
# Targets

A target is one configuration that declarations are supplied for.

## Main definitions

* `Target` — a target, given by its name
* `TargetSet` — targets without repetition, in the order in which they were inserted
-/

namespace DeclMerge

/-- A configuration that declarations are supplied for. -/
structure Target where
  name : String
deriving DecidableEq, Hashable, Repr, Inhabited

/-- Targets in order of insertion, each once. -/
structure TargetSet where
  items : List Target
  nodup : items.Nodup

namespace TargetSet

/-- The set without any target. -/
def empty : TargetSet := ⟨[], List.nodup_nil⟩

/-- Whether a target is in the set. -/
def contains (set : TargetSet) (target : Target) : Bool :=
  set.items.contains target

/-- The set with one more target at its end, unless it is there already. -/
def insert (set : TargetSet) (target : Target) : TargetSet :=
  if h : target ∈ set.items then set
  else
    ⟨set.items ++ [target], by
      rw [List.nodup_append]
      refine ⟨set.nodup, by simp, fun a ha b hb => ?_⟩
      rw [List.mem_singleton] at hb
      exact fun hab => h (hb ▸ hab ▸ ha)⟩

/-- The set of the targets of a list, in order of first appearance. -/
def ofList (targets : List Target) : TargetSet :=
  targets.foldl insert empty

/-- The number of targets. -/
def size (set : TargetSet) : Nat := set.items.length

/-- The names between brackets. -/
def display (set : TargetSet) : String :=
  Text.bracketed (set.items.map Target.name)

theorem items_insert (set : TargetSet) (target : Target) :
    (set.insert target).items =
      if target ∈ set.items then set.items else set.items ++ [target] := by
  unfold insert
  split <;> simp_all

end TargetSet

end DeclMerge
