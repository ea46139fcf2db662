/-!
# Grouping by key

A grouping collects values under keys. Keys stand in the order in which they first came, and the
values of a key in the order in which they were added, so that both orders can be read off.

## Main definitions

* `Grouping` — keys with the values collected under them
* `Grouping.add` — one more value under a key
* `Grouping.ofList` — the values of a list grouped by a function

## Main results

* `Grouping.get_add` — adding a value extends the group of its key and no other
* `Grouping.keys_add` — a key is appended when it is new
-/

namespace DeclMerge

/-- Keys in order of first appearance, each with its values in order of addition. -/
structure Grouping (κ : Type) (α : Type) where
  groups : List (κ × List α)

namespace Grouping

variable {κ α : Type} [DecidableEq κ]

/-- The grouping without keys. -/
def empty : Grouping κ α := ⟨[]⟩

/-- The keys, in order of first appearance. -/
def keys (grouping : Grouping κ α) : List κ :=
  grouping.groups.map Prod.fst

/-- The groups after `value` has been added under `key`. -/
def addTo (key : κ) (value : α) : List (κ × List α) → List (κ × List α)
  | [] => [(key, [value])]
  | (k, values) :: groups =>
    if k = key then (k, values ++ [value]) :: groups
    else (k, values) :: addTo key value groups

/-- The grouping after `value` has been added under `key`. -/
def add (grouping : Grouping κ α) (key : κ) (value : α) : Grouping κ α :=
  ⟨addTo key value grouping.groups⟩

/-- The values under a key, in order of addition. -/
def get (grouping : Grouping κ α) (key : κ) : List α :=
  (grouping.groups.lookup key).getD []

/-- The values of a list, each under the key that `keyOf` gives it. -/
def ofList (keyOf : α → κ) (values : List α) : Grouping κ α :=
  values.foldl (fun grouping value => grouping.add (keyOf value) value) empty

theorem keys_add (grouping : Grouping κ α) (key : κ) (value : α) :
    (grouping.add key value).keys =
      if key ∈ grouping.keys then grouping.keys else grouping.keys ++ [key] := by
  obtain ⟨groups⟩ := grouping
  simp only [add, keys]
  induction groups with
  | nil => simp [addTo]
  | cons head tail ih =>
    obtain ⟨k, values⟩ := head
    by_cases hk : k = key
    · simp [addTo, hk]
    · have hk' : ¬ key = k := fun h => hk h.symm
      simp only [addTo, if_neg hk, List.map_cons, ih, List.mem_cons, hk', false_or]
      split <;> rename_i hmem <;> simp [hmem]

theorem get_add (grouping : Grouping κ α) (key other : κ) (value : α) :
    (grouping.add key value).get other =
      if other = key then grouping.get other ++ [value] else grouping.get other := by
  obtain ⟨groups⟩ := grouping
  simp only [add, get]
  induction groups with
  | nil =>
    by_cases h : other = key
    · simp [addTo, h]
    · have hb : (other == key) = false := beq_eq_false_iff_ne.mpr h
      simp [addTo, List.lookup_cons, h, hb]
  | cons head tail ih =>
    obtain ⟨k, values⟩ := head
    by_cases hk : k = key
    · subst hk
      by_cases ho : other = k
      · simp [addTo, ho]
      · have hb : (other == k) = false := beq_eq_false_iff_ne.mpr ho
        simp [addTo, List.lookup_cons, ho, hb]
    · by_cases ho : other = k
      · simp [addTo, ho, hk]
      · have hb : (other == k) = false := beq_eq_false_iff_ne.mpr ho
        simpa [addTo, hk, List.lookup_cons, hb] using ih

end Grouping

end DeclMerge
