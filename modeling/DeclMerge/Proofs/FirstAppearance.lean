import DeclMerge.Target
import Mathlib.Data.List.Nodup

/-!
# Lists in order of first appearance

Removing repetitions keeps the first occurrence of each element. Target sets are built that way,
and so are the keys of a grouping and the classes of a hierarchy.

## Main results

* `firstOccurrence_induction` — induction along first occurrences
* `nodup_eraseDups`, `eraseDups_concat` — nothing is left twice, and new elements come last
* `eraseDups_append_of_subset`, `eraseDups_flatMap_const` — elements that have come before add none
* `filter_eq_singleton` — an element of a list without repetitions, picked out by a condition
* `TargetSet.items_ofList` — a target set keeps first appearances
-/

namespace DeclMerge

variable {α : Type}

/-- Induction along first occurrences: an element is split off together with all later ones that
have its key. -/
theorem firstOccurrence_induction {κ : Type} [DecidableEq κ] {P : List α → Prop} (keyOf : α → κ)
    (nil : P [])
    (cons : ∀ a as, P (as.filter fun b => !keyOf b == keyOf a) → P (a :: as)) (l : List α) :
    P l := by
  -- What is left of the tail is not a tail, but it is shorter.
  induction h : l.length using Nat.strongRecOn generalizing l with
  | _ n ih =>
    cases l with
    | nil => exact nil
    | cons a as =>
      have hle := List.length_filter_le (fun b => !keyOf b == keyOf a) as
      rw [List.length_cons] at h
      exact cons a as (ih _ (by omega) _ rfl)

theorem nodup_append_singleton_iff {l : List α} {a : α} :
    (l ++ [a]).Nodup ↔ l.Nodup ∧ a ∉ l := by
  rw [← List.concat_eq_append, List.nodup_concat, and_comm]

/-- If a condition picks out one element of a list without repetitions, that one is left. -/
theorem filter_eq_singleton {p : α → Bool} {l : List α} {a : α} (hnodup : l.Nodup) (ha : a ∈ l)
    (hp : ∀ b ∈ l, p b = true ↔ b = a) : l.filter p = [a] := by
  classical
  have hcongr : l.filter p = l.filter (· = a) :=
    List.filter_congr fun b hb => Bool.eq_iff_iff.mpr ((hp b hb).trans decide_eq_true_iff.symm)
  rw [hcongr, List.filter_eq, List.count_eq_one_of_mem hnodup ha]
  rfl

variable [DecidableEq α]

theorem nodup_eraseDups (l : List α) : l.eraseDups.Nodup := by
  induction l using firstOccurrence_induction (id : α → α) with
  | nil => exact List.nodup_nil
  | cons a as ih =>
    rw [List.eraseDups_cons, List.nodup_cons]
    exact ⟨by simp, ih⟩

theorem eraseDups_of_nodup {l : List α} (h : l.Nodup) : l.eraseDups = l := by
  induction l with
  | nil => rfl
  | cons a as ih =>
    obtain ⟨hmem, hnodup⟩ := List.nodup_cons.mp h
    have hfilter : (as.filter fun b => !b == a) = as := by
      rw [List.filter_eq_self]
      intro b hb
      have hne : b ≠ a := fun hba => hmem (hba ▸ hb)
      simpa using hne
    rw [List.eraseDups_cons, hfilter, ih hnodup]

/-- One more element comes last, unless it was there before. -/
theorem eraseDups_concat (l : List α) (a : α) :
    (l ++ [a]).eraseDups = if a ∈ l then l.eraseDups else l.eraseDups ++ [a] := by
  rw [List.eraseDups_append]
  by_cases h : a ∈ l <;> simp [h, List.removeAll, List.eraseDups_cons]

/-- Elements that have all come before add nothing. -/
theorem eraseDups_append_of_subset {as bs : List α} (h : bs ⊆ as) :
    (as ++ bs).eraseDups = as.eraseDups := by
  have hnone : bs.removeAll as = [] := by
    rw [List.removeAll, List.filter_eq_nil_iff]
    intro b hb
    simpa using h hb
  rw [List.eraseDups_append, hnone]
  simp

/-- A list that is repeated has the elements of the list. -/
theorem eraseDups_flatMap_const {β : Type} {indices : List β} (hne : indices ≠ []) (as : List α) :
    (indices.flatMap fun _ => as).eraseDups = as.eraseDups := by
  cases indices with
  | nil => exact absurd rfl hne
  | cons _ rest =>
    rw [List.flatMap_cons]
    apply eraseDups_append_of_subset
    intro a ha
    obtain ⟨_, -, hmem⟩ := List.mem_flatMap.mp ha
    exact hmem

namespace TargetSet

theorem items_foldl_insert (targets : List Target) (set : TargetSet) :
    (targets.foldl insert set).items = (set.items ++ targets).eraseDups := by
  induction targets generalizing set with
  | nil => simpa using (eraseDups_of_nodup set.nodup).symm
  | cons target targets ih =>
    have hfirst : (set.items ++ [target] ++ targets).eraseDups =
        (set.items ++ [target]).eraseDups ++
          (targets.removeAll (set.items ++ [target])).eraseDups := List.eraseDups_append
    rw [List.foldl_cons, ih, items_insert, List.append_cons set.items target targets, hfirst]
    split
    · -- The target is known already, so adding it to the list changes nothing either.
      rename_i hmem
      have hadded : set.items.eraseDups = (set.items ++ [target]).eraseDups := by
        rw [eraseDups_concat, if_pos hmem]
      rw [List.eraseDups_append, hadded]
      congr 2
      simp only [List.removeAll]
      apply List.filter_congr
      intro t _
      by_cases ht : t = target <;> simp [ht, hmem]
    · rw [List.eraseDups_append]

/-- A target set has the targets it is made of, in order of first appearance. -/
theorem items_ofList (targets : List Target) : (ofList targets).items = targets.eraseDups := by
  simpa [ofList, empty] using items_foldl_insert targets empty

theorem items_ofList_of_nodup {targets : List Target} (h : targets.Nodup) :
    (ofList targets).items = targets := by
  rw [items_ofList, eraseDups_of_nodup h]

theorem size_ofList_of_nodup {targets : List Target} (h : targets.Nodup) :
    (ofList targets).size = targets.length := by
  rw [size, items_ofList_of_nodup h]

end TargetSet

end DeclMerge
