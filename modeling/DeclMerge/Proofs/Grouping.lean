import DeclMerge.Grouping
import DeclMerge.Proofs.Association
import DeclMerge.Proofs.FirstAppearance
import DeclMerge.Proofs.Matched
import Mathlib.Data.List.Induction

/-!
# The groups of a grouping

Grouping a list by a key is a partition of it: a group has all values with its key, in their
order, and the groups stand in the order in which their first values came.

## Main definitions

* `Grouping.parts` — the groups of a list without their keys

## Main results

* `Grouping.groups_ofList` — the groups of a list, as filters of it
* `Grouping.exists_part_iff` — two values share a group exactly if they have one key
* `Grouping.pairwise_parts` — different parts have different keys
* `Grouping.existsUnique_part` — each value is in one part
* `Grouping.flatten_parts_perm` — nothing is lost and nothing comes twice
* `Grouping.heads_parts_sublist` — groups are ordered by their first values
* `Grouping.matched_parts` — values in another order have the same groups
-/

namespace DeclMerge.Grouping

variable {κ α : Type} [DecidableEq κ]

theorem get_of_mem {grouping : Grouping κ α} (h : grouping.keys.Nodup) {key : κ} {values : List α}
    (hmem : (key, values) ∈ grouping.groups) : grouping.get key = values := by
  rw [get, lookup_eq_some_of_mem h hmem, Option.getD_some]

/-- A grouping is determined by its keys and the group of each key. -/
theorem groups_eq_map_get {grouping : Grouping κ α} (h : grouping.keys.Nodup) :
    grouping.groups = grouping.keys.map fun key => (key, grouping.get key) := by
  rw [keys, List.map_map, eq_comm]
  refine (List.map_congr_left fun group hgroup => ?_).trans (List.map_id _)
  exact Prod.ext rfl (get_of_mem h hgroup)

variable (keyOf : α → κ)

theorem ofList_concat (values : List α) (value : α) :
    ofList keyOf (values ++ [value]) = (ofList keyOf values).add (keyOf value) value := by
  simp [ofList]

/-- Keys stand in order of first appearance. -/
theorem keys_ofList (values : List α) :
    (ofList keyOf values).keys = (values.map keyOf).eraseDups := by
  induction values using List.reverseRecOn with
  | nil => rfl
  | append_singleton values value ih =>
    rw [ofList_concat, keys_add, ih, List.map_append, List.map_singleton, eraseDups_concat]
    simp only [List.mem_eraseDups]

/-- The group of a key has all values with that key, in their order. -/
theorem get_ofList (values : List α) (key : κ) :
    (ofList keyOf values).get key = values.filter fun value => keyOf value = key := by
  induction values using List.reverseRecOn with
  | nil => rfl
  | append_singleton values value ih =>
    rw [ofList_concat, get_add, ih, List.filter_append]
    by_cases h : key = keyOf value
    · simp [h]
    · have h' : ¬ keyOf value = key := fun hkey => h hkey.symm
      simp [h, h']

theorem groups_ofList (values : List α) :
    (ofList keyOf values).groups =
      (values.map keyOf).eraseDups.map fun key =>
        (key, values.filter fun value => keyOf value = key) := by
  have hnodup : (ofList keyOf values).keys.Nodup := keys_ofList keyOf values ▸ nodup_eraseDups _
  rw [groups_eq_map_get hnodup, keys_ofList]
  simp only [get_ofList]

/-- The groups of a list without their keys. -/
def parts (values : List α) : List (List α) :=
  (ofList keyOf values).groups.map Prod.snd

theorem parts_eq (values : List α) :
    parts keyOf values =
      (values.map keyOf).eraseDups.map fun key => values.filter fun value => keyOf value = key := by
  simp [parts, groups_ofList, Function.comp_def]

theorem mem_parts {values part : List α} :
    part ∈ parts keyOf values ↔
      ∃ value ∈ values, part = values.filter fun other => keyOf other = keyOf value := by
  rw [parts_eq]
  simp only [List.mem_map, List.mem_eraseDups, exists_exists_and_eq_and]
  exact exists_congr fun value => and_congr_right fun _ => eq_comm

/-- The first part belongs to the first value, and the others are the parts of the rest. -/
theorem parts_cons (value : α) (values : List α) :
    parts keyOf (value :: values) =
      (value :: values.filter fun other => keyOf other = keyOf value) ::
        parts keyOf (values.filter fun other => !keyOf other == keyOf value) := by
  rw [parts_eq, parts_eq, List.map_cons, List.eraseDups_cons, List.map_cons]
  congr 1
  · simp
  · -- What does not go with the first value keeps its keys and its groups.
    have hkeys : (values.map keyOf).filter (fun key => !key == keyOf value) =
        (values.filter fun other => !keyOf other == keyOf value).map keyOf := by
      rw [List.filter_map]
      rfl
    rw [hkeys]
    refine List.map_congr_left fun key hkey => ?_
    obtain ⟨other, hother, rfl⟩ := List.mem_map.mp (List.mem_eraseDups.mp hkey)
    have hne : keyOf other ≠ keyOf value := by simpa using (List.mem_filter.mp hother).2
    rw [List.filter_cons_of_neg (by simpa using fun h => hne h.symm), List.filter_filter]
    refine List.filter_congr fun candidate _ => ?_
    by_cases h : keyOf candidate = keyOf other <;> simp [h, hne]

theorem sublist_of_mem_parts {values part : List α} (h : part ∈ parts keyOf values) :
    part.Sublist values := by
  obtain ⟨value, -, rfl⟩ := (mem_parts keyOf).mp h
  exact List.filter_sublist

theorem ne_nil_of_mem_parts {values part : List α} (h : part ∈ parts keyOf values) :
    part ≠ [] := by
  obtain ⟨value, hvalue, rfl⟩ := (mem_parts keyOf).mp h
  exact List.ne_nil_of_mem (List.mem_filter.mpr ⟨hvalue, by simp⟩)

/-- Two values of a list are in one part exactly if they have one key. -/
theorem exists_part_iff {values : List α} {a b : α} (ha : a ∈ values) (hb : b ∈ values) :
    (∃ part ∈ parts keyOf values, a ∈ part ∧ b ∈ part) ↔ keyOf a = keyOf b := by
  constructor
  · rintro ⟨part, hpart, hapart, hbpart⟩
    obtain ⟨value, -, rfl⟩ := (mem_parts keyOf).mp hpart
    have hakey : keyOf a = keyOf value := by simpa using (List.mem_filter.mp hapart).2
    have hbkey : keyOf b = keyOf value := by simpa using (List.mem_filter.mp hbpart).2
    rw [hakey, hbkey]
  · intro hkey
    refine ⟨_, (mem_parts keyOf).mpr ⟨a, ha, rfl⟩, ?_, ?_⟩
    · exact List.mem_filter.mpr ⟨ha, by simp⟩
    · exact List.mem_filter.mpr ⟨hb, by simpa using hkey.symm⟩

/-- Values of different parts have different keys. -/
theorem pairwise_parts (values : List α) :
    (parts keyOf values).Pairwise fun part other =>
      ∀ a ∈ part, ∀ b ∈ other, keyOf a ≠ keyOf b := by
  rw [parts_eq, List.pairwise_map]
  refine (nodup_eraseDups (values.map keyOf)).imp fun {key otherKey} hne a ha b hb heq => hne ?_
  have hkey : keyOf a = key := by simpa using (List.mem_filter.mp ha).2
  have hotherKey : keyOf b = otherKey := by simpa using (List.mem_filter.mp hb).2
  rw [← hkey, heq, hotherKey]

/-- Each value is in the part at one place and in no other. -/
theorem existsUnique_part {values : List α} {value : α} (h : value ∈ values) :
    ∃! i : Nat, ∃ part : List α, (parts keyOf values)[i]? = some part ∧ value ∈ part := by
  have hpart := (mem_parts keyOf).mpr ⟨value, h, rfl⟩
  obtain ⟨i, hi⟩ := List.mem_iff_getElem?.mp hpart
  refine ⟨i, ⟨_, hi, List.mem_filter.mpr ⟨h, decide_eq_true rfl⟩⟩, ?_⟩
  rintro j ⟨part, hj, hvalue⟩
  -- Parts at two places would have different keys.
  obtain ⟨hlti, heqi⟩ := List.getElem?_eq_some_iff.mp hi
  obtain ⟨hltj, heqj⟩ := List.getElem?_eq_some_iff.mp hj
  have hmem : value ∈ (parts keyOf values)[i] :=
    heqi ▸ List.mem_filter.mpr ⟨h, decide_eq_true rfl⟩
  have hpairwise := List.pairwise_iff_getElem.mp (pairwise_parts keyOf values)
  rcases Nat.lt_trichotomy j i with hlt | heq | hlt
  · exact absurd rfl (hpairwise j i hltj hlti hlt value (heqj ▸ hvalue) value hmem)
  · exact heq
  · exact absurd rfl (hpairwise i j hlti hltj hlt value hmem value (heqj ▸ hvalue))

/-- Nothing is lost, and nothing comes twice. -/
theorem flatten_parts_perm (values : List α) : (parts keyOf values).flatten.Perm values := by
  induction values using firstOccurrence_induction keyOf with
  | nil => exact List.Perm.refl []
  | cons value values ih =>
    -- The other parts are those of the values that do not go with the first one.
    rw [parts_cons, List.flatten_cons, List.cons_append]
    refine List.Perm.cons value ((List.Perm.append_left _ ih).trans ?_)
    have hsplit := List.filter_append_perm (fun other => decide (keyOf other = keyOf value)) values
    exact hsplit

/-- The parts stand in the order of their first values. -/
theorem heads_parts_sublist (values : List α) :
    ((parts keyOf values).filterMap List.head?).Sublist values := by
  induction values using firstOccurrence_induction keyOf with
  | nil => exact List.Sublist.refl []
  | cons value values ih =>
    rw [parts_cons, List.filterMap_cons_some (by rfl)]
    exact (ih.trans List.filter_sublist).cons_cons value

/-- Values in another order have the same parts: each in another order, and in another order of
their own. -/
theorem matched_parts {values values' : List α} (h : values.Perm values') :
    Matched List.Perm (parts keyOf values) (parts keyOf values') := by
  have hkeys : (values.map keyOf).eraseDups.Perm (values'.map keyOf).eraseDups := by
    refine (List.perm_ext_iff_of_nodup (nodup_eraseDups _) (nodup_eraseDups _)).mpr fun key => ?_
    rw [List.mem_eraseDups, List.mem_eraseDups, (h.map keyOf).mem_iff]
  rw [parts_eq, parts_eq]
  refine ((matched_eq_iff.mpr hkeys).imp ?_).map
  rintro key - _ - rfl
  exact h.filter _

end DeclMerge.Grouping
