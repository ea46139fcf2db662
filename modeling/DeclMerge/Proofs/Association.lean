import Mathlib.Data.List.Nodup

/-!
# Association lists

Classes, statuses and groups are looked up by key in lists of pairs. The first pair with a key
counts, and when no key comes twice every pair does.

## Main results

* `isSome_lookup_iff` — the keys that are found
* `lookup_eq_some_of_mem`, `mem_of_lookup_eq_some` — the pairs that are found
* `lookup_concat` — a pair that is added at the end
* `lookup_eq_of_perm`, `lookup_filter_contains` — pairs in another order, and some pairs only
* `map_eq_map_of_imp` — lists with the same keys have the same of what follows from the keys
-/

namespace DeclMerge

variable {α β : Type} [DecidableEq α] {entries : List (α × β)} {key : α} {value : β}

theorem isSome_lookup_iff : (entries.lookup key).isSome = true ↔ key ∈ entries.map Prod.fst := by
  rw [List.lookup_isSome_iff, List.mem_map]
  exact exists_congr fun entry => and_congr_right fun _ => beq_iff_eq.trans eq_comm

/-- Every pair counts when no key comes twice. -/
theorem lookup_eq_some_of_mem (hnodup : (entries.map Prod.fst).Nodup)
    (h : (key, value) ∈ entries) : entries.lookup key = some value := by
  induction entries with
  | nil => cases h
  | cons entry entries ih =>
    obtain ⟨k, v⟩ := entry
    rw [List.map_cons, List.nodup_cons] at hnodup
    rcases List.mem_cons.mp h with hfirst | hrest
    · cases hfirst
      exact List.lookup_cons_self
    · have hne : key ≠ k := by
        rintro rfl
        exact hnodup.1 (List.mem_map.mpr ⟨_, hrest, rfl⟩)
      rw [List.lookup_cons, beq_eq_false_iff_ne.mpr hne]
      exact ih hnodup.2 hrest

theorem mem_of_lookup_eq_some (h : entries.lookup key = some value) : (key, value) ∈ entries := by
  obtain ⟨before, after, rfl, -⟩ := List.lookup_eq_some_iff.mp h
  exact List.mem_append_right _ List.mem_cons_self

/-- A pair that is added at the end counts if its key is new. -/
theorem lookup_concat (entries : List (α × β)) (key : α) (entry : α × β) :
    (entries ++ [entry]).lookup key =
      ((entries.lookup key).or (if key = entry.1 then some entry.2 else none)) := by
  obtain ⟨k, value⟩ := entry
  rw [List.lookup_append, List.lookup_cons, List.lookup_nil]
  by_cases h : key = k
  · simp [h]
  · simp [h, beq_eq_false_iff_ne.mpr h]

/-- The order of pairs does not matter where at most one of them can be found. -/
theorem lookup_eq_of_perm {entries entries' : List (α × β)} (h : entries.Perm entries')
    (honce : (entries.countP fun entry => entry.1 = key) ≤ 1) :
    entries.lookup key = entries'.lookup key := by
  induction h with
  | nil => rfl
  | @cons entry entries entries' _ ih =>
    obtain ⟨k, v⟩ := entry
    rw [List.countP_cons] at honce
    rw [List.lookup_cons, List.lookup_cons, ih (by omega)]
  | swap second first entries =>
    obtain ⟨k, v⟩ := first
    obtain ⟨k', v'⟩ := second
    simp only [List.lookup_cons]
    by_cases hfirst : key = k
    · by_cases hsecond : key = k'
      · subst hfirst hsecond
        simp at honce
      · simp [beq_eq_false_iff_ne.mpr hsecond]
    · simp [beq_eq_false_iff_ne.mpr hfirst]
  | trans h _ ih ih' => exact (ih honce).trans (ih' (h.countP_eq _ ▸ honce))

/-- A list that keeps some keys has their pairs and no others. -/
theorem lookup_filter_contains (keys : List α) (entries : List (α × β)) (key : α) :
    (entries.filter fun entry => keys.contains entry.1).lookup key =
      if key ∈ keys then entries.lookup key else none := by
  induction entries with
  | nil => simp
  | cons entry entries ih =>
    obtain ⟨k, v⟩ := entry
    rw [List.filter_cons]
    by_cases hkey : key = k
    · subst hkey
      by_cases hmem : key ∈ keys
      · rw [if_pos hmem, if_pos (List.contains_iff_mem.mpr hmem), List.lookup_cons_self,
          List.lookup_cons_self]
      · rw [if_neg hmem, if_neg (mt List.contains_iff_mem.mp hmem), ih, if_neg hmem]
    · have hrest : ∀ entries : List (α × β), ((k, v) :: entries).lookup key = entries.lookup key :=
        fun entries => by rw [List.lookup_cons, beq_eq_false_iff_ne.mpr hkey]
      split <;> simp only [hrest, ih]

/-- Two lists that agree under one pair of functions agree under another one as well, if that
follows element by element. -/
theorem map_eq_map_of_imp {α β γ δ : Type} {f : α → γ} {g : β → γ} {f' : α → δ} {g' : β → δ}
    {as : List α} {bs : List β} (h : as.map f = bs.map g)
    (himp : ∀ a ∈ as, ∀ b ∈ bs, f a = g b → f' a = g' b) : as.map f' = bs.map g' := by
  induction as generalizing bs with
  | nil =>
    rw [List.map_nil, eq_comm, List.map_eq_nil_iff] at h
    rw [h, List.map_nil, List.map_nil]
  | cons a as ih =>
    cases bs with
    | nil => cases h
    | cons b bs =>
      rw [List.map_cons, List.map_cons, List.cons_eq_cons] at h
      rw [List.map_cons, List.map_cons, himp a List.mem_cons_self b List.mem_cons_self h.1]
      congr 1
      exact ih h.2 fun a ha b hb => himp a (List.mem_cons_of_mem _ ha) b (List.mem_cons_of_mem _ hb)

end DeclMerge
