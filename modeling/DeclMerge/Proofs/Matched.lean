import Mathlib.Data.List.Forall2
import Mathlib.Data.List.Perm.Basic

/-!
# Lists that correspond in some order

Two lists match if the second can be put in an order in which it corresponds to the first, element
by element. That is how two runs compare whose targets came in different orders.

## Main definitions

* `Matched` — lists that correspond in some order

## Main results

* `matched_iff` — matching in two steps, a correspondence and a permutation
* `Matched.exists_mem` — each element has a partner
* `Matched.of_map` — values correspond if their keys do
* `Matched.flatMap_perm` — what is found in lists that correspond
-/

namespace DeclMerge

variable {α β γ δ : Type} {as : List α} {bs : List β}

/-- The lists correspond in some order: each element of the first has a partner of its own in the
second, and there are no others. -/
inductive Matched (r : α → β → Prop) : List α → List β → Prop
  | nil : Matched r [] []
  | cons {a : α} {b : β} {as : List α} {before after : List β} (hab : r a b)
      (h : Matched r as (before ++ after)) : Matched r (a :: as) (before ++ b :: after)

/-- Lists match if the second can be put in the order of the first. -/
theorem matched_iff {r : α → β → Prop} :
    Matched r as bs ↔ ∃ middle, List.Forall₂ r as middle ∧ middle.Perm bs := by
  constructor
  · intro h
    induction h with
    | nil => exact ⟨[], .nil, .refl []⟩
    | @cons a b as before after hab _ ih =>
      obtain ⟨middle, hall, hperm⟩ := ih
      exact ⟨b :: middle, .cons hab hall, (hperm.cons b).trans List.perm_middle.symm⟩
  · rintro ⟨middle, hall, hperm⟩
    induction hall generalizing bs with
    | nil => exact hperm.nil_eq ▸ .nil
    | @cons a b as middle hab _ ih =>
      obtain ⟨before, after, rfl⟩ := List.append_of_mem (hperm.mem_iff.mp List.mem_cons_self)
      exact .cons hab (ih (hperm.trans List.perm_middle).cons_inv)

/-- Lists match by equality if they are permutations. -/
theorem matched_eq_iff {as bs : List α} : Matched Eq as bs ↔ as.Perm bs := by
  rw [matched_iff, List.forall₂_eq_eq_eq]
  exact exists_eq_left'

namespace Matched

variable {r s : α → β → Prop}

/-- Each element of the first list has a partner. -/
theorem exists_mem (h : Matched r as bs) {a : α} (ha : a ∈ as) : ∃ b ∈ bs, r a b := by
  induction h with
  | nil => cases ha
  | @cons a' b as before after hab _ ih =>
    rcases List.mem_cons.mp ha with rfl | hlater
    · exact ⟨b, by simp, hab⟩
    · obtain ⟨b', hb', hpartner⟩ := ih hlater
      exact ⟨b', List.perm_middle.mem_iff.mpr (List.mem_cons_of_mem b hb'), hpartner⟩

theorem imp (hrs : ∀ a ∈ as, ∀ b ∈ bs, r a b → s a b) (h : Matched r as bs) : Matched s as bs := by
  induction h with
  | nil => exact .nil
  | @cons a b as before after hab _ ih =>
    refine .cons (hrs a List.mem_cons_self b (by simp) hab) (ih fun a' ha' b' hb' => ?_)
    refine hrs a' (List.mem_cons_of_mem a ha') b' ?_
    exact List.perm_middle.mem_iff.mpr (List.mem_cons_of_mem b hb')

theorem map {r : γ → δ → Prop} {f : α → γ} {g : β → δ}
    (h : Matched (fun a b => r (f a) (g b)) as bs) : Matched r (as.map f) (bs.map g) := by
  induction h with
  | nil => exact .nil
  | cons hab _ ih =>
    rw [List.map_append] at ih
    rw [List.map_append]
    exact .cons hab ih

/-- Values correspond if their keys do. -/
theorem of_map {r : γ → δ → Prop} {f : α → γ} {g : β → δ}
    (h : Matched r (as.map f) (bs.map g)) : Matched (fun a b => r (f a) (g b)) as bs := by
  obtain ⟨_, hall, hperm⟩ := matched_iff.mp h
  -- The second list can follow its keys into the order of the first.
  obtain ⟨middle, rfl, hmiddle⟩ := (congrFun₂ (List.eq_map_comp_perm g) _ _).mpr hperm
  rw [List.forall₂_map_left_iff, List.forall₂_map_right_iff] at hall
  exact matched_iff.mpr ⟨middle, hall, hmiddle⟩

/-- What is found in lists that correspond is the same up to order, if it is so element by
element. -/
theorem flatMap_perm {f : α → List γ} {g : β → List γ}
    (h : Matched (fun a b => (f a).Perm (g b)) as bs) : (as.flatMap f).Perm (bs.flatMap g) := by
  induction h with
  | nil => exact .refl []
  | @cons a b as before after hab _ ih =>
    have hmiddle : ((before ++ b :: after).flatMap g).Perm ((b :: (before ++ after)).flatMap g) :=
      List.perm_middle.flatMap_right g
    refine .trans ?_ hmiddle.symm
    rw [List.flatMap_cons, List.flatMap_cons]
    exact hab.append ih

end Matched

end DeclMerge
