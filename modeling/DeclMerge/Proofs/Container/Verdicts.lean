import DeclMerge.Merge.Container
import DeclMerge.Proofs.Divergence.Agreement

/-!
# The verdict on a group

The verdict on a group is a success if all pairs in it agree, so it does not depend on their order.
A single target agrees with itself.

## Main results

* `isSuccess_compareGroup` — the verdict on a group, read off its pairs
* `all_pairVerdicts_iff` — all pairs agree exactly if any two contributions do
-/

namespace DeclMerge

theorem isSuccess_combineVerdicts (pairs : List PairVerdict) :
    (combineVerdicts pairs).isSuccess = pairs.all fun pair => pair.verdict.isSuccess := by
  rw [Bool.eq_iff_iff, Verdict.isSuccess_iff, ← Verdict.causes_eq_nil_iff, combineVerdicts,
    Verdict.causes_collect, List.flatMap_eq_nil_iff, List.forall_mem_map, List.all_eq_true]
  simp only [Verdict.causes_eq_nil_iff, Verdict.isSuccess_iff]

/-- The verdict on a group is a success if all pairs in it agree. -/
theorem isSuccess_compareGroup (name : QualifiedName) (signature : Signature)
    (group : List Contribution) :
    (compareGroup name signature group).1.isSuccess =
      (pairVerdicts group).all fun pair => pair.verdict.isSuccess := by
  unfold compareGroup
  split
  · exact isSuccess_combineVerdicts _
  · -- With less than two contributions there are no pairs.
    rename_i hone
    match group, hone with
    | [], _ => rfl
    | [_], _ => rfl
    | _ :: _ :: _, hone => simp at hone

/-- All pairs of a group agree exactly if any two contributions do, in whatever order. -/
theorem all_pairVerdicts_iff {group : List Contribution} :
    ((pairVerdicts group).all fun pair => pair.verdict.isSuccess) = true ↔
      ∀ c ∈ group, ∀ d ∈ group, c.declaration.Agree d.declaration := by
  rw [List.all_eq_true]
  induction group with
  | nil => exact iff_of_true nofun nofun
  | cons first rest ih =>
    rw [pairVerdicts, List.forall_mem_append, ih, List.forall_mem_map]
    simp only [Verdict.isSuccess_iff]
    constructor
    · rintro ⟨hfirst, hrest⟩ c hc d hd
      rcases List.mem_cons.mp hc with hcfirst | hcrest <;>
        rcases List.mem_cons.mp hd with hdfirst | hdrest
      · exact hcfirst ▸ hdfirst ▸ .refl _
      · exact hcfirst ▸ hfirst d hdrest
      · exact hdfirst ▸ Declaration.Agree.symm (hfirst c hcrest)
      · exact hrest c hcrest d hdrest
    · exact fun hall => ⟨fun d hd => hall first List.mem_cons_self d (List.mem_cons_of_mem _ hd),
        fun c hc d hd => hall c (List.mem_cons_of_mem _ hc) d (List.mem_cons_of_mem _ hd)⟩

end DeclMerge
