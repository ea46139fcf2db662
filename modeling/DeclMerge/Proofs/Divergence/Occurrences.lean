import DeclMerge.Proofs.Divergence.Differences

/-!
# Where an axis occurs in a cause

An axis may occur in a cause as one of its leaves, inside the cause for a parameter or outside of
all these. In the causes of a comparison, an axis outside is one on which the two declarations
differ, or their number of parameters, and an axis inside is one on which two parameters differ that
stand at the same position.

## Main definitions

* `Cause.Occurs` — an axis that occurs in a cause, inside a parameter or not

## Main results

* `Cause.mem_fringe_iff` — what occurs in a cause is among its axes
* `occurs_declarationVerdict` — what occurs in the causes of a comparison
-/

namespace DeclMerge

variable {a b : Declaration} {ps qs : List Parameter} {axis : Axis} {inside : Bool} {cause : Cause}
  {causes : List Cause}

/-- The axis occurs in a cause, and `inside` says whether it does so inside the cause for a
parameter. -/
inductive Cause.Occurs (axis : Axis) : Bool → Cause → Prop
  | leaf : Occurs axis false (.leaf axis)
  | parameter {inside : Bool} {index : Nat} {causes : List Cause} {cause : Cause}
      (hmem : cause ∈ causes) (h : Occurs axis inside cause) :
      Occurs axis true (.parameter index causes)
  | composite {inside : Bool} {whole : Whole} {causes : List Cause} {cause : Cause}
      (hmem : cause ∈ causes) (h : Occurs axis inside cause) :
      Occurs axis inside (.composite whole causes)

namespace Cause

@[simp] theorem occurs_leaf {other : Axis} :
    (leaf other).Occurs axis inside ↔ inside = false ∧ axis = other := by
  constructor
  · rintro ⟨⟩
    exact ⟨rfl, rfl⟩
  · rintro ⟨rfl, rfl⟩
    exact .leaf

@[simp] theorem occurs_parameter {index : Nat} :
    (parameter index causes).Occurs axis inside ↔
      inside = true ∧ ∃ cause ∈ causes, ∃ within, cause.Occurs axis within := by
  constructor
  · rintro ⟨⟩
    exact ⟨rfl, _, ‹_›, _, ‹_›⟩
  · rintro ⟨rfl, cause, hmem, within, h⟩
    exact .parameter hmem h

@[simp] theorem occurs_composite {whole : Whole} :
    (composite whole causes).Occurs axis inside ↔ ∃ cause ∈ causes, cause.Occurs axis inside := by
  constructor
  · rintro ⟨⟩
    exact ⟨_, ‹_›, ‹_›⟩
  · rintro ⟨cause, hmem, h⟩
    exact .composite hmem h

theorem mem_fringeList : axis ∈ fringeList causes ↔ ∃ cause ∈ causes, axis ∈ cause.fringe := by
  induction causes with
  | nil => simp [fringeList]
  | cons cause causes ih => simp [fringeList, ih]

/-- What is among the axes of a cause occurs in it. -/
theorem exists_occurs : (cause : Cause) → axis ∈ cause.fringe → ∃ inside, cause.Occurs axis inside
  | .leaf other, hmem => ⟨false, by simpa [fringe] using hmem⟩
  | .parameter index causes, hmem => by
    obtain ⟨cause, hcause, hfringe⟩ := mem_fringeList.mp hmem
    obtain ⟨inside, hoccurs⟩ := exists_occurs cause hfringe
    exact ⟨true, .parameter hcause hoccurs⟩
  | .composite whole causes, hmem => by
    obtain ⟨cause, hcause, hfringe⟩ := mem_fringeList.mp hmem
    obtain ⟨inside, hoccurs⟩ := exists_occurs cause hfringe
    exact ⟨inside, .composite hcause hoccurs⟩

/-- The axes of a cause are those that occur in it. -/
theorem mem_fringe_iff : axis ∈ cause.fringe ↔ ∃ inside, cause.Occurs axis inside := by
  refine ⟨exists_occurs cause, ?_⟩
  rintro ⟨inside, h⟩
  induction h with
  | leaf => simp [fringe]
  | parameter hmem _ ih => exact mem_fringeList.mpr ⟨_, hmem, ih⟩
  | composite hmem _ ih => exact mem_fringeList.mpr ⟨_, hmem, ih⟩

end Cause

/-! ### Occurrences in the causes of a comparison -/

/-- In the causes for parameters an axis is the number of parameters, or it occurs inside the cause
for a position at which two parameters differ on it. -/
theorem occurs_parameterListVerdict (hcause : cause ∈ (parameterListVerdict ps qs).causes)
    (h : cause.Occurs axis inside) :
    (inside = false ∧ axis = .size ∧ ps.length ≠ qs.length) ∨
      (inside = true ∧ ∃ i, axis ∈ differencesAt ps qs i) := by
  rw [parameterListVerdict] at hcause
  split at hcause
  · rename_i hlength
    rw [divergingPositions_eq_map hlength, Verdict.causes_wrap, Verdict.causes_ofCauses] at hcause
    split at hcause
    · cases hcause
    · obtain rfl := List.mem_singleton.mp hcause
      simp only [Cause.occurs_composite, List.mem_map] at h
      obtain ⟨_, ⟨i, -, rfl⟩, hoccurs⟩ := h
      obtain ⟨rfl, _, hleaf, within, hwithin⟩ := Cause.occurs_parameter.mp hoccurs
      obtain ⟨other, hother, rfl⟩ := List.mem_map.mp hleaf
      obtain ⟨-, rfl⟩ := Cause.occurs_leaf.mp hwithin
      exact .inr ⟨rfl, i, hother⟩
  · rename_i hlength
    obtain rfl := List.mem_singleton.mp hcause
    obtain ⟨_, hleaf, hoccurs⟩ := Cause.occurs_composite.mp h
    obtain rfl := List.mem_singleton.mp hleaf
    obtain ⟨rfl, rfl⟩ := Cause.occurs_leaf.mp hoccurs
    exact .inl ⟨rfl, rfl, hlength⟩

/-- What occurs in the causes for two declarations of one kind: outside of parameters the axes on
which they differ, and their number of parameters; inside, the axes on which parameters differ. -/
theorem occurs_declarationVerdict (hkind : a.kind = b.kind)
    (hcause : cause ∈ (declarationVerdict a b).causes) (h : cause.Occurs axis inside) :
    (inside = false ∧ axis ∈ a.differences b) ∨
      (inside = false ∧ axis = .size ∧ a.parameters.length ≠ b.parameters.length) ∨
        (inside = true ∧ ∃ i, axis ∈ differencesAt a.parameters b.parameters i) := by
  rw [declarationVerdict_of_kind_eq hkind, Verdict.causes_wrap] at hcause
  split at hcause
  · cases hcause
  · obtain rfl := List.mem_singleton.mp hcause
    obtain ⟨child, hchild, hoccurs⟩ := Cause.occurs_composite.mp h
    rw [Verdict.causes_and, Verdict.causes_ofCauses, List.mem_append] at hchild
    rcases hchild with hleaf | hparameters
    · obtain ⟨other, hother, rfl⟩ := List.mem_map.mp hleaf
      obtain ⟨rfl, rfl⟩ := Cause.occurs_leaf.mp hoccurs
      exact .inl ⟨rfl, hother⟩
    · exact .inr (occurs_parameterListVerdict hparameters hoccurs)

end DeclMerge
