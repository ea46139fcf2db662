/-!
# Visibility

Visibilities are ordered by permissiveness: public above protected and internal, both of these
above private, and private above local. Protected and internal are incomparable. An unknown
visibility is comparable to nothing, not even to itself.

## Main definitions

* `Visibility.compare?` — the order by permissiveness, where there is one
* `Visibility.dominant?` — the member of a list that is at least as permissive as all of it
* `Visibility.passesDown` — whether subclasses see a member

## Main results

* `Visibility.dominant?_eq_some` — the visibility found is in the list and dominates it
* `Visibility.eq_of_dominates`, `Visibility.dominates_trans` — dominance is an order
* `Visibility.dominant?_congr` — the visibility found does not depend on the order of the list
-/

namespace DeclMerge

/-- Who may use a declaration. -/
inductive Visibility where
  | «public» | «protected» | internal | «private» | «local» | unknown
deriving DecidableEq, Repr, Inhabited

namespace Visibility

/-- The level of a visibility; incomparable visibilities may share one. -/
def rank? : Visibility → Option Nat
  | .public => some 3
  | .protected | .internal => some 2
  | .private => some 1
  | .local => some 0
  | .unknown => none

/-- The order by permissiveness. Equal visibilities compare as equal unless they are unknown, and
different ones of the same level do not compare. -/
def compare? (a b : Visibility) : Option Ordering := do
  let ra ← a.rank?
  let rb ← b.rank?
  if a = b then some .eq
  else if ra = rb then none
  else some (compare ra rb)

/-- Whether `a` compares to `b` and is at least as permissive. -/
def dominates (a b : Visibility) : Bool :=
  match a.compare? b with
  | some .eq | some .gt => true
  | some .lt | none => false

/-- The first visibility of a list that dominates the whole list. -/
def dominant? (visibilities : List Visibility) : Option Visibility :=
  visibilities.find? fun candidate => visibilities.all candidate.dominates

/-- Private and local members are never inherited. -/
def passesDown : Visibility → Bool
  | .private | .local => false
  | _ => true

/-- The word for a visibility. -/
def text : Visibility → String
  | .public => "public"
  | .protected => "protected"
  | .internal => "internal"
  | .private => "private"
  | .local => "local"
  | .unknown => "unknown"

/-- The visibilities by their words. -/
def table : List (String × Visibility) :=
  [.public, .protected, .internal, .private, .local, .unknown].map fun v => (v.text, v)

theorem dominant?_eq_some {visibilities : List Visibility} {v : Visibility}
    (h : dominant? visibilities = some v) :
    v ∈ visibilities ∧ ∀ w ∈ visibilities, v.dominates w = true :=
  ⟨List.mem_of_find?_eq_some h, by simpa using List.find?_some h⟩

theorem passesDown_iff {v : Visibility} : v.passesDown = true ↔ v ≠ .private ∧ v ≠ .local := by
  cases v <;> decide

/-- Every visibility but the unknown one dominates itself. -/
theorem dominates_self {v : Visibility} (h : v ≠ .unknown) : v.dominates v = true := by
  revert h
  cases v <;> decide

/-- Nothing dominates an unknown visibility. -/
theorem ne_unknown_of_dominates {a b : Visibility} (h : a.dominates b = true) : b ≠ .unknown := by
  rintro rfl
  revert h
  cases a <;> decide

theorem dominates_trans {a b c : Visibility} (hab : a.dominates b = true)
    (hbc : b.dominates c = true) : a.dominates c = true := by
  revert hab hbc
  cases a <;> cases b <;> cases c <;> decide

/-- Two visibilities that dominate each other are equal. -/
theorem eq_of_dominates {a b : Visibility} (hab : a.dominates b = true)
    (hba : b.dominates a = true) : a = b := by
  revert hab hba
  cases a <;> cases b <;> decide

/-- Only one visibility can dominate a list that it is in, so it is the one that is found. -/
theorem dominant?_eq_some_iff {visibilities : List Visibility} {v : Visibility} :
    dominant? visibilities = some v ↔
      v ∈ visibilities ∧ ∀ w ∈ visibilities, v.dominates w = true := by
  refine ⟨dominant?_eq_some, fun ⟨hv, hall⟩ => ?_⟩
  cases hfound : dominant? visibilities with
  | none => exact absurd hall (by simpa using List.find?_eq_none.mp hfound v hv)
  | some w =>
    obtain ⟨hw, hothers⟩ := dominant?_eq_some hfound
    rw [eq_of_dominates (hothers v hv) (hall w hw)]

/-- Which visibility dominates a list does not depend on its order. -/
theorem dominant?_congr {vs ws : List Visibility} (h : ∀ v, v ∈ vs ↔ v ∈ ws) :
    dominant? vs = dominant? ws := by
  refine Option.ext fun v => ?_
  simp only [dominant?_eq_some_iff, h]

end Visibility

end DeclMerge
