import DeclMerge.Divergence.Cause

/-!
# Verdicts of a comparison

A comparison succeeds, or it fails with at least one cause. Verdicts are combined one after the
other: causes add up in order and none is dropped.

## Main definitions

* `Causes` — a list of causes that is not empty
* `Verdict` — success, or failure with causes
* `Verdict.and` — the causes of both verdicts
* `Verdict.wrap` — all causes as one
* `Verdict.collect` — the causes of a list of verdicts

## Main results

* `Verdict.causes_and`, `Verdict.causes_collect` — combining verdicts appends their causes
* `Verdict.ext` — a verdict is determined by its causes
-/

namespace DeclMerge

/-- A list of causes that is not empty. -/
structure Causes where
  toList : List Cause
  ne_nil : toList ≠ []

namespace Causes

/-- A single cause. -/
def one (cause : Cause) : Causes := ⟨[cause], by simp⟩

/-- The causes of both lists. -/
def append (a b : Causes) : Causes := ⟨a.toList ++ b.toList, by simp [a.ne_nil]⟩

/-- A list of causes, unless it is empty. -/
def ofList? : List Cause → Option Causes
  | [] => none
  | cause :: causes => some ⟨cause :: causes, by simp⟩

/-- What is said of an empty list of causes. -/
def emptyMessage : String := "a comparison failure must carry at least one cause"

end Causes

/-- What a comparison finds. -/
inductive Verdict where
  | success
  | failure (causes : Causes)

namespace Verdict

/-- A failure with a single cause. -/
def fail (cause : Cause) : Verdict := .failure (.one cause)

/-- A failure with the given causes; there must be one. -/
def ofList? (causes : List Cause) : Option Verdict :=
  (Causes.ofList? causes).map .failure

/-- A failure with the given causes, or success when there is none. -/
def ofCauses (causes : List Cause) : Verdict :=
  (ofList? causes).getD .success

/-- Success when a condition holds, else a failure with the given cause. -/
def check (holds : Bool) (cause : Cause) : Verdict :=
  if holds then .success else .fail cause

/-- Whether a verdict is a success. -/
def isSuccess : Verdict → Bool
  | .success => true
  | .failure _ => false

/-- Whether a verdict is a failure. -/
def isFailure (v : Verdict) : Bool := !v.isSuccess

/-- The causes of a verdict; a success has none. -/
def causes : Verdict → List Cause
  | .success => []
  | .failure causes => causes.toList

/-- The causes of both verdicts, those of the first one first. -/
def and : Verdict → Verdict → Verdict
  | .success, v => v
  | .failure a, .success => .failure a
  | .failure a, .failure b => .failure (a.append b)

/-- All causes as the single cause that `group` makes of them. -/
def wrap (v : Verdict) (group : List Cause → Cause) : Verdict :=
  match v with
  | .success => .success
  | .failure causes => .fail (group causes.toList)

/-- The causes of all verdicts, in order. -/
def collect (vs : List Verdict) : Verdict := vs.foldl and .success

/-- The axes of all causes, from left to right. -/
def leaves (v : Verdict) : List Axis := v.causes.flatMap Cause.leaves

/-- The text of a verdict. -/
def text : Verdict → String
  | .success => "Success"
  | .failure causes => "Failure(" ++ Cause.textList causes.toList ++ ")"

@[simp] theorem causes_success : causes .success = [] := rfl

/-- A verdict is determined by its causes. -/
@[ext] theorem ext {v w : Verdict} (h : v.causes = w.causes) : v = w := by
  match v, w with
  | .success, .success => rfl
  | .success, .failure b => exact absurd h.symm b.ne_nil
  | .failure a, .success => exact absurd h a.ne_nil
  | .failure ⟨_, _⟩, .failure ⟨_, _⟩ =>
    simp only [causes] at h
    subst h
    rfl

theorem causes_eq_nil_iff {v : Verdict} : v.causes = [] ↔ v = .success := by
  cases v with
  | success => simp
  | failure causes => simp [Verdict.causes, causes.ne_nil]

@[simp] theorem causes_ofCauses (causes : List Cause) : (ofCauses causes).causes = causes := by
  cases causes <;> rfl

@[simp] theorem causes_and (v w : Verdict) : (v.and w).causes = v.causes ++ w.causes := by
  cases v <;> cases w <;> simp [and, Verdict.causes, Causes.append]

theorem causes_foldl_and (vs : List Verdict) (v : Verdict) :
    (vs.foldl and v).causes = v.causes ++ vs.flatMap causes := by
  induction vs generalizing v with
  | nil => simp
  | cons w ws ih => simp [ih]

@[simp] theorem causes_collect (vs : List Verdict) :
    (collect vs).causes = vs.flatMap causes := by
  simp [collect, causes_foldl_and]

@[simp] theorem causes_check (holds : Bool) (cause : Cause) :
    (check holds cause).causes = if holds then [] else [cause] := by
  cases holds <;> rfl

@[simp] theorem causes_wrap (v : Verdict) (group : List Cause → Cause) :
    (v.wrap group).causes = if v.causes = [] then [] else [group v.causes] := by
  cases v with
  | success => rfl
  | failure causes =>
    simp [wrap, fail, Causes.one, Verdict.causes, causes.ne_nil]

end Verdict

end DeclMerge
