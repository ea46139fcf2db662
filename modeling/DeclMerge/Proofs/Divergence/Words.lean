import DeclMerge.Divergence.Verdict
import Mathlib.Algebra.FreeMonoid.Basic

/-!
# Verdicts as words of causes

A verdict is a word of causes, and a success is the empty one. Combining verdicts puts their words
one behind the other, so verdicts are the free monoid on causes: nothing is dropped, nothing is
merged, and order is kept. What an expression over verdicts gives can be read off its words without
any verdict, and the only thing that can go wrong in it is a failure for which an empty list of
causes is given.

## Main definitions

* `Verdict.Expr` — expressions over verdicts, with `Expr.eval` and the words they stand for
* `Verdict.wordEquiv` — verdicts and words of causes
* `Verdict.FreeOnCauses` — the laws of the free monoid, for verdicts and for expressions

## Main results

* `Verdict.Expr.eval_eq` — the value of an expression is the verdict of its word
* `Verdict.existsUnique_lift` — a map of causes into a monoid extends to verdicts in one way
* `Verdict.freeOnCauses` — verdicts are the free monoid on causes
-/

namespace DeclMerge.Verdict

/-! ### The monoid -/

theorem and_assoc (u v w : Verdict) : (u.and v).and w = u.and (v.and w) := by
  ext1
  simp only [causes_and, List.append_assoc]

theorem success_and (v : Verdict) : Verdict.success.and v = v := rfl

theorem and_success (v : Verdict) : v.and .success = v := by
  cases v <;> rfl

/-- Verdicts are multiplied by putting their causes together. -/
instance : Monoid Verdict where
  mul := Verdict.and
  one := .success
  mul_assoc := and_assoc
  one_mul := success_and
  mul_one := and_success

theorem ofCauses_causes (v : Verdict) : ofCauses v.causes = v := by
  ext1
  rw [causes_ofCauses]

/-- Verdicts and words of causes. -/
def wordEquiv : Verdict ≃* FreeMonoid Cause where
  toFun v := FreeMonoid.ofList v.causes
  invFun word := ofCauses word.toList
  left_inv := ofCauses_causes
  right_inv word := causes_ofCauses word.toList
  map_mul' := causes_and

theorem collect_eq_prod (vs : List Verdict) : collect vs = vs.prod :=
  List.prod_eq_foldl.symm

/-- A map of causes into a monoid extends to verdicts in one way. -/
theorem existsUnique_lift {M : Type} [Monoid M] (f : Cause → M) :
    ∃! φ : Verdict →* M, ∀ cause, φ (fail cause) = f cause := by
  refine ⟨(FreeMonoid.lift f).comp wordEquiv.toMonoidHom, fun cause => ?_, fun φ hφ => ?_⟩
  · exact FreeMonoid.lift_eval_of f cause
  · -- On words there is only one extension, and verdicts are words.
    have hwords : φ.comp wordEquiv.symm.toMonoidHom = FreeMonoid.lift f :=
      FreeMonoid.hom_eq fun cause => (hφ cause).trans (FreeMonoid.lift_eval_of f cause).symm
    ext v
    have hv := DFunLike.congr_fun hwords (wordEquiv v)
    rwa [MonoidHom.comp_apply, MulEquiv.coe_toMonoidHom, wordEquiv.symm_apply_apply] at hv

/-! ### Expressions -/

/-- An expression over verdicts. -/
inductive Expr where
  | success
  | failure (cause : Cause)
  | failures (causes : List Cause)
  | ofCauses (causes : List Cause)
  | check (holds : Bool) (cause : Cause)
  | and (first second : Expr)
  | wrap (group : List Cause → Cause) (inner : Expr)
  | collect (items : List Expr)

namespace Expr

mutual
/-- The value of an expression, if it has one. -/
def eval : Expr → Option Verdict
  | .success => some .success
  | .failure cause => some (fail cause)
  | .failures causes => ofList? causes
  | .ofCauses causes => some (Verdict.ofCauses causes)
  | .check holds cause => some (Verdict.check holds cause)
  | .and first second => do return (← first.eval).and (← second.eval)
  | .wrap group inner => do return (← inner.eval).wrap group
  | .collect items => do return Verdict.collect (← evalAll items)
/-- The values of several expressions, if all of them have one. -/
def evalAll : List Expr → Option (List Verdict)
  | [] => some []
  | item :: items => do return (← item.eval) :: (← evalAll items)
end

mutual
/-- The word of an expression. -/
def word : Expr → List Cause
  | .success => []
  | .failure cause => [cause]
  | .failures causes | .ofCauses causes => causes
  | .check holds cause => if holds then [] else [cause]
  | .and first second => first.word ++ second.word
  | .wrap group inner => if inner.word = [] then [] else [group inner.word]
  | .collect items => wordAll items
/-- The words of several expressions, one behind the other. -/
def wordAll : List Expr → List Cause
  | [] => []
  | item :: items => item.word ++ wordAll items
end

mutual
/-- Whether some failure in an expression is given no causes. -/
def hasEmptyFailure : Expr → Bool
  | .success | .failure _ | .ofCauses _ | .check _ _ => false
  | .failures causes => causes.isEmpty
  | .and first second => first.hasEmptyFailure || second.hasEmptyFailure
  | .wrap _ inner => inner.hasEmptyFailure
  | .collect items => anyEmptyFailure items
/-- Whether some failure in several expressions is given no causes. -/
def anyEmptyFailure : List Expr → Bool
  | [] => false
  | item :: items => item.hasEmptyFailure || anyEmptyFailure items
end

theorem wordAll_eq_flatMap (items : List Expr) : wordAll items = items.flatMap word := by
  induction items with
  | nil => rfl
  | cons item items ih => rw [wordAll, List.flatMap_cons, ih]

mutual
/-- An expression has the verdict of its word, unless some failure in it is given no causes. -/
theorem eval_eq (e : Expr) :
    e.eval = if e.hasEmptyFailure then none else some (Verdict.ofCauses e.word) := by
  cases e with
  | success | failure | ofCauses => rfl
  | failures causes => cases causes <;> rfl
  | check holds cause => cases holds <;> rfl
  | and first second =>
    have hword : (Verdict.ofCauses first.word).and (Verdict.ofCauses second.word) =
        Verdict.ofCauses (first.word ++ second.word) := by
      ext1
      simp only [causes_and, causes_ofCauses]
    rw [eval, eval_eq first, eval_eq second, hasEmptyFailure, word, ← hword]
    cases first.hasEmptyFailure <;> cases second.hasEmptyFailure <;> rfl
  | wrap group inner =>
    have hword : (Verdict.ofCauses inner.word).wrap group =
        Verdict.ofCauses (if inner.word = [] then [] else [group inner.word]) := by
      ext1
      simp only [causes_wrap, causes_ofCauses]
    rw [eval, eval_eq inner, hasEmptyFailure, word, ← hword]
    cases inner.hasEmptyFailure <;> rfl
  | collect items =>
    have hword : Verdict.collect (items.map fun item => Verdict.ofCauses item.word) =
        Verdict.ofCauses (wordAll items) := by
      ext1
      simp only [causes_collect, causes_ofCauses, List.flatMap_map, wordAll_eq_flatMap]
    rw [eval, evalAll_eq items, hasEmptyFailure, word, ← hword]
    cases anyEmptyFailure items <;> rfl
theorem evalAll_eq (items : List Expr) :
    evalAll items = if anyEmptyFailure items then none
      else some (items.map fun item => Verdict.ofCauses item.word) := by
  cases items with
  | nil => rfl
  | cons item items =>
    rw [evalAll, eval_eq item, evalAll_eq items, anyEmptyFailure]
    cases item.hasEmptyFailure <;> cases anyEmptyFailure items <;> rfl
end

end Expr

/-! ### The laws -/

/-- Verdicts are the free monoid on causes. -/
structure FreeOnCauses : Prop where
  /-- Only a failure that is given no causes goes wrong. -/
  eval_eq_none_iff : ∀ e : Expr, e.eval = none ↔ e.hasEmptyFailure = true
  ofList?_eq_none_iff : ∀ causes, ofList? causes = none ↔ causes = []
  causes_eval : ∀ (e : Expr) (v : Verdict), e.eval = some v → v.causes = e.word
  eq_success_iff : ∀ v : Verdict, v = .success ↔ v.causes = []
  causes_and : ∀ v w : Verdict, (v.and w).causes = v.causes ++ w.causes
  causes_collect : ∀ vs : List Verdict, (collect vs).causes = (vs.map causes).flatten
  ofCauses_causes : ∀ v : Verdict, ofCauses v.causes = v
  causes_ofCauses : ∀ list : List Cause, (ofCauses list).causes = list
  wrap_success : ∀ group, Verdict.success.wrap group = .success
  wrap_of_ne : ∀ (v : Verdict) (group : List Cause → Cause), v ≠ .success →
    v.wrap group = fail (group v.causes)
  and_assoc : ∀ u v w : Verdict, (u.and v).and w = u.and (v.and w)
  success_and : ∀ v : Verdict, Verdict.success.and v = v
  and_success : ∀ v : Verdict, v.and .success = v
  collect_append : ∀ vs ws : List Verdict, collect (vs ++ ws) = (collect vs).and (collect ws)
  existsUnique_lift : ∀ (M : Type) [Monoid M] (f : Cause → M),
    ∃! φ : Verdict →* M, ∀ cause, φ (fail cause) = f cause

theorem ofList?_eq_none_iff {causes : List Cause} : ofList? causes = none ↔ causes = [] := by
  cases causes <;> simp [ofList?, Causes.ofList?]

theorem wrap_of_ne_success {v : Verdict} (h : v ≠ .success) (group : List Cause → Cause) :
    v.wrap group = fail (group v.causes) := by
  cases v with
  | success => exact absurd rfl h
  | failure causes => rfl

/-- Verdicts are the free monoid on causes, whatever is combined and however often. -/
theorem freeOnCauses : FreeOnCauses where
  eval_eq_none_iff e := by
    rw [Expr.eval_eq]
    cases e.hasEmptyFailure <;> simp
  ofList?_eq_none_iff _ := ofList?_eq_none_iff
  causes_eval e v h := by
    rw [Expr.eval_eq, Option.ite_none_left_eq_some] at h
    rw [← Option.some.inj h.2, causes_ofCauses]
  eq_success_iff _ := causes_eq_nil_iff.symm
  causes_and := causes_and
  causes_collect vs := by rw [causes_collect, List.flatMap_def]
  ofCauses_causes := ofCauses_causes
  causes_ofCauses := causes_ofCauses
  wrap_success _ := rfl
  wrap_of_ne _ group h := wrap_of_ne_success h group
  and_assoc := and_assoc
  success_and := success_and
  and_success := and_success
  collect_append vs ws := by
    rw [collect_eq_prod, collect_eq_prod, collect_eq_prod]
    exact List.prod_append
  existsUnique_lift M _ f := existsUnique_lift f

end DeclMerge.Verdict
