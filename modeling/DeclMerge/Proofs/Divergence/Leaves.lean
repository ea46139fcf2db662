import DeclMerge.Divergence.Cause
import Mathlib.Data.List.Basic

/-!
# The axes of a cause by a loop over a stack

At any moment of the loop the axes that are already found, followed by those of the causes on the
stack, are the axes of the whole. Each turn takes one leaf or one group off the stack, and what it
puts there instead has been counted with the group, so the number of turns is known from the start.

## Main definitions

* `Cause.ReadsLeftToRight` — listings that follow the recursion on causes
* `Cause.Traversal.after` — the loop after some number of turns

## Main results

* `Cause.Traversal.toList_run` — what the loop returns, whatever is on the stack
* `Cause.Traversal.exists_after` — the loop ends, whatever is on the stack
* `Cause.leaves_readsLeftToRight` — the loop ends, and its listing is the one from left to right
-/

namespace DeclMerge.Cause

/-! ### The recursion on causes -/

theorem fringe_eq (cause : Cause) :
    cause.fringe = cause.axis?.toList ++ fringeList cause.children := by
  cases cause <;> rfl

theorem fringeList_append (as bs : List Cause) :
    fringeList (as ++ bs) = fringeList as ++ fringeList bs := by
  induction as with
  | nil => rfl
  | cons a as ih => rw [List.cons_append, fringeList, fringeList, ih, List.append_assoc]

theorem fringeList_eq_flatMap (causes : List Cause) : fringeList causes = causes.flatMap fringe := by
  induction causes with
  | nil => rfl
  | cons cause causes ih => rw [fringeList, List.flatMap_cons, ih]

/-- A listing of axes goes from left to right: a leaf is listed as itself, and a group as what it
holds, one cause after the other. An empty group is listed as nothing. -/
structure ReadsLeftToRight (list : Cause → List Axis) : Prop where
  leaf : ∀ axis, list (.leaf axis) = [axis]
  group : ∀ cause, cause.isComposite = true → list cause = cause.children.flatMap list

theorem readsLeftToRight_fringe : ReadsLeftToRight fringe where
  leaf _ := rfl
  group cause h := by
    cases cause with
    | leaf => cases h
    | parameter | composite => exact fringeList_eq_flatMap _

/-- There is only one listing from left to right. -/
theorem ReadsLeftToRight.eq_fringe {list : Cause → List Axis} (h : ReadsLeftToRight list) :
    (cause : Cause) → list cause = cause.fringe
  | .leaf axis => h.leaf axis
  | .parameter index causes => by
    rw [h.group _ rfl, children, fringe, fringeList_eq_flatMap]
    exact List.flatMap_congr fun cause hmem => h.eq_fringe cause
  | .composite whole causes => by
    rw [h.group _ rfl, children, fringe, fringeList_eq_flatMap]
    exact List.flatMap_congr fun cause hmem => h.eq_fringe cause

/-! ### The loop -/

namespace Traversal

variable {t u : Traversal}

/-- The loop after some number of turns, unless it has ended before. -/
def after : Nat → Traversal → Option Traversal
  | 0, t => some t
  | n + 1, t => t.next?.bind (after n)

/-- The loop ends when the stack is empty. -/
theorem next?_eq_none_iff : t.next? = none ↔ t.pending = [] := by
  simp [next?, pending]

/-- A turn neither loses nor repeats an axis. -/
theorem fringeList_pending_of_next? (h : t.next? = some u) :
    u.found.toList ++ fringeList u.pending = t.found.toList ++ fringeList t.pending := by
  obtain ⟨cause, rest, ht, hu, hfound⟩ := pending_of_next? h
  rw [ht, hu, hfound, fringeList, fringe_eq cause, fringeList_append, List.append_assoc,
    List.append_assoc]

/-- A turn uses up one leaf or group. -/
theorem sizeList_pending_of_next? (h : t.next? = some u) :
    sizeList t.pending = sizeList u.pending + 1 := by
  obtain ⟨cause, rest, ht, hu, -⟩ := pending_of_next? h
  rw [ht, hu, sizeList, size_eq, sizeList_append]
  omega

/-- What was found before is followed by the axes of what is on the stack, the next cause first. -/
theorem toList_run (t : Traversal) : t.run.toList = t.found.toList ++ fringeList t.pending := by
  fun_induction run t with
  | case1 t hend => rw [next?_eq_none_iff.mp hend, fringeList, List.append_nil]
  | case2 t next hnext ih => rw [ih, fringeList_pending_of_next? hnext]

/-- The loop ends after as many turns as there are leaves and groups on the stack, and returns what
it has found by then. -/
theorem exists_after (t : Traversal) :
    ∃ u, t.after (sizeList t.pending) = some u ∧ u.next? = none ∧ u.found = t.run := by
  fun_induction run t with
  | case1 t hend =>
    refine ⟨t, ?_, hend, rfl⟩
    rw [next?_eq_none_iff.mp hend, sizeList, after]
  | case2 t next hnext ih =>
    obtain ⟨u, hafter, hend, hfound⟩ := ih
    refine ⟨u, ?_, hend, hfound⟩
    rw [sizeList_pending_of_next? hnext, after, hnext, Option.bind_some, hafter]

end Traversal

/-- The loop and the recursion list the same axes. -/
theorem leaves_eq_fringe (cause : Cause) : cause.leaves = cause.fringe := by
  have hpending : (Traversal.start cause).pending = [cause] := rfl
  have hfound : (Traversal.start cause).found.toList = [] := rfl
  rw [leaves, Traversal.toList_run, hpending, hfound, List.nil_append, fringeList, fringeList,
    List.append_nil]

/-- For every cause the loop over a stack ends, after one turn for each leaf and group, and what it
returns is the one listing that goes from left to right. -/
theorem leaves_readsLeftToRight :
    (∀ cause : Cause, ∃ t, (Traversal.start cause).after cause.size = some t ∧ t.next? = none ∧
      t.found.toList = cause.leaves) ∧
    ∀ list : Cause → List Axis, ReadsLeftToRight list ↔ list = leaves := by
  constructor
  · intro cause
    have hsize : sizeList (Traversal.start cause).pending = cause.size := Nat.add_zero cause.size
    obtain ⟨t, hafter, hend, hfound⟩ := (Traversal.start cause).exists_after
    exact ⟨t, hsize ▸ hafter, hend, congrArg Array.toList hfound⟩
  · intro list
    rw [show leaves = fringe from funext leaves_eq_fringe]
    constructor
    · exact fun h => funext h.eq_fringe
    · rintro rfl
      exact readsLeftToRight_fringe

/-- Groups may be empty, and what follows a group on the stack waits until the group is done. -/
example :
    (composite .class [.composite .function [], .parameter 2 [.leaf .type, .leaf .isVar],
      .leaf .supertypes]).leaves = [.type, .isVar, .supertypes] := by cbv

end DeclMerge.Cause
