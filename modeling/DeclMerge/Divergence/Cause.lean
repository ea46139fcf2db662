import DeclMerge.Text.Split

/-!
# Causes of a divergence

A cause is one axis along which two declarations diverge, or the causes found while comparing one
whole: a parameter, a parameter list or a declaration of some kind. The tree of causes keeps the
structure of the comparison.

## Main definitions

* `Axis` — what can differ
* `Cause` — axes, grouped by the wholes in which they differ
* `Cause.Traversal` — a loop over a stack of causes, and how far it has come
* `Cause.leaves` — the axes of a cause from left to right, by that loop
* `Cause.fringe` — the same list by recursion on the tree
* `Cause.text` — the text of a cause, like `Function[ReturnType]`
-/

namespace DeclMerge

/-- What can differ between two declarations. `unknown` stands where nothing more specific
applies, and `conflict` for inherited members that cannot be reconciled. -/
inductive Axis where
  | unknown | returnType | qualifiedName | suspend | actual | expect | external | lateInit | const
  | classKind | type | isVar | visibility | size | modality | inline | data | inner | companion
  | supertypes | receiver | conflict
deriving DecidableEq, Repr, Inhabited

namespace Axis

/-- The axes in their fixed order. -/
def all : List Axis :=
  [.unknown, .returnType, .qualifiedName, .suspend, .actual, .expect, .external, .lateInit,
   .const, .classKind, .type, .isVar, .visibility, .size, .modality, .inline, .data, .inner,
   .companion, .supertypes, .receiver, .conflict]

/-- The label of an axis. -/
def label : Axis → String
  | .unknown => "Unknown"
  | .returnType => "ReturnType"
  | .qualifiedName => "FqName"
  | .suspend => "Suspend"
  | .actual => "Actual"
  | .expect => "Expect"
  | .external => "External"
  | .lateInit => "LateInit"
  | .const => "Const"
  | .classKind => "ClassKind"
  | .type => "Type"
  | .isVar => "IsVar"
  | .visibility => "Visibility"
  | .size => "Size"
  | .modality => "Modality"
  | .inline => "Inline"
  | .data => "Data"
  | .inner => "Inner"
  | .companion => "Companion"
  | .supertypes => "Supertypes"
  | .receiver => "Receiver"
  | .conflict => "Conflict"

theorem mem_all (axis : Axis) : axis ∈ all := by
  cases axis <;> decide

end Axis

/-- The wholes whose comparison groups causes. `value` serves values, parameters and
properties. -/
inductive Whole where
  | parameterList | function | «class» | typeAlias | value
deriving DecidableEq, Repr, Inhabited

namespace Whole

/-- The wholes in their fixed order. -/
def all : List Whole := [.parameterList, .function, .class, .typeAlias, .value]

/-- The label of a whole. -/
def label : Whole → String
  | .parameterList => "ParametersMismatched"
  | .function => "Function"
  | .class => "Class"
  | .typeAlias => "TypeAlias"
  | .value => "Value"

end Whole

/-- Why two declarations diverge. -/
inductive Cause where
  | leaf (axis : Axis)
  | parameter (index : Nat) (causes : List Cause)
  | composite (whole : Whole) (causes : List Cause)
deriving Repr, Inhabited

namespace Cause

/-- The causes that a cause groups; a leaf groups none. -/
def children : Cause → List Cause
  | .leaf _ => []
  | .parameter _ causes => causes
  | .composite _ causes => causes

/-- Whether a cause groups others, possibly none. -/
def isComposite : Cause → Bool
  | .leaf _ => false
  | .parameter .. | .composite .. => true

/-- The axis of a leaf; a group has none of its own. -/
def axis? : Cause → Option Axis
  | .leaf axis => some axis
  | .parameter .. | .composite .. => none

/-- The label of a cause. -/
def label : Cause → String
  | .leaf axis => axis.label
  | .parameter .. => "Parameter"
  | .composite whole _ => whole.label

mutual
/-- The axes of a cause from left to right. -/
def fringe : Cause → List Axis
  | .leaf axis => [axis]
  | .parameter _ causes => fringeList causes
  | .composite _ causes => fringeList causes
/-- The axes of several causes, one cause after the other. -/
def fringeList : List Cause → List Axis
  | [] => []
  | cause :: causes => cause.fringe ++ fringeList causes
end

mutual
/-- The number of leaves and groups in a cause. -/
def size : Cause → Nat
  | .leaf _ => 1
  | .parameter _ causes => sizeList causes + 1
  | .composite _ causes => sizeList causes + 1
/-- The number of leaves and groups in several causes. -/
def sizeList : List Cause → Nat
  | [] => 0
  | cause :: causes => cause.size + sizeList causes
end

theorem size_eq (cause : Cause) : cause.size = sizeList cause.children + 1 := by
  cases cause <;> rfl

theorem sizeList_append (as bs : List Cause) :
    sizeList (as ++ bs) = sizeList as + sizeList bs := by
  induction as with
  | nil => simp [sizeList]
  | cons a as ih => simp [sizeList, ih, Nat.add_assoc]

/-- How far the axes of a cause have been listed: the causes that are still to be visited, the next
one last, and the axes found so far. -/
structure Traversal where
  stack : Array Cause
  found : Array Axis

namespace Traversal

variable {t u : Traversal}

/-- The traversal of a cause before anything is visited. -/
def start (cause : Cause) : Traversal := ⟨#[cause], #[]⟩

/-- The next cause leaves the stack, if there is one. The axis of a leaf is found; what a group
holds is pushed from the right, so that it is visited from the left. -/
def next? (t : Traversal) : Option Traversal :=
  t.stack.back?.map fun
    | .leaf axis => ⟨t.stack.pop, t.found.push axis⟩
    | group => ⟨t.stack.pop ++ group.children.reverse, t.found⟩

/-- The causes that are still to be visited, the next one first. -/
def pending (t : Traversal) : List Cause := t.stack.toList.reverse

/-- What a group holds is visited before what follows the group. -/
theorem pending_of_next? (h : t.next? = some u) :
    ∃ cause rest, t.pending = cause :: rest ∧ u.pending = cause.children ++ rest ∧
      u.found.toList = t.found.toList ++ cause.axis?.toList := by
  obtain ⟨cause, hback, hu⟩ := Option.map_eq_some_iff.mp h
  obtain ⟨before, hstack⟩ := Array.back?_eq_some_iff.mp hback
  refine ⟨cause, before.toList.reverse, by simp [pending, hstack], ?_⟩
  cases cause with
  | leaf | parameter | composite => subst hu; simp [pending, hstack, children, axis?]

/-- The axes found when nothing is left to be visited. -/
def run (t : Traversal) : Array Axis :=
  match _h : t.next? with
  | none => t.found
  | some next => next.run
termination_by sizeList t.pending
decreasing_by
  obtain ⟨cause, rest, hpending, hnext, -⟩ := pending_of_next? _h
  rw [hpending, hnext, sizeList_append, sizeList, size_eq]
  omega

end Traversal

/-- The axes of a cause from left to right. -/
def leaves (cause : Cause) : List Axis := (Traversal.start cause).run.toList

mutual
/-- The label of a cause, the index behind the label of a parameter, and what a group holds
between brackets. -/
def text : Cause → String
  | .leaf axis => axis.label
  | .parameter index causes => "Parameter#" ++ index.repr ++ "[" ++ textList causes ++ "]"
  | .composite whole causes => whole.label ++ "[" ++ textList causes ++ "]"
/-- The texts of several causes with commas between them. -/
def textList : List Cause → String
  | [] => ""
  | [cause] => cause.text
  | cause :: causes => cause.text ++ ", " ++ textList causes
end

end Cause

end DeclMerge
