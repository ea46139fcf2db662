import DeclMerge.Declaration.Basic
import DeclMerge.Divergence.Verdict

/-!
# Comparing two declarations

For each kind of declaration there is a list of checks, one for each axis. The axes whose checks
fail are the causes, in the order of the list, grouped under the kind. The members of classes are
not looked at.

## Main definitions

* `Check` — an axis and whether two declarations agree on it
* `parameterListVerdict` — parameters position by position
* `declarationVerdict` — declarations of any kinds
* `verdictAs` — declarations of one expected kind
-/

namespace DeclMerge

/-- An axis and whether two declarations agree on it. -/
structure Check where
  axis : Axis
  agrees : Bool

namespace Check

/-- One cause for each check that fails. -/
def verdict (checks : List Check) : Verdict :=
  .collect (checks.map fun c => .check c.agrees (.leaf c.axis))

theorem causes_verdict (checks : List Check) :
    (verdict checks).causes =
      (checks.filter fun c => !c.agrees).map fun c => .leaf c.axis := by
  induction checks with
  | nil => rfl
  | cons c cs ih =>
    simp only [verdict, Verdict.causes_collect, List.map_cons, List.flatMap_cons] at ih ⊢
    rw [ih]
    cases h : c.agrees <;> simp [h]

end Check

/-- Whether both headers carry all of `flags`, or neither does. -/
def sameFlags (flags : Flags) (a b : Header) : Bool :=
  a.flags.contains flags == b.flags.contains flags

/-- The checks that every declaration with a visibility starts with. -/
def headerChecks (a b : Header) : List Check :=
  [⟨.qualifiedName, a.name = b.name⟩, ⟨.visibility, a.visibility = b.visibility⟩]

/-- The three checks on how targets share a declaration. -/
def multiplatformChecks (a b : Header) : List Check :=
  [⟨.expect, sameFlags .isExpect a b⟩, ⟨.actual, sameFlags .isActual a b⟩,
   ⟨.external, sameFlags .isExternal a b⟩]

/-- The checks on two parameters, or two values. -/
def parameterChecks (a b : Parameter) : List Check :=
  [⟨.qualifiedName, a.name = b.name⟩, ⟨.type, a.type = b.type⟩, ⟨.isVar, a.isVar = b.isVar⟩]

/-- The checks on two functions, apart from their parameters. -/
def functionChecks (a b : Header) (receiver receiver' : Option TypeExpr)
    (returnType returnType' : TypeExpr) : List Check :=
  headerChecks a b ++ multiplatformChecks a b ++
    [⟨.suspend, sameFlags .isSuspend a b⟩, ⟨.receiver, receiver = receiver'⟩,
     ⟨.returnType, returnType = returnType'⟩]

/-- The checks on two properties. -/
def propertyChecks (a b : Header) (receiver receiver' : Option TypeExpr)
    (type type' : TypeExpr) : List Check :=
  headerChecks a b ++
    [⟨.isVar, sameFlags .isVar a b⟩, ⟨.lateInit, sameFlags .isLateInit a b⟩,
     ⟨.const, sameFlags .isConst a b⟩] ++ multiplatformChecks a b ++
    [⟨.receiver, receiver = receiver'⟩, ⟨.type, type = type'⟩]

/-- Whether two classes name the same classifiers as supertypes, equally often, in any order and
with any arguments. -/
def supertypesAgree (supertypes supertypes' : List TypeExpr) : Bool :=
  (supertypes.map TypeExpr.classifier).isPerm (supertypes'.map TypeExpr.classifier)

/-- The checks on two classes. -/
def classChecks (a b : Header) (kind kind' : ClassKind)
    (supertypes supertypes' : List TypeExpr) : List Check :=
  headerChecks a b ++
    [⟨.modality, a.modality = b.modality⟩, ⟨.classKind, kind = kind'⟩,
     ⟨.inline, sameFlags .isInline a b⟩, ⟨.data, sameFlags .isData a b⟩,
     ⟨.inner, sameFlags .isInner a b⟩, ⟨.companion, sameFlags .isCompanion a b⟩] ++
    multiplatformChecks a b ++ [⟨.supertypes, supertypesAgree supertypes supertypes'⟩]

/-- The checks on two type aliases. -/
def aliasChecks (a b : Header) (expanded expanded' : TypeExpr) : List Check :=
  headerChecks a b ++ multiplatformChecks a b ++ [⟨.type, expanded = expanded'⟩]

/-- The verdict on two parameters, or two values. -/
def parameterVerdict (a b : Parameter) : Verdict :=
  (Check.verdict (parameterChecks a b)).wrap (.composite .value)

/-- One cause for each position at which two lists of parameters diverge, counted from
`index`. -/
def divergingPositions (index : Nat) : List Parameter → List Parameter → List Cause
  | a :: as, b :: bs =>
    ((Check.verdict (parameterChecks a b)).wrap (.parameter index)).causes ++
      divergingPositions (index + 1) as bs
  | _, _ => []

/-- The verdict on two lists of parameters: their size when it differs, else the positions at
which they diverge. -/
def parameterListVerdict (as bs : List Parameter) : Verdict :=
  if as.length = bs.length then
    (Verdict.ofCauses (divergingPositions 0 as bs)).wrap (.composite .parameterList)
  else .fail (.composite .parameterList [.leaf .size])

/-- The verdict on declarations of different kinds. Two classifiers differ by the kind of class;
nothing more specific is known of any other pair. -/
def differentKinds (a b : Declaration) : Verdict :=
  if a.kind.isClassifier && b.kind.isClassifier then
    .fail (.composite .class [.leaf .classKind])
  else .fail (.leaf .unknown)

/-- The verdict on two declarations. -/
def declarationVerdict : Declaration → Declaration → Verdict
  | .function h r ps t, .function h' r' ps' t' =>
    ((Check.verdict (functionChecks h h' r r' t t')).and (parameterListVerdict ps ps')).wrap
      (.composite .function)
  | .property h r t, .property h' r' t' =>
    (Check.verdict (propertyChecks h h' r r' t t')).wrap (.composite .value)
  | .class h k ss _, .class h' k' ss' _ =>
    (Check.verdict (classChecks h h' k k' ss ss')).wrap (.composite .class)
  | .typeAlias h _ e, .typeAlias h' _ e' =>
    (Check.verdict (aliasChecks h h' e e')).wrap (.composite .typeAlias)
  | .value h t, .value h' t' =>
    parameterVerdict ⟨h.name, t, h.flags.contains .isVar⟩ ⟨h'.name, t', h'.flags.contains .isVar⟩
  | a, b => differentKinds a b

/-- The verdict on two declarations that are both expected to be of one kind. -/
def verdictAs (kind : DeclarationKind) (a b : Declaration) : Verdict :=
  if a.kind = kind ∧ b.kind = kind then declarationVerdict a b else differentKinds a b

end DeclMerge
