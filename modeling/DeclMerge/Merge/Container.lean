import DeclMerge.Grouping
import DeclMerge.Library.Basic
import DeclMerge.Merge.Maker
import DeclMerge.Report

/-!
# Merging a container

The declarations that several targets make in one container, a package or a class, are grouped:
functions by name and receiver, or by their full signatures where some target overloads the name,
and everything else by signature. Each group is compared, and becomes one entry. The members of a
group of classes are merged the same way. An error aborts the innermost container around it, which
then has no entries and no comparisons.

## Main definitions

* `TargetInput` — what one target declares in a container
* `groupContributions` — the groups of a container
* `groupEntry` — the entry of one group
* `containerEntries` — the entries of a container
-/

namespace DeclMerge

/-- What one target declares in a container. -/
structure TargetInput where
  target : Target
  declarations : List Declaration

namespace TargetInput

/-- What the target contributes, declaration by declaration. -/
def contributions (input : TargetInput) : List Contribution :=
  input.declarations.map fun d => ⟨input.target, d⟩

/-- Whether the target declares two functions with this name and receiver. -/
def overloads (input : TargetInput) (base : Signature) : Bool :=
  2 ≤ input.declarations.countP fun d =>
    (Signature.of d).group = .function && (Signature.of d).base = base

end TargetInput

/-- Whether some target overloads a function name in the container. -/
def isOverloaded (inputs : List TargetInput) (base : Signature) : Bool :=
  inputs.any fun input => input.overloads base

/-- What a declaration is grouped by: for a function that no target overloads the signature without
parameter types, for everything else the full signature. -/
def groupSignature (inputs : List TargetInput) (d : Declaration) : Signature :=
  let signature := Signature.of d
  if signature.group = .function && !isOverloaded inputs signature.base then signature.base
  else signature

/-- The groups with one more contribution. A target may contribute to a group once only. -/
def addContribution (container : QualifiedName) (inputs : List TargetInput)
    (groups : Grouping Signature Contribution) (c : Contribution) :
    Except InputError (Grouping Signature Contribution) :=
  let signature := groupSignature inputs c.declaration
  if (groups.get signature).any fun other => other.target = c.target then
    .error (.duplicateDeclaration container (Signature.of c.declaration).text c.target)
  else .ok (groups.add signature c)

/-- The groups of a container, in order of first appearance, each with its contributions in the
order of the targets. -/
def groupContributions (container : QualifiedName) (inputs : List TargetInput) :
    Except InputError (List (List Contribution)) := do
  let contributions := inputs.flatMap TargetInput.contributions
  let groups ← contributions.foldlM (addContribution container inputs) Grouping.empty
  return groups.groups.map Prod.snd

/-- What comes of merging a part of a library: a result with its comparisons, or the error that
aborted it; and in both cases the errors that aborted containers inside. -/
structure Outcome (α : Type) where
  result : Except InputError (α × List Comparison)
  errors : List InputError := []

/-- Merging a container, given its name and what the targets declare in it. -/
abbrev ContainerMerge := QualifiedName → List TargetInput → Outcome (List Entry)

/-- The comparison of a group, unless a single target contributes. -/
def compareGroup (name : QualifiedName) (signature : Signature) (group : List Contribution) :
    Verdict × List Comparison :=
  if 1 < group.length then
    let pairs := pairVerdicts group
    let verdict := combineVerdicts pairs
    (verdict, [{ name, signature, verdict
                 targets := .ofList (group.map Contribution.target)
                 diverging := pairs.filter fun pair => pair.verdict.isFailure }])
  else (.success, [])

/-- The members of a group of classes, merged; other groups have none. A container of members
that is aborted leaves its class without members. -/
def groupMembers (mergeMembers : ContainerMerge) (name : QualifiedName)
    (group : List Contribution) : (List Entry × List Comparison) × List InputError :=
  if group.all fun c => c.declaration.isClass then
    let outcome := mergeMembers name (group.map fun c => ⟨c.target, c.declaration.members⟩)
    match outcome.result with
    | .ok found => (found, outcome.errors)
    | .error error => (([], []), outcome.errors ++ [error])
  else (([], []), [])

/-- What stands for a group, given the verdict on it and the declaration of its first target with
merged members. -/
def mergedOf (maker : Maker) (name : QualifiedName) (verdict : Verdict)
    (group : List Contribution) (first representative : Declaration) :
    Except InputError Merged :=
  if verdict.isSuccess then do
    let declaration ← maker.common name representative
    return .common declaration (.ofList (group.map Contribution.target))
  else do
    let expect ←
      if first.kind = .typeAlias then maker.emptyClass name first
      else maker.expect name representative
    let actuals ← group.mapM fun c => do
      return (c.target, ← maker.actual name c.declaration c.target)
    return .expectActual expect actuals

/-- The entry of a group, which starts with the contribution `first`. The signature is that of the
first declaration, also where the group was formed without parameter types. -/
def groupEntry (maker : Maker) (mergeMembers : ContainerMerge)
    (container : QualifiedName) (first : Contribution) (rest : List Contribution) :
    Outcome Entry :=
  let group := first :: rest
  let signature := Signature.of first.declaration
  let name := container.child signature.name
  let (verdict, compared) := compareGroup name signature group
  let ((members, comparedMembers), errors) := groupMembers mergeMembers name group
  let representative :=
    first.declaration.withMembers (members.map Entry.representative)
  match mergedOf maker name verdict group first.declaration representative with
  | .error error => ⟨.error error, errors⟩
  | .ok merged =>
    ⟨.ok (⟨name, signature, merged, members⟩, compared ++ comparedMembers), errors⟩

/-- The entries of several groups, up to the first one that is aborted. -/
def groupEntries (maker : Maker) (mergeMembers : ContainerMerge)
    (container : QualifiedName) : List (List Contribution) → Outcome (List Entry)
  | [] => ⟨.ok ([], []), []⟩
  | [] :: groups => groupEntries maker mergeMembers container groups
  | (first :: rest) :: groups =>
    let head := groupEntry maker mergeMembers container first rest
    match head.result with
    | .error error => ⟨.error error, head.errors⟩
    | .ok (entry, compared) =>
      let tail := groupEntries maker mergeMembers container groups
      match tail.result with
      | .error error => ⟨.error error, head.errors ++ tail.errors⟩
      | .ok (entries, others) =>
        ⟨.ok (entry :: entries, compared ++ others), head.errors ++ tail.errors⟩

/-- The entries of a container below which classes may be nested `levels - 1` deep. Without a
level left the container is aborted, even if it is empty. -/
def containerEntries (maker : Maker) (limit : Nat) : (levels : Nat) → ContainerMerge
  | 0, container, _ => ⟨.error (.nestingTooDeep container limit), []⟩
  | levels + 1, container, inputs =>
    match groupContributions container inputs with
    | .error error => ⟨.error error, []⟩
    | .ok groups => groupEntries maker (containerEntries maker limit levels) container groups

end DeclMerge
