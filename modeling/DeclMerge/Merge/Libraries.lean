import DeclMerge.Hierarchy.Basic
import DeclMerge.Merge.Container
import DeclMerge.Merge.Options

/-!
# Merging libraries

The packages of all targets are merged one by one. If the options ask for it, the hierarchy of the
merged classes is built, so that the report has the clashes of their members.

## Main definitions

* `packageInputs` — what the targets declare, package by package
* `packageOf` — one package
* `mergeLibraries` — all packages, and the hierarchy of the merged classes
-/

namespace DeclMerge

/-- One fragment of a package, as a target declares it. -/
structure TargetFragment where
  target : Target
  package : PackageFragment

/-- Consecutive fragments of one target, joined. -/
def joinFragments : List TargetFragment → List TargetInput
  | [] => []
  | fragment :: fragments =>
    match joinFragments fragments with
    | [] => [⟨fragment.target, fragment.package.declarations⟩]
    | input :: inputs =>
      if input.target = fragment.target then
        ⟨input.target, fragment.package.declarations ++ input.declarations⟩ :: inputs
      else ⟨fragment.target, fragment.package.declarations⟩ :: input :: inputs

/-- The fragments of all libraries, in order. -/
def fragments (libraries : List TargetLibrary) : List TargetFragment :=
  libraries.flatMap fun library => library.packages.map fun package => ⟨library.target, package⟩

/-- What the targets declare, package by package in order of first appearance. -/
def packageInputs (libraries : List TargetLibrary) : List (QualifiedName × List TargetInput) :=
  let groups := Grouping.ofList (fun fragment => fragment.package.name) (fragments libraries)
  groups.groups.map fun group => (group.1, joinFragments group.2)

/-- The first target in a list that is in the list before. -/
def repeatedTarget? (seen : List Target) : List Target → Option Target
  | [] => none
  | target :: targets =>
    if target ∈ seen then some target else repeatedTarget? (seen ++ [target]) targets

/-- One merged package, unless it was aborted, and what was found in it. -/
def packageOf (maker : Maker) (options : Options) (name : QualifiedName)
    (inputs : List TargetInput) : Option Package × Report :=
  let limit := options.maxNestingDepth
  let outcome := containerEntries maker limit (limit + 1) name inputs
  match outcome.result with
  | .ok (entries, compared) =>
    (some ⟨name, entries⟩, { comparisons := compared, errors := outcome.errors })
  | .error error => (none, { errors := outcome.errors ++ [error] })

/-- The packages that were not aborted, and what was found in all of them. -/
def packagesOf (maker : Maker) (options : Options)
    (inputs : List (QualifiedName × List TargetInput)) : List Package × Report :=
  let merged := inputs.map fun input => packageOf maker options input.1 input.2
  (merged.filterMap Prod.fst,
    { comparisons := merged.flatMap fun package => package.2.comparisons
      errors := merged.flatMap fun package => package.2.errors })

/-- What a run makes: the library, the report, the hierarchy of the merged classes, and the caches
as looking for clashes has filled them. -/
structure MergeResult where
  library : Library
  report : Report
  hierarchy : Hierarchy
  caches : Caches

/-- Merges one library for each target. Only a target that comes twice makes a run fail. -/
def mergeLibraries (maker : Maker) (options : Options) (libraries : List TargetLibrary) :
    Except InputError MergeResult :=
  let targets := libraries.map TargetLibrary.target
  match repeatedTarget? [] targets with
  | some target => .error (.duplicateTarget target)
  | none =>
    let (packages, report) := packagesOf maker options (packageInputs libraries)
    let library : Library := ⟨.ofList targets, packages⟩
    if options.resolveOverrides then
      let (hierarchy, errors) := Hierarchy.ofClasses library.classes options.maxSupertypeDepth
      let (clashes, caches) := hierarchy.requestClashes {}
      let report :=
        { report with
          clashes := clashes.map ClashNote.of
          errors := report.errors ++ errors.map .hierarchy }
      .ok ⟨library, report, hierarchy, caches⟩
    else .ok ⟨library, report, .empty, {}⟩

end DeclMerge
