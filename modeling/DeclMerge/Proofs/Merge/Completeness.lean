import DeclMerge.Proofs.Container.Reordering
import DeclMerge.Proofs.Hierarchy.Coverage
import DeclMerge.Proofs.Merge.Isolation

/-!
# Runs without errors

Errors are dealt with where they occur: an aborted package is left out, an aborted class loses its
members, and a class with an ill-formed supertype has no scope. Each of these leaves an error in
the report, so a run whose report has none has left out nothing.

## Main definitions

* `KeepsAll` — every contribution to a container is in one entry, and so on for members of classes
* `KeepsEverything` — nothing of the libraries is missing from the result of a run

## Main results

* `keepsAll_of_clean` — a container without errors keeps all contributions, at every depth
* `keepsEverything_of_errors_eq_nil` — a run without errors keeps everything
-/

namespace DeclMerge

variable {maker : Maker} {options : Options} {libraries : List TargetLibrary}
  {result : MergeResult} {container name : QualifiedName} {inputs : List TargetInput}
  {limit levels : Nat}

/-- The contributions to a container are different ones, and each is in the group of exactly one
entry. If a group has classes only, the same holds of their members and the entries below. -/
inductive KeepsAll : QualifiedName → List TargetInput → List Entry → Prop
  | split {container : QualifiedName} {inputs : List TargetInput} {entries : List Entry}
      {parts : List (List Contribution × Entry)}
      (hsplit : IsSplit container inputs entries parts)
      (hdistinct : (contributionsOf inputs).Nodup)
      (hone : ∀ c ∈ contributionsOf inputs, ∃! i : Nat, ∃ part, parts[i]? = some part ∧ c ∈ part.1)
      (hmembers : ∀ part ∈ parts, (∀ c ∈ part.1, c.declaration.isClass = true) →
        KeepsAll part.2.name (memberInputs part.1) part.2.members) :
      KeepsAll container inputs entries

/-- Every package of every library is merged and keeps all declarations of all its fragments. With
overrides, every name of a merged class has a scope. -/
structure KeepsEverything (options : Options) (libraries : List TargetLibrary)
    (result : MergeResult) : Prop where
  packages : ∀ library ∈ libraries, ∀ fragment ∈ library.packages,
    ∃ package, result.library.package? fragment.name = some package ∧
      KeepsAll fragment.name (libraries.map fun library => library.declared fragment.name)
        package.entries
  scopes : options.resolveOverrides = true →
    ∀ named ∈ result.library.classes, named.1 ∈ result.hierarchy.names

/-! ### Containers -/

/-- In a container that can be grouped, each contribution is in the group of one entry. -/
theorem IsSplit.existsUnique {entries : List Entry} {parts : List (List Contribution × Entry)}
    (h : IsSplit container inputs entries parts) :
    (contributionsOf inputs).Nodup ∧
      ∀ c ∈ contributionsOf inputs, ∃! i : Nat, ∃ part, parts[i]? = some part ∧ c ∈ part.1 := by
  obtain ⟨hslots, hparts⟩ := groupContributions_eq_ok_iff.mp h.groups_eq
  refine ⟨hslots.of_map, fun c hc => ?_⟩
  have hone := Grouping.existsUnique_part (contributionKey inputs) hc
  rw [← hparts] at hone
  simpa [List.getElem?_map, and_assoc] using hone

/-- A container without errors keeps all contributions, and so do the containers of members. -/
theorem keepsAll_of_clean {found : List Entry × List Comparison}
    (h : (containerEntries maker limit levels container inputs).Clean found) :
    KeepsAll container inputs found.1 := by
  induction levels generalizing container inputs found with
  | zero => cases h.1
  | succ levels ih =>
    obtain ⟨_, groups, -, hgroups, -⟩ := containerEntries_eq_ok_iff.mp h.1
    rw [containerEntries, hgroups] at h
    obtain ⟨made, rfl, hmade, rfl⟩ :=
      exists_cleanlyMade (ne_nil_of_groupContributions hgroups) h
    have hsplit := isSplit_of_made hgroups hmade
    refine .split hsplit hsplit.existsUnique.1 hsplit.existsUnique.2 fun part hpart hclasses => ?_
    -- The members of a group of classes come from a container without errors.
    obtain ⟨⟨group, entry, compared⟩, hmem, rfl⟩ := List.mem_map.mp hpart
    obtain ⟨⟨first, rest, rfl, hentry⟩, hclean⟩ := hmade _ hmem
    rw [hentry.members_eq]
    exact ih (exists_clean_of_groupMembers hclasses hclean)

/-! ### Runs -/

/-- Targets that do not mention a package make no difference to it. -/
theorem containerEntries_declared (libraries : List TargetLibrary) (name : QualifiedName) :
    containerEntries maker limit levels name
        (libraries.map fun library => library.declared name) =
      containerEntries maker limit levels name (inputsOf libraries name) := by
  rw [← containerEntries_filter_declares, ← filter_declares_inputsOf,
    containerEntries_filter_declares]

/-- A run whose report has no errors has left out nothing. -/
theorem keepsEverything_of_errors_eq_nil
    (h : mergeLibraries maker options libraries = .ok result)
    (herrors : result.report.errors = []) : KeepsEverything options libraries result where
  packages := by
    intro library hlibrary fragment hfragment
    have hdistinct := nodup_targets_of_mergeLibraries h
    have hname : fragment.name ∈ packageNames libraries := by
      refine List.mem_eraseDups.mpr (List.mem_map.mpr ⟨⟨library.target, fragment⟩, ?_, rfl⟩)
      exact List.mem_flatMap.mpr ⟨library, hlibrary, List.mem_map_of_mem hfragment⟩
    obtain ⟨made, hnames, hclean, hpackages, -⟩ := exists_packages_of_errors_eq_nil h herrors
    rw [package?_eq h ((mem_packageInputs_iff hdistinct).mpr ⟨hname, rfl⟩), packageOf_eq]
    rw [← hnames] at hname
    obtain ⟨m, hm, hname⟩ := List.mem_map.mp hname
    have hfound := hname ▸ hclean m hm
    refine ⟨_, by rw [hfound.1], ?_⟩
    exact keepsAll_of_clean (containerEntries_declared libraries fragment.name ▸ hfound)
  scopes := by
    intro hoverrides named hnamed
    rw [errors_of_mergeLibraries h, if_pos hoverrides, List.append_eq_nil_iff,
      List.map_eq_nil_iff] at herrors
    rw [hierarchy_of_mergeLibraries h, if_pos hoverrides]
    have hname : named.1 ∈ classNames result.library.classes := by
      obtain ⟨entry, hentry, rfl⟩ := List.mem_map.mp hnamed
      exact List.mem_map_of_mem (List.mem_filter.mpr ⟨hnamed, (List.mem_filter.mp hentry).2⟩)
    -- A class without a scope would have an error.
    have hcovers := Hierarchy.covers_ofClasses result.library.classes options.maxSupertypeDepth
    rcases hcovers.scope_or_error named.1 hname with ⟨hscope, -⟩ | ⟨-, herror⟩
    · exact hscope
    · simp [herrors.2] at herror

end DeclMerge
