import DeclMerge.Proofs.Container.Copies
import DeclMerge.Proofs.Merge.Reordering

/-!
# Libraries with the same packages

Merging libraries of different targets that have the same packages changes nothing, as long as
nothing is an error. The merged packages are those of each library with their fragments joined, and
every declaration stands for all targets.

## Main definitions

* `sameLibraries` — libraries of several targets with the same packages
* `declarationsOf` — what the fragments of a package declare
* `Package.copyOf` — the merged package that has the declarations themselves

## Main results

* `mergeLibraries_same` — such libraries are merged to themselves
-/

namespace DeclMerge

variable {targets : List Target} {packages : List PackageFragment} {name : QualifiedName}

/-- A library for each target, all with the same packages. -/
def sameLibraries (targets : List Target) (packages : List PackageFragment) : List TargetLibrary :=
  targets.map fun target => ⟨target, packages⟩

/-- What the fragments of a package declare, one fragment after the other. -/
def declarationsOf (packages : List PackageFragment) (name : QualifiedName) : List Declaration :=
  (packages.filter fun package => package.name = name).flatMap PackageFragment.declarations

/-- The package with all that its fragments declare, for all targets. -/
def Package.copyOf (targets : TargetSet) (packages : List PackageFragment) (name : QualifiedName) :
    Package :=
  ⟨name, (declarationsOf packages name).map (Entry.copyOf targets name)⟩

theorem targets_sameLibraries (targets : List Target) (packages : List PackageFragment) :
    (sameLibraries targets packages).map TargetLibrary.target = targets := by
  rw [sameLibraries, List.map_map]
  exact List.map_id targets

/-- The packages appear in the order in which each library has them. -/
theorem packageNames_sameLibraries (hne : targets ≠ []) (packages : List PackageFragment) :
    packageNames (sameLibraries targets packages) =
      (packages.map PackageFragment.name).eraseDups := by
  rw [packageNames, fragments, sameLibraries, List.flatMap_map, List.map_flatMap]
  simp only [List.map_map]
  exact eraseDups_flatMap_const hne (packages.map PackageFragment.name)

/-- All targets put the same into a package that the libraries have. -/
theorem inputsOf_sameLibraries (h : name ∈ packages.map PackageFragment.name) :
    inputsOf (sameLibraries targets packages) name =
      sameInputs targets (declarationsOf packages name) := by
  obtain ⟨package, hpackage, rfl⟩ := List.mem_map.mp h
  have hinput : ∀ target : Target, TargetLibrary.input? ⟨target, packages⟩ package.name =
      some ⟨target, declarationsOf packages package.name⟩ := by
    intro target
    have hmem : package ∈ packages.filter fun other => other.name = package.name :=
      List.mem_filter.mpr ⟨hpackage, by simp⟩
    rw [TargetLibrary.input?, declarationsOf]
    split
    · rename_i hnone
      rw [hnone] at hmem
      exact absurd hmem List.not_mem_nil
    · rfl
  rw [inputsOf, sameLibraries, sameInputs, List.filterMap_map]
  exact (List.filterMap_congr fun target _ => hinput target).trans
    (congrFun List.filterMap_eq_map _)

/-- Libraries of one or more targets that all have the same packages are merged to these packages,
if there is no error: each with its declarations in their order, of which every one stands for all
targets at whatever depth. All comparisons are successes, and a single library is compared with
nothing. -/
theorem mergeLibraries_same (options : Options) (packages : List PackageFragment)
    (hne : targets ≠ []) (hdistinct : targets.Nodup) :
    ∃ result, mergeLibraries .standard options (sameLibraries targets packages) = .ok result ∧
      (result.report.errors = [] →
        result.library.packages = (packages.map PackageFragment.name).eraseDups.map
          (Package.copyOf (.ofList targets) packages) ∧
        (∀ entry ∈ result.library.walk,
          entry.merged = .common entry.representative (.ofList targets)) ∧
        Undisputed targets result.report.comparisons) := by
  rw [← targets_sameLibraries targets packages] at hdistinct
  obtain ⟨result, hresult, -⟩ := mergeLibraries_eq_ok .standard options hdistinct
  refine ⟨result, hresult, fun herrors => ?_⟩
  obtain ⟨made, hnames, hclean, hpackages, hcomparisons⟩ :=
    exists_packages_of_errors_eq_nil hresult herrors
  rw [packageNames_sameLibraries hne] at hnames
  have hcopies : ∀ m ∈ made, m.1 = Package.copyOf (.ofList targets) packages m.1.name ∧
      Undisputed targets m.2 := by
    intro m hm
    have hname : m.1.name ∈ packages.map PackageFragment.name := by
      rw [← List.mem_eraseDups, ← hnames]
      exact List.mem_map_of_mem hm
    have hmerged := hclean m hm
    rw [inputsOf_sameLibraries hname] at hmerged
    obtain ⟨hentries, hundisputed⟩ := containerEntries_copies hne hmerged
    refine ⟨?_, hundisputed⟩
    rw [Package.copyOf, ← hentries]
  have hsame : result.library.packages = (packages.map PackageFragment.name).eraseDups.map
      (Package.copyOf (.ofList targets) packages) := by
    rw [hpackages, ← hnames, List.map_map]
    exact List.map_congr_left fun m hm => (hcopies m hm).1
  refine ⟨hsame, fun entry hentry => ?_, ?_⟩
  · rw [Library.walk, hsame, List.mem_flatMap] at hentry
    obtain ⟨package, hpackage, hentry⟩ := hentry
    obtain ⟨name, -, rfl⟩ := List.mem_map.mp hpackage
    obtain ⟨top, htop, hbelow⟩ := Entry.mem_walkList.mp hentry
    obtain ⟨d, -, rfl⟩ := List.mem_map.mp htop
    exact Entry.merged_of_mem_walk_copyOf hbelow
  · rw [hcomparisons]
    exact undisputed_flatMap fun m hm => (hcopies m hm).2

/-- The platforms of a library. -/
def platforms : List Target := [⟨"js"⟩, ⟨"jvm"⟩, ⟨"native"⟩]

/-- A package in two fragments, the first of which has a class in a class, and one that is empty. -/
def shelves : List PackageFragment :=
  [⟨⟨"p"⟩, [plainClass "Shelf" [plainClass "Board" [getFunction []], getFunction ["Int"]]]⟩,
    ⟨⟨"q"⟩, []⟩, ⟨⟨"p"⟩, [getFunction [], getFunction ["Int"]]⟩]

/-- Three platforms that have the shelves are merged to two packages. -/
theorem mergeLibraries_same_shelves :
    platforms ≠ [] ∧ platforms.Nodup ∧
    ∃ result, mergeLibraries .standard (.withoutOverrides {}) (sameLibraries platforms shelves) =
        .ok result ∧
      result.report.errors = [] ∧
      result.library.packages =
        [Package.copyOf (.ofList platforms) shelves ⟨"p"⟩, ⟨⟨"q"⟩, []⟩] ∧
      result.report.comparisons.length = 6 ∧
      Undisputed platforms result.report.comparisons := by
  have hne : platforms ≠ [] := by decide
  have hdistinct : platforms.Nodup := by decide
  obtain ⟨result, hresult, hsame⟩ :=
    mergeLibraries_same (.withoutOverrides {}) shelves hne hdistinct
  have hrun : (mergeLibraries .standard (.withoutOverrides {})
      (sameLibraries platforms shelves)).toOption.map
        (fun result => (result.report.errors, result.report.comparisons.length)) =
          some ([], 6) := rfl
  rw [hresult] at hrun
  obtain ⟨herrors, hlength⟩ := Prod.mk.inj (Option.some.inj hrun)
  obtain ⟨hpackages, -, hundisputed⟩ := hsame herrors
  exact ⟨hne, hdistinct, result, hresult, herrors, hpackages, hlength, hundisputed⟩

end DeclMerge
