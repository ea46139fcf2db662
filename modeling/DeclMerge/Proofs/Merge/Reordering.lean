import DeclMerge.Proofs.Container.Reordering
import DeclMerge.Proofs.Merge.Aborts

/-!
# Runs with their libraries in another order

If a run has no errors, and neither has the run with the same libraries in another order, then the
two merged libraries have the same packages, with entries that mirror one another at every depth,
and the reports compare the same names with the same outcome. Only the order differs, and what is
taken from the first target.

## Main definitions

* `inputsOf` — what the libraries put into a package
* `MirroredLibraries` — libraries with the same packages, whose entries mirror one another

## Main results

* `mergeLibraries_perm` — the order of the libraries does not change what agrees
-/

namespace DeclMerge

variable {maker : Maker} {options : Options} {libraries libraries' : List TargetLibrary}
  {result : MergeResult}

/-- What the libraries put into a package, in their order. -/
def inputsOf (libraries : List TargetLibrary) (name : QualifiedName) : List TargetInput :=
  libraries.filterMap fun library => library.input? name

/-- The merged libraries have the same packages up to their order, and the entries of each mirror
one another. -/
def MirroredLibraries (libraries libraries' : List TargetLibrary) (library library' : Library) :
    Prop :=
  Matched (fun package package' => package.name = package'.name ∧
    MirroredContainers package.name (inputsOf libraries package.name)
      (inputsOf libraries' package.name) package.entries package'.entries)
    library.packages library'.packages

theorem mem_packageInputs_iff (h : (libraries.map TargetLibrary.target).Nodup)
    {name : QualifiedName} {inputs : List TargetInput} :
    (name, inputs) ∈ packageInputs libraries ↔
      name ∈ packageNames libraries ∧ inputs = inputsOf libraries name := by
  rw [packageInputs_eq h, List.mem_map]
  constructor
  · rintro ⟨_, hname, heq⟩
    obtain ⟨rfl, rfl⟩ := Prod.mk.inj heq
    exact ⟨hname, rfl⟩
  · rintro ⟨hname, rfl⟩
    exact ⟨name, hname, rfl⟩

theorem packageNames_perm (h : libraries.Perm libraries') :
    (packageNames libraries).Perm (packageNames libraries') := by
  refine (List.perm_ext_iff_of_nodup (nodup_eraseDups _) (nodup_eraseDups _)).mpr fun name => ?_
  rw [List.mem_eraseDups, List.mem_eraseDups]
  exact ((h.flatMap_right _).map _).mem_iff

/-! ### Runs without errors -/

/-- A package without errors is merged, and its container has no errors. -/
theorem exists_clean_packageOf {name : QualifiedName} {inputs : List TargetInput}
    (h : (packageOf maker options name inputs).2.errors = []) :
    ∃ found, (containerEntries maker options.maxNestingDepth (options.maxNestingDepth + 1) name
        inputs).Clean found ∧
      packageOf maker options name inputs = (some ⟨name, found.1⟩, { comparisons := found.2 }) := by
  obtain ⟨found, hclean⟩ := Outcome.allErrors_eq_nil_iff.mp (errors_packageOf name inputs ▸ h)
  refine ⟨found, hclean, ?_⟩
  rw [packageOf, hclean.1, hclean.2]

/-- Packages without errors are all merged, and their containers have no errors. -/
theorem exists_clean_packagesOf (inputs : QualifiedName → List TargetInput)
    (names : List QualifiedName)
    (h : (packagesOf maker options (names.map fun name => (name, inputs name))).2.errors = []) :
    ∃ made : List (Package × List Comparison),
      made.map (fun m => m.1.name) = names ∧
      (∀ m ∈ made, (containerEntries maker options.maxNestingDepth (options.maxNestingDepth + 1)
        m.1.name (inputs m.1.name)).Clean (m.1.entries, m.2)) ∧
      packagesOf maker options (names.map fun name => (name, inputs name)) =
        (made.map Prod.fst, { comparisons := made.flatMap Prod.snd }) := by
  induction names with
  | nil => exact ⟨[], rfl, nofun, rfl⟩
  | cons name names ih =>
    simp only [packagesOf, List.map_cons, List.flatMap_cons, List.append_eq_nil_iff] at h
    obtain ⟨made, hnames, hall, hmade⟩ := ih h.2
    obtain ⟨found, hclean, hpackage⟩ := exists_clean_packageOf h.1
    refine ⟨(⟨name, found.1⟩, found.2) :: made, ?_, List.forall_mem_cons.mpr ⟨hclean, hall⟩, ?_⟩
    · rw [List.map_cons, hnames]
    · simp only [packagesOf, Prod.mk.injEq, Report.mk.injEq] at hmade
      obtain ⟨hpackages, hcomparisons, -, herrors⟩ := hmade
      simp only [packagesOf, List.map_cons, List.filterMap_cons, List.flatMap_cons, hpackage,
        hpackages, hcomparisons, herrors, List.nil_append]

/-- A run without errors has all packages, in the order in which they first appear, and its
comparisons are theirs. -/
theorem exists_packages_of_errors_eq_nil
    (hresult : mergeLibraries maker options libraries = .ok result)
    (herrors : result.report.errors = []) :
    ∃ made : List (Package × List Comparison),
      made.map (fun m => m.1.name) = packageNames libraries ∧
      (∀ m ∈ made, (containerEntries maker options.maxNestingDepth (options.maxNestingDepth + 1)
        m.1.name (inputsOf libraries m.1.name)).Clean (m.1.entries, m.2)) ∧
      result.library.packages = made.map Prod.fst ∧
      result.report.comparisons = made.flatMap Prod.snd := by
  have hdistinct := nodup_targets_of_mergeLibraries hresult
  obtain ⟨_, hresult', hpackages, hcomparisons⟩ := mergeLibraries_eq_ok maker options hdistinct
  obtain rfl := Except.ok.inj (hresult.symm.trans hresult')
  have hnone := List.prefix_nil.mp (herrors ▸ errors_prefix_of_mergeLibraries hresult)
  rw [packageInputs_eq hdistinct] at hnone hpackages hcomparisons
  obtain ⟨made, hnames, hclean, hmade⟩ :=
    exists_clean_packagesOf (inputsOf libraries) (packageNames libraries) hnone
  refine ⟨made, hnames, hclean, hpackages.trans ?_, hcomparisons.trans ?_⟩
  · exact congrArg Prod.fst hmade
  · exact congrArg (fun found => found.2.comparisons) hmade

/-! ### Reports -/

/-- Reports with the same outlines have the same number of comparisons and of divergences. -/
theorem length_divergences_of_outline {report report' : Report}
    (h : (report.comparisons.map Comparison.outline).Perm
      (report'.comparisons.map Comparison.outline)) :
    report.comparisons.length = report'.comparisons.length ∧
      report.divergences.length = report'.divergences.length := by
  have hcount : ∀ report : Report, report.divergences.length =
      (report.comparisons.map Comparison.outline).countP fun outline => !outline.2 := by
    intro report
    rw [List.countP_map, List.countP_eq_length_filter]
    rfl
  constructor
  · simpa using h.length_eq
  · rw [hcount, hcount, h.countP_eq]

/-! ### Two runs -/

/-- Runs with the same libraries in two orders, both without errors, have the same packages. In
each package and in each class at any depth the same contributions make an entry, which is common
in both runs or in neither, and the reports have the same number of comparisons and of
divergences. -/
theorem mergeLibraries_perm (maker : Maker) (options : Options)
    {libraries libraries' : List TargetLibrary}
    (hdistinct : (libraries.map TargetLibrary.target).Nodup) (h : libraries.Perm libraries') :
    ∃ result result', mergeLibraries maker options libraries = .ok result ∧
      mergeLibraries maker options libraries' = .ok result' ∧
      (result.report.errors = [] → result'.report.errors = [] →
        (result.library.packages.map Package.name).Perm
          (result'.library.packages.map Package.name) ∧
        MirroredLibraries libraries libraries' result.library result'.library ∧
        result.report.comparisons.length = result'.report.comparisons.length ∧
        result.report.divergences.length = result'.report.divergences.length) := by
  have hdistinct' : (libraries'.map TargetLibrary.target).Nodup :=
    (h.map TargetLibrary.target).nodup_iff.mp hdistinct
  obtain ⟨result, hresult, -⟩ := mergeLibraries_eq_ok maker options hdistinct
  obtain ⟨result', hresult', -⟩ := mergeLibraries_eq_ok maker options hdistinct'
  refine ⟨result, result', hresult, hresult', fun herrors herrors' => ?_⟩
  obtain ⟨made, hnames, hclean, hpackages, hcompared⟩ :=
    exists_packages_of_errors_eq_nil hresult herrors
  obtain ⟨made', hnames', hclean', hpackages', hcompared'⟩ :=
    exists_packages_of_errors_eq_nil hresult' herrors'
  -- Both runs have merged all packages, so these correspond by name.
  have hperm := packageNames_perm h
  rw [← hnames, ← hnames'] at hperm
  have hsame : Matched (fun m m' => m.1.name = m'.1.name) made made' :=
    (matched_eq_iff.mpr hperm).of_map
  have hmirrored : ∀ m ∈ made, ∀ m' ∈ made', m.1.name = m'.1.name →
      MirroredContainers m.1.name (inputsOf libraries m.1.name) (inputsOf libraries' m.1.name)
        m.1.entries m'.1.entries ∧
      (m.2.map Comparison.outline).Perm (m'.2.map Comparison.outline) := by
    intro m hm m' hm' hname
    exact mirrored_containerEntries maker options.maxNestingDepth _ _ _ _ _ _ (h.filterMap _)
      (hclean m hm) (hname ▸ hclean' m' hm')
  have houtlines : (result.report.comparisons.map Comparison.outline).Perm
      (result'.report.comparisons.map Comparison.outline) := by
    rw [hcompared, hcompared', List.map_flatMap, List.map_flatMap]
    exact (hsame.imp fun m hm m' hm' hname => (hmirrored m hm m' hm' hname).2).flatMap_perm
  refine ⟨?_, ?_, length_divergences_of_outline houtlines⟩
  · rw [hpackages, hpackages', List.map_map, List.map_map]
    exact hperm
  · rw [MirroredLibraries, hpackages, hpackages']
    refine (hsame.imp fun m hm m' hm' hname => ?_).map
    exact ⟨hname, (hmirrored m hm m' hm' hname).1⟩

/-- The libraries of two targets that declare a class in different orders, and its property with
different types. -/
def crateLibraries : List TargetLibrary :=
  let size (type : String) : Declaration := .property { name := ⟨"size"⟩ } none ⟨⟨type⟩, [], false⟩
  [⟨⟨"js"⟩, [⟨⟨"p"⟩, [plainClass "Crate" [size "Int", getFunction ["Int"]]]⟩]⟩,
    ⟨⟨"jvm"⟩, [⟨⟨"p"⟩, [plainClass "Crate" [getFunction ["Int"], getFunction [], size "Long"]]⟩]⟩]

/-- In both orders there is one comparison that fails. -/
theorem mergeLibraries_perm_crateLibraries :
    (crateLibraries.map TargetLibrary.target).Nodup ∧
    crateLibraries.Perm crateLibraries.reverse ∧
    ∃ result result',
      mergeLibraries .standard (.withoutOverrides {}) crateLibraries = .ok result ∧
      mergeLibraries .standard (.withoutOverrides {}) crateLibraries.reverse = .ok result' ∧
      result.report.errors = [] ∧ result'.report.errors = [] ∧
      MirroredLibraries crateLibraries crateLibraries.reverse result.library result'.library ∧
      result'.report.comparisons.length = 3 ∧ result'.report.divergences.length = 1 := by
  have hdistinct : (crateLibraries.map TargetLibrary.target).Nodup := by decide
  have hperm : crateLibraries.Perm crateLibraries.reverse := (List.reverse_perm _).symm
  obtain ⟨result, result', hresult, hresult', hsame⟩ :=
    mergeLibraries_perm .standard (.withoutOverrides {}) hdistinct hperm
  have hfirst : (mergeLibraries .standard (.withoutOverrides {}) crateLibraries).toOption.map
      (fun result => (result.report.errors, result.report.comparisons.length,
        result.report.divergences.length)) = some ([], 3, 1) := rfl
  have hsecond :
      (mergeLibraries .standard (.withoutOverrides {}) crateLibraries.reverse).toOption.map
        (fun result => result.report.errors) = some [] := rfl
  rw [hresult] at hfirst
  rw [hresult'] at hsecond
  obtain ⟨herrors, hcounts⟩ := Prod.mk.inj (Option.some.inj hfirst)
  obtain ⟨hcompared, hdiverging⟩ := Prod.mk.inj hcounts
  have herrors' : result'.report.errors = [] := Option.some.inj hsecond
  obtain ⟨-, hmirrored, hlength, hdivergences⟩ := hsame herrors herrors'
  exact ⟨hdistinct, hperm, result, result', hresult, hresult', herrors, herrors', hmirrored,
    hlength ▸ hcompared, hdivergences ▸ hdiverging⟩

end DeclMerge
