import DeclMerge.Proofs.Merge.Correspondence
import DeclMerge.Proofs.Merge.Identity

/-!
# Packages apart from one another

Without overrides, a run is put together from one part for each package, in the order in which the
packages first appear. The part of a package depends on what each target declares in it and on
nothing else: neither on how the declarations are spread over fragments, nor on what stands between
the fragments, nor on whether a target that declares nothing mentions the package, nor on what
becomes of the other packages.

## Main definitions

* `TargetLibrary.declared` — what a target declares in a package
* `packagePart` — what a run makes of one package
* `MergeResult.AssembledFrom` — a result that is put together from parts

## Main results

* `containerEntries_filter_declares` — targets without declarations make no difference
* `packagePart_congr` — the part of a package depends on what is declared in it
* `mergeLibraries_isolated` — two runs with the same declarations in a package
-/

namespace DeclMerge

/-- What a target declares in a package over all its fragments, which is nothing if it does not
mention the package. -/
def TargetLibrary.declared (library : TargetLibrary) (name : QualifiedName) : TargetInput :=
  ⟨library.target, declarationsOf library.packages name⟩

/-- What a run makes of a package: the merged package, unless it is aborted, with its comparisons
and errors. -/
def packagePart (maker : Maker) (options : Options) (libraries : List TargetLibrary)
    (name : QualifiedName) : Option Package × Report :=
  packageOf maker options name (inputsOf libraries name)

/-- The result has one part for each package, and nothing else. -/
structure MergeResult.AssembledFrom (result : MergeResult) (names : List QualifiedName)
    (part : QualifiedName → Option Package × Report) : Prop where
  packages_eq : result.library.packages = names.filterMap fun name => (part name).1
  comparisons_eq :
    result.report.comparisons = names.flatMap fun name => (part name).2.comparisons
  errors_eq : result.report.errors = names.flatMap fun name => (part name).2.errors
  clashes_eq : result.report.clashes = []
  /-- The comparisons of a part are those of the entries in its package. -/
  tallies : ∀ name, Tallies ((part name).1.toList.flatMap Package.walk) (part name).2.comparisons
  name_eq : ∀ name package, (part name).1 = some package → package.name = name

variable {maker : Maker} {options : Options} {libraries libraries' : List TargetLibrary}
  {result : MergeResult} {container name : QualifiedName} {inputs inputs' : List TargetInput}
  {limit levels : Nat}

/-! ### Targets that declare nothing -/

/-- Whether a target declares anything in a container. -/
def TargetInput.declares (input : TargetInput) : Bool := !input.declarations.isEmpty

theorem contributionsOf_filter_declares (inputs : List TargetInput) :
    contributionsOf (inputs.filter TargetInput.declares) = contributionsOf inputs := by
  induction inputs with
  | nil => rfl
  | cons input inputs ih =>
    rw [List.filter_cons]
    split
    · exact congrArg (input.contributions ++ ·) ih
    · rename_i hnone
      have hempty : input.declarations = [] := by simpa [TargetInput.declares] using hnone
      rw [ih]
      simp [contributionsOf, TargetInput.contributions, hempty]

theorem isOverloaded_filter_declares (inputs : List TargetInput) :
    isOverloaded (inputs.filter TargetInput.declares) = isOverloaded inputs := by
  funext base
  rw [isOverloaded, isOverloaded, List.any_filter]
  refine List.any_congr rfl fun input => ?_
  -- A target that overloads a name declares something.
  cases hdeclares : input.declares with
  | true => rfl
  | false =>
    have hempty : input.declarations = [] := by simpa [TargetInput.declares] using hdeclares
    simp [TargetInput.overloads, hempty]

/-- A container is grouped by its contributions and the overloads in it. -/
theorem groupContributions_congr (hcontributions : contributionsOf inputs = contributionsOf inputs')
    (hoverloaded : isOverloaded inputs = isOverloaded inputs') :
    groupContributions container inputs = groupContributions container inputs' := by
  have hadd : addContribution container inputs = addContribution container inputs' := by
    funext groups c
    rw [addContribution, addContribution, groupSignature, groupSignature, hoverloaded]
  unfold groupContributions
  rw [hadd]
  change (List.foldlM _ _ (contributionsOf inputs) >>= _) =
    (List.foldlM _ _ (contributionsOf inputs') >>= _)
  rw [hcontributions]

/-- Targets that declare nothing in a container make no difference to it. -/
theorem containerEntries_filter_declares (inputs : List TargetInput) :
    containerEntries maker limit levels container (inputs.filter TargetInput.declares) =
      containerEntries maker limit levels container inputs := by
  cases levels with
  | zero => rfl
  | succ levels =>
    rw [containerEntries, containerEntries, groupContributions_congr
      (contributionsOf_filter_declares inputs) (isOverloaded_filter_declares inputs)]

/-! ### One package -/

/-- The input of a target that mentions a package is what it declares there. -/
theorem TargetLibrary.filter_declares_input? (library : TargetLibrary) (name : QualifiedName) :
    (library.input? name).toList.filter TargetInput.declares =
      [library.declared name].filter TargetInput.declares := by
  rw [input?, declared, declarationsOf]
  split
  · rename_i hnone
    rw [hnone]
    rfl
  · rfl

theorem filter_declares_inputsOf (libraries : List TargetLibrary) (name : QualifiedName) :
    (inputsOf libraries name).filter TargetInput.declares =
      (libraries.map fun library => library.declared name).filter TargetInput.declares := by
  rw [inputsOf, List.filterMap_eq_flatMap_toList, List.map_eq_flatMap, List.filter_flatMap,
    List.filter_flatMap]
  simp only [TargetLibrary.filter_declares_input?]

/-- The part of a package depends on what each target declares in it. -/
theorem packagePart_congr (maker : Maker) (options : Options)
    (h : (libraries.map fun library => library.declared name) =
      libraries'.map fun library => library.declared name) :
    packagePart maker options libraries name = packagePart maker options libraries' name := by
  have hinputs : (inputsOf libraries name).filter TargetInput.declares =
      (inputsOf libraries' name).filter TargetInput.declares := by
    rw [filter_declares_inputsOf, filter_declares_inputsOf, h]
  rw [packagePart, packagePart, packageOf, packageOf, ← containerEntries_filter_declares, hinputs,
    containerEntries_filter_declares]

/-! ### All packages -/

/-- A run without overrides is put together from the parts of its packages. -/
theorem assembledFrom_packagePart (hoverrides : options.resolveOverrides = false)
    (h : mergeLibraries maker options libraries = .ok result) :
    result.AssembledFrom (packageNames libraries) (packagePart maker options libraries) := by
  have hdistinct := nodup_targets_of_mergeLibraries h
  have hparts : (packageInputs libraries).map
      (fun input => packageOf maker options input.1 input.2) =
        (packageNames libraries).map (packagePart maker options libraries) := by
    rw [packageInputs_eq hdistinct, List.map_map]
    rfl
  simp only [mergeLibraries, repeatedTarget?_nil_eq_none_iff.mpr hdistinct, hoverrides, packagesOf,
    hparts] at h
  cases h
  exact {
    packages_eq := List.filterMap_map
    comparisons_eq := List.flatMap_map ..
    errors_eq := List.flatMap_map ..
    clashes_eq := rfl
    tallies := fun name => tallies_packageOf maker options name _
    name_eq := fun name package => name_of_packageOf }

/-- Two runs without overrides for the same targets, which declare the same in a package as a
whole, make the same of it: it is merged in both or aborted in both, with the same entries, the
same comparisons and the same errors. -/
theorem mergeLibraries_isolated (maker : Maker) (options : Options)
    {libraries libraries' : List TargetLibrary} {name : QualifiedName}
    (hoverrides : options.resolveOverrides = false)
    (hdistinct : (libraries.map TargetLibrary.target).Nodup)
    (hname : name ∈ packageNames libraries) (hname' : name ∈ packageNames libraries')
    (hsame : (libraries.map fun library => library.declared name) =
      libraries'.map fun library => library.declared name) :
    ∃ result result', mergeLibraries maker options libraries = .ok result ∧
      mergeLibraries maker options libraries' = .ok result' ∧
      result.AssembledFrom (packageNames libraries) (packagePart maker options libraries) ∧
      result'.AssembledFrom (packageNames libraries') (packagePart maker options libraries') ∧
      packagePart maker options libraries name = packagePart maker options libraries' name ∧
      result.library.package? name = result'.library.package? name := by
  have htargets : libraries.map TargetLibrary.target = libraries'.map TargetLibrary.target := by
    have hmapped := congrArg (List.map TargetInput.target) hsame
    rw [List.map_map, List.map_map] at hmapped
    exact hmapped
  have hdistinct' := htargets ▸ hdistinct
  obtain ⟨result, hresult, -⟩ := mergeLibraries_eq_ok maker options hdistinct
  obtain ⟨result', hresult', -⟩ := mergeLibraries_eq_ok maker options hdistinct'
  have hpart := packagePart_congr maker options hsame
  refine ⟨result, result', hresult, hresult', assembledFrom_packagePart hoverrides hresult,
    assembledFrom_packagePart hoverrides hresult', hpart, ?_⟩
  rw [package?_eq hresult ((mem_packageInputs_iff hdistinct).mpr ⟨hname, rfl⟩),
    package?_eq hresult' ((mem_packageInputs_iff hdistinct').mpr ⟨hname', rfl⟩)]
  exact congrArg Prod.fst hpart

/-- A package in two fragments with another one between them that is aborted, and a target that
mentions the package without declaring anything. -/
def scatteredLibraries : List TargetLibrary :=
  [⟨⟨"js"⟩, [⟨⟨"p"⟩, [sizeProperty]⟩, ⟨⟨"q"⟩, [sizeProperty, sizeProperty]⟩,
      ⟨⟨"p"⟩, [getFunction []]⟩]⟩,
    ⟨⟨"jvm"⟩, [⟨⟨"p"⟩, []⟩]⟩, ⟨⟨"native"⟩, [⟨⟨"p"⟩, [getFunction ["Int"]]⟩]⟩]

/-- The same declarations in that package, spread in another way and beside another package. -/
def gatheredLibraries : List TargetLibrary :=
  [⟨⟨"js"⟩, [⟨⟨"r"⟩, []⟩, ⟨⟨"p"⟩, [sizeProperty, getFunction []]⟩]⟩,
    ⟨⟨"jvm"⟩, [⟨⟨"r"⟩, [sizeProperty]⟩]⟩,
    ⟨⟨"native"⟩, [⟨⟨"p"⟩, [getFunction ["Int"]]⟩, ⟨⟨"r"⟩, []⟩, ⟨⟨"p"⟩, []⟩]⟩]

/-- The package is merged to the same two entries. -/
theorem mergeLibraries_isolated_scattered :
    (Options.withoutOverrides {}).resolveOverrides = false ∧
    (scatteredLibraries.map TargetLibrary.target).Nodup ∧
    ⟨"p"⟩ ∈ packageNames scatteredLibraries ∧ ⟨"p"⟩ ∈ packageNames gatheredLibraries ∧
    (scatteredLibraries.map fun library => library.declared ⟨"p"⟩) =
      (gatheredLibraries.map fun library => library.declared ⟨"p"⟩) ∧
    ∃ result result',
      mergeLibraries .standard (.withoutOverrides {}) scatteredLibraries = .ok result ∧
      mergeLibraries .standard (.withoutOverrides {}) gatheredLibraries = .ok result' ∧
      result.library.packages.map Package.name = [⟨"p"⟩] ∧
      result'.library.packages.map Package.name = [⟨"r"⟩, ⟨"p"⟩] ∧
      result.library.package? ⟨"p"⟩ = result'.library.package? ⟨"p"⟩ := by
  have hdistinct : (scatteredLibraries.map TargetLibrary.target).Nodup := by decide
  have hname : ⟨"p"⟩ ∈ packageNames scatteredLibraries := by decide
  have hname' : ⟨"p"⟩ ∈ packageNames gatheredLibraries := by decide
  obtain ⟨result, result', hresult, hresult', -, -, -, hpackage⟩ :=
    mergeLibraries_isolated .standard (.withoutOverrides {}) rfl hdistinct hname hname' rfl
  have hnames : (mergeLibraries .standard (.withoutOverrides {}) scatteredLibraries).toOption.map
      (fun result => result.library.packages.map Package.name) = some [⟨"p"⟩] := rfl
  have hnames' : (mergeLibraries .standard (.withoutOverrides {}) gatheredLibraries).toOption.map
      (fun result => result.library.packages.map Package.name) = some [⟨"r"⟩, ⟨"p"⟩] := rfl
  rw [hresult] at hnames
  rw [hresult'] at hnames'
  exact ⟨rfl, hdistinct, hname, hname', rfl, result, result', hresult, hresult',
    Option.some.inj hnames, Option.some.inj hnames', hpackage⟩

end DeclMerge
