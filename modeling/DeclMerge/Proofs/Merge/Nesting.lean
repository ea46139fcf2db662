import DeclMerge.Proofs.Merge.Aborts
import DeclMerge.Proofs.Merge.Sides

/-!
# The limit on nesting

Each container that a merge comes to has one level less than the container around it, and a
container without a level left is aborted on arrival. So an error that classes are nested too deeply
is about a class that is nested inside exactly as many classes as the limit allows, one for every
such class that the merge comes to. The class need not contain anything: an empty one is reported
like any other.

## Main definitions

* `TargetLibrary.Nests` — what a target declares inside how many classes

## Main results

* `Reached.exists_nests` — levels that are used up are classes around
* `mergeLibraries_nesting` — which classes are reported as nested too deeply
* `not_forall_nesting` — classes that are not nested more deeply than the limit may be reported
-/

namespace DeclMerge

variable {options : Options} {libraries : List TargetLibrary} {result : MergeResult}
  {limit levels : Nat} {name : QualifiedName} {inputs : List TargetInput}

/-- The target declares `d` under a qualified name, inside as many classes as `depth` says. -/
inductive TargetLibrary.Nests (library : TargetLibrary) :
    Nat → QualifiedName → Declaration → Prop
  | package {fragment : PackageFragment} {d : Declaration}
      (hfragment : fragment ∈ library.packages) (hd : d ∈ fragment.declarations) :
      Nests library 0 (fragment.name.child d.name) d
  | member {depth : Nat} {name : QualifiedName} {outer d : Declaration}
      (houter : Nests library depth name outer) (hd : d ∈ outer.members) :
      Nests library (depth + 1) (name.child d.name) d

/-- A target declares something if it declares it inside some number of classes. -/
theorem TargetLibrary.declares_iff_exists_nests {library : TargetLibrary} {d : Declaration} :
    library.Declares name d ↔ ∃ depth, library.Nests depth name d := by
  constructor
  · intro h
    induction h with
    | package hfragment hd => exact ⟨0, .package hfragment hd⟩
    | member _ hd ih =>
      obtain ⟨depth, houter⟩ := ih
      exact ⟨depth + 1, .member houter hd⟩
  · rintro ⟨depth, h⟩
    induction h with
    | package hfragment hd => exact .package hfragment hd
    | member _ hd ih => exact .member ih hd

/-- What comes into a container has been declared there by a target, inside as many classes as
levels have been used up. -/
theorem Reached.exists_nests (hdistinct : (libraries.map TargetLibrary.target).Nodup)
    (h : Reached limit libraries levels name inputs) {input : TargetInput} (hinput : input ∈ inputs)
    {d : Declaration} (hd : d ∈ input.declarations) :
    ∃ library ∈ libraries, ∃ depth, depth + levels = limit + 1 ∧
      library.Nests depth (name.child d.name) d := by
  induction h generalizing input d with
  | @package name inputs hinputs =>
    rw [packageInputs_eq hdistinct] at hinputs
    obtain ⟨_, -, heq⟩ := List.mem_map.mp hinputs
    obtain ⟨rfl, rfl⟩ := Prod.mk.inj heq
    obtain ⟨library, hlibrary, hsome⟩ := List.mem_filterMap.mp hinput
    obtain ⟨-, fragment, hfragment, rfl, hdeclared⟩ :=
      TargetLibrary.exists_fragment_of_input? hsome hd
    exact ⟨library, hlibrary, 0, Nat.zero_add _, .package hfragment hdeclared⟩
  | members outer hgroups hgroup hclasses ih =>
    obtain ⟨c, hc, rfl⟩ := List.mem_map.mp hinput
    obtain ⟨around, haround, -, hdeclared⟩ := exists_input_of_mem_group hgroups hgroup hc
    obtain ⟨library, hlibrary, depth, hdepth, houter⟩ := ih haround hdeclared
    rw [name_eq_of_mem_group hgroups hgroup hc List.mem_cons_self] at houter
    exact ⟨library, hlibrary, depth + 1, by omega, .member houter hd⟩

/-- A container without a level left has the name of a class that is nested as deeply as the limit
says. -/
theorem Reached.exists_class (hdistinct : (libraries.map TargetLibrary.target).Nodup)
    (h : Reached limit libraries 0 name inputs) :
    ∃ library ∈ libraries, ∃ d, library.Nests limit name d ∧ d.isClass = true := by
  cases h with
  | @members _ container outerInputs groups first rest outer hgroups hgroup hclasses =>
    obtain ⟨input, hinput, -, hdeclared⟩ :=
      exists_input_of_mem_group hgroups hgroup List.mem_cons_self
    obtain ⟨library, hlibrary, depth, hdepth, hnests⟩ :=
      outer.exists_nests hdistinct hinput hdeclared
    obtain rfl : depth = limit := by omega
    exact ⟨library, hlibrary, first.declaration, hnests, hclasses first List.mem_cons_self⟩

/-! ### Errors and containers -/

/-- An error about nesting that comes of merging a container is about a container inside that has no
level left. -/
theorem Reached.reached_of_mem_allErrors {blamed : QualifiedName} {reported : Nat}
    (h : Reached limit libraries levels name inputs)
    (herror : .nestingTooDeep blamed reported ∈
      (containerEntries .standard limit levels name inputs).allErrors) :
    reported = limit ∧ ∃ inputs, Reached limit libraries 0 blamed inputs := by
  induction levels generalizing name inputs with
  | zero =>
    have heq : InputError.nestingTooDeep blamed reported = .nestingTooDeep name limit :=
      List.mem_singleton.mp herror
    cases heq
    exact ⟨rfl, inputs, h⟩
  | succ levels ih =>
    rw [containerEntries] at herror
    cases hgroups : groupContributions name inputs with
    | error error =>
      -- A container that cannot be grouped has an error of another kind.
      obtain ⟨key, target, rfl⟩ := exists_of_groupContributions_eq_error hgroups
      simp [hgroups, Outcome.allErrors] at herror
    | ok groups =>
      simp only [hgroups] at herror
      obtain ⟨first, rest, hgroup, herror⟩ := exists_of_mem_allErrors_groupEntries herror
      rcases mem_allErrors_groupEntry herror with hinner | hself
      · by_cases hclasses : ∀ c ∈ first :: rest, c.declaration.isClass = true
        · rw [errors_groupMembers hclasses] at hinner
          exact ih (h.members hgroups hgroup hclasses) hinner
        · rw [groupMembers, if_neg (mt List.all_eq_true.mp hclasses)] at hinner
          cases hinner
      · cases (groupEntry_standard_eq_error_iff.mp hself).2

/-- Unless a declaration has aborted a container for being both expected and an implementation, the
report has the errors of all containers that the merge comes to. -/
theorem Reached.mem_errors (hresult : mergeLibraries .standard options libraries = .ok result)
    (hsides : ∀ name, .expectAndActual name ∉ result.report.errors) {error : InputError}
    (h : Reached options.maxNestingDepth libraries levels name inputs)
    (herror : error ∈
      (containerEntries .standard options.maxNestingDepth levels name inputs).allErrors) :
    error ∈ result.report.errors := by
  induction h generalizing error with
  | @package name inputs hinputs =>
    refine (errors_prefix_of_mergeLibraries hresult).subset (List.mem_flatMap.mpr ⟨_,
      List.mem_map_of_mem hinputs, ?_⟩)
    exact errors_packageOf name inputs ▸ herror
  | @members levels container inputs groups first rest outer hgroups hgroup hclasses ih =>
    have houter : containerEntries .standard options.maxNestingDepth (levels + 1) container inputs =
        groupEntries .standard (containerEntries .standard options.maxNestingDepth levels) container
          groups := by rw [containerEntries, hgroups]
    rw [houter] at ih
    cases hfound : (groupEntries .standard
        (containerEntries .standard options.maxNestingDepth levels) container groups).result with
    | error reason =>
      obtain ⟨_, _, -, rfl⟩ := groupEntries_standard_eq_error_iff.mp hfound
      exact absurd (ih (Outcome.mem_allErrors hfound)) (hsides _)
    | ok found =>
      rw [Outcome.allErrors_of_ok hfound] at ih
      rw [← errors_groupMembers hclasses] at herror
      exact ih (mem_errors_groupEntries hfound hgroup herror)

/-! ### Runs -/

/-- Which classes are reported as nested too deeply. An error is about a class that is nested inside
as many classes as the limit says, so there is none if all classes are nested less deeply. And if no
container was aborted for a declaration that is both expected and an implementation, then every
class of that depth that the merge comes to is reported, whether it has members or not. -/
theorem mergeLibraries_nesting
    (hresult : mergeLibraries .standard options libraries = .ok result) :
    (∀ name limit, .nestingTooDeep name limit ∈ result.report.errors →
      limit = options.maxNestingDepth ∧
        ∃ library ∈ libraries, ∃ d, library.Nests limit name d ∧ d.isClass = true) ∧
    ((∀ library ∈ libraries, ∀ depth name d, library.Nests depth name d → d.isClass = true →
        depth < options.maxNestingDepth) →
      ∀ name limit, .nestingTooDeep name limit ∉ result.report.errors) ∧
    ((∀ name, .expectAndActual name ∉ result.report.errors) →
      ∀ name inputs, Reached options.maxNestingDepth libraries 0 name inputs →
        .nestingTooDeep name options.maxNestingDepth ∈ result.report.errors) := by
  have hdistinct := nodup_targets_of_mergeLibraries hresult
  have hnested : ∀ name limit, .nestingTooDeep name limit ∈ result.report.errors →
      limit = options.maxNestingDepth ∧
        ∃ library ∈ libraries, ∃ d, library.Nests limit name d ∧ d.isClass = true := by
    intro name limit herror
    rw [errors_of_mergeLibraries hresult, List.mem_append] at herror
    rcases herror with hpackages | hhierarchy
    · obtain ⟨_, hpackage, herror⟩ := List.mem_flatMap.mp hpackages
      obtain ⟨⟨container, inputs⟩, hinputs, rfl⟩ := List.mem_map.mp hpackage
      rw [errors_packageOf] at herror
      obtain ⟨rfl, inputs, hreached⟩ := (Reached.package hinputs).reached_of_mem_allErrors herror
      exact ⟨rfl, hreached.exists_class hdistinct⟩
    · split at hhierarchy <;> simp at hhierarchy
  refine ⟨hnested, fun hshallow name limit herror => ?_, fun hsides name inputs hreached => ?_⟩
  · obtain ⟨rfl, library, hlibrary, d, hnests, hclass⟩ := hnested name limit herror
    exact lt_irrefl _ (hshallow library hlibrary _ name d hnests hclass)
  · exact hreached.mem_errors hresult hsides (List.mem_singleton_self _)

/-- A package with an empty class inside another class. -/
def nestedLibraries : List TargetLibrary :=
  [⟨⟨"jvm"⟩, [⟨⟨"p"⟩, [plainClass "Outer" [plainClass "Inner" []]]⟩]⟩]

/-- Nothing is nested in these libraries but the one class in the other. -/
theorem depth_le_of_nests_nestedLibraries {library : TargetLibrary}
    (hlibrary : library ∈ nestedLibraries) {depth : Nat} {d : Declaration}
    (h : library.Nests depth name d) : depth ≤ 1 := by
  obtain rfl := List.mem_singleton.mp hlibrary
  have hcases : (depth = 0 ∧ d = plainClass "Outer" [plainClass "Inner" []]) ∨
      (depth = 1 ∧ d = plainClass "Inner" []) := by
    induction h with
    | package hfragment hd =>
      obtain rfl := List.mem_singleton.mp hfragment
      exact .inl ⟨rfl, List.mem_singleton.mp hd⟩
    | member houter hd ih =>
      rcases ih with ⟨rfl, rfl⟩ | ⟨rfl, rfl⟩
      · exact .inr ⟨rfl, List.mem_singleton.mp hd⟩
      · cases hd
  omega

/-- Under the limit 2 the classes are nested less deeply than they may be. -/
theorem mergeLibraries_nesting_nestedLibraries :
    ∃ result, mergeLibraries .standard { maxNestingDepth := 2 } nestedLibraries = .ok result ∧
      ∀ name limit, .nestingTooDeep name limit ∉ result.report.errors := by
  have hdistinct : (nestedLibraries.map TargetLibrary.target).Nodup := by decide
  obtain ⟨result, hresult, -⟩ :=
    mergeLibraries_eq_ok .standard { maxNestingDepth := 2 } hdistinct
  refine ⟨result, hresult, (mergeLibraries_nesting hresult).2.1 ?_⟩
  intro library hlibrary depth name d hnests _
  exact Nat.lt_succ_of_le (depth_le_of_nests_nestedLibraries hlibrary hnests)

/-- Under the limit 1 the inner class is reported, although it is nested inside one class only and
nothing is nested inside it. -/
theorem not_forall_nesting :
    ¬ ∀ (options : Options) (libraries : List TargetLibrary) (result : MergeResult),
      mergeLibraries .standard options libraries = .ok result →
        (∀ library ∈ libraries, ∀ depth name d, library.Nests depth name d →
          depth ≤ options.maxNestingDepth) →
        ∀ name limit, .nestingTooDeep name limit ∉ result.report.errors := by
  intro hclaim
  have hdistinct : (nestedLibraries.map TargetLibrary.target).Nodup := by decide
  obtain ⟨result, hresult, -⟩ :=
    mergeLibraries_eq_ok .standard { maxNestingDepth := 1 } hdistinct
  have herrors : (mergeLibraries .standard { maxNestingDepth := 1 } nestedLibraries).toOption.map
      (fun result => result.report.errors) = some [.nestingTooDeep ⟨"p.Outer.Inner"⟩ 1] := rfl
  rw [hresult] at herrors
  have herrors : result.report.errors = [.nestingTooDeep ⟨"p.Outer.Inner"⟩ 1] :=
    Option.some.inj herrors
  refine hclaim _ nestedLibraries result hresult
    (fun library hlibrary depth name d hnests =>
      depth_le_of_nests_nestedLibraries hlibrary hnests) ⟨"p.Outer.Inner"⟩ 1 ?_
  rw [herrors]
  exact List.mem_singleton_self _

end DeclMerge
