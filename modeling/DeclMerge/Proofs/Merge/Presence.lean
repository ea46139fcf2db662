import DeclMerge.Proofs.Container.Refusals
import DeclMerge.Proofs.Merge.Reordering

/-!
# The packages of a merged library

A merged library has the packages that some target mentions and that were not aborted. Whether a
package is aborted does not depend on the order of the libraries, unless the targets agree on a
value in it that some of them declare as expected and as an implementation and others do not: then
it depends on which of them comes first.

## Main results

* `mem_names_packages_iff` — the packages of a merged library
* `mergeLibraries_names_perm` — they are the same in any order of the libraries, one case excepted
* `not_forall_names_perm` — in that case they are not
-/

namespace DeclMerge

variable {maker : Maker} {options : Options} {libraries : List TargetLibrary}
  {result : MergeResult} {name : QualifiedName}

/-- A package is in the merged library if some target mentions it and it was not aborted. -/
theorem mem_names_packages_iff (h : mergeLibraries maker options libraries = .ok result) :
    name ∈ result.library.packages.map Package.name ↔
      name ∈ packageNames libraries ∧
        ¬ (containerEntries maker options.maxNestingDepth (options.maxNestingDepth + 1) name
          (inputsOf libraries name)).Aborted := by
  have hdistinct := nodup_targets_of_mergeLibraries h
  -- A package is missing exactly if its container has an error.
  have hpackage : (∃ package, (packageOf maker options name (inputsOf libraries name)).1 =
      some package) ↔ ¬ (containerEntries maker options.maxNestingDepth
        (options.maxNestingDepth + 1) name (inputsOf libraries name)).Aborted := by
    rw [packageOf_eq, Outcome.Aborted]
    split <;> rename_i hfound <;> simp [hfound]
  rw [← hpackage, List.mem_map]
  constructor
  · rintro ⟨package, hmem, rfl⟩
    obtain ⟨inputs, hinputs, hsome⟩ := (mem_packages_iff h).mp hmem
    obtain ⟨hname, rfl⟩ := (mem_packageInputs_iff hdistinct).mp hinputs
    exact ⟨hname, package, hsome⟩
  · rintro ⟨hname, package, hsome⟩
    obtain rfl : package.name = name := name_of_packageOf hsome
    exact ⟨package, (mem_packages_iff h).mpr
      ⟨_, (mem_packageInputs_iff hdistinct).mpr ⟨hname, rfl⟩, hsome⟩, rfl⟩

/-- What the libraries put into a package is in the order of the libraries. -/
theorem nodup_targets_inputsOf (h : (libraries.map TargetLibrary.target).Nodup)
    (hname : name ∈ packageNames libraries) :
    ((inputsOf libraries name).map TargetInput.target).Nodup := by
  have hinputs := (mem_packageInputs_iff h).mpr ⟨hname, rfl⟩
  exact h.sublist (targets_packageInputs_sublist h hinputs)

/-- In any order of the libraries the merged library has the same packages, those excepted in which
the targets agree on a value that the first one to declare it has as expected and as an
implementation at once in one of the orders, but not in the other one. -/
theorem mergeLibraries_names_perm (options : Options) {libraries libraries' : List TargetLibrary}
    (hdistinct : (libraries.map TargetLibrary.target).Nodup) (h : libraries.Perm libraries') :
    ∃ result result', mergeLibraries .standard options libraries = .ok result ∧
      mergeLibraries .standard options libraries' = .ok result' ∧
      ∀ name,
        (∀ value, agreesOnBoth (valuesNamed (inputsOf libraries name) value) =
          agreesOnBoth (valuesNamed (inputsOf libraries' name) value)) →
        (name ∈ result.library.packages.map Package.name ↔
          name ∈ result'.library.packages.map Package.name) := by
  have hdistinct' : (libraries'.map TargetLibrary.target).Nodup :=
    (h.map TargetLibrary.target).nodup_iff.mp hdistinct
  obtain ⟨result, hresult, -⟩ := mergeLibraries_eq_ok .standard options hdistinct
  obtain ⟨result', hresult', -⟩ := mergeLibraries_eq_ok .standard options hdistinct'
  refine ⟨result, result', hresult, hresult', fun name hvalues => ?_⟩
  rw [mem_names_packages_iff hresult, mem_names_packages_iff hresult',
    ← (packageNames_perm h).mem_iff]
  refine and_congr_right fun hname => not_congr ?_
  exact aborted_containerEntries_perm (nodup_targets_inputsOf hdistinct hname) (h.filterMap _)
    hvalues

/-- The flags of an expected declaration and of an implementation together. -/
def bothFlags : Flags := Flags.isExpect.union .isActual

/-- A value of a package. -/
def limitValue (flags : Flags) : Declaration :=
  .value { name := ⟨"limit"⟩, flags } ⟨⟨"Int"⟩, [], false⟩

/-- A function that one target declares as both and the other does not, and a value that both
declare so. -/
def flaggedLibraries : List TargetLibrary :=
  let run (flags : Flags) : Declaration :=
    .function { name := ⟨"run"⟩, flags } none [] ⟨⟨"Unit"⟩, [], false⟩
  [⟨⟨"js"⟩, [⟨⟨"p"⟩, [limitValue bothFlags]⟩, ⟨⟨"q"⟩, [run bothFlags]⟩]⟩,
    ⟨⟨"jvm"⟩, [⟨⟨"q"⟩, [run .empty]⟩, ⟨⟨"p"⟩, [limitValue bothFlags]⟩]⟩]

/-- The package of the function is there in both orders, and the package of the value in neither. -/
theorem mergeLibraries_names_perm_flagged :
    (flaggedLibraries.map TargetLibrary.target).Nodup ∧
    flaggedLibraries.Perm flaggedLibraries.reverse ∧
    ∃ result result', mergeLibraries .standard {} flaggedLibraries = .ok result ∧
      mergeLibraries .standard {} flaggedLibraries.reverse = .ok result' ∧
      (∀ value, agreesOnBoth (valuesNamed (inputsOf flaggedLibraries ⟨"p"⟩) value) =
        agreesOnBoth (valuesNamed (inputsOf flaggedLibraries.reverse ⟨"p"⟩) value)) ∧
      (∀ value, agreesOnBoth (valuesNamed (inputsOf flaggedLibraries ⟨"q"⟩) value) =
        agreesOnBoth (valuesNamed (inputsOf flaggedLibraries.reverse ⟨"q"⟩) value)) ∧
      ⟨"p"⟩ ∉ result'.library.packages.map Package.name ∧
      ⟨"q"⟩ ∈ result'.library.packages.map Package.name := by
  have hdistinct : (flaggedLibraries.map TargetLibrary.target).Nodup := by decide
  have hperm : flaggedLibraries.Perm flaggedLibraries.reverse := (List.reverse_perm _).symm
  obtain ⟨result, result', hresult, hresult', hsame⟩ :=
    mergeLibraries_names_perm {} hdistinct hperm
  have hnames : (mergeLibraries .standard {} flaggedLibraries).toOption.map
      (fun result => result.library.packages.map Package.name) = some [⟨"q"⟩] := rfl
  rw [hresult] at hnames
  have hnames : result.library.packages.map Package.name = [⟨"q"⟩] := Option.some.inj hnames
  have hlimit : ∀ value, agreesOnBoth (valuesNamed (inputsOf flaggedLibraries ⟨"p"⟩) value) =
      agreesOnBoth (valuesNamed (inputsOf flaggedLibraries.reverse ⟨"p"⟩) value) := by
    intro value
    have hfirst : contributionsOf (inputsOf flaggedLibraries ⟨"p"⟩) =
        [⟨⟨"js"⟩, limitValue bothFlags⟩, ⟨⟨"jvm"⟩, limitValue bothFlags⟩] := rfl
    have hsecond : contributionsOf (inputsOf flaggedLibraries.reverse ⟨"p"⟩) =
        [⟨⟨"jvm"⟩, limitValue bothFlags⟩, ⟨⟨"js"⟩, limitValue bothFlags⟩] := rfl
    by_cases hvalue : (limitValue bothFlags).name = value
    · subst hvalue
      rfl
    · simp [valuesNamed, hfirst, hsecond, hvalue]
  have hrun : ∀ value, agreesOnBoth (valuesNamed (inputsOf flaggedLibraries ⟨"q"⟩) value) =
      agreesOnBoth (valuesNamed (inputsOf flaggedLibraries.reverse ⟨"q"⟩) value) :=
    fun _ => rfl
  refine ⟨hdistinct, hperm, result, result', hresult, hresult', hlimit, hrun, ?_, ?_⟩
  · rw [← hsame _ hlimit, hnames]
    decide
  · rw [← hsame _ hrun, hnames]
    decide

/-- The libraries of two targets that agree on a value, which one of them declares as both. -/
def limitLibraries : List TargetLibrary :=
  [⟨⟨"js"⟩, [⟨⟨"p"⟩, [limitValue bothFlags]⟩]⟩, ⟨⟨"jvm"⟩, [⟨⟨"p"⟩, [limitValue .empty]⟩]⟩]

/-- Not in all cases are the packages the same in any order: with the flagged value first its
package is missing, with the other one first it is there. -/
theorem not_forall_names_perm :
    ¬ ∀ (options : Options) (libraries libraries' : List TargetLibrary)
      (result result' : MergeResult),
      (libraries.map TargetLibrary.target).Nodup → libraries.Perm libraries' →
      mergeLibraries .standard options libraries = .ok result →
      mergeLibraries .standard options libraries' = .ok result' →
      ∀ name, name ∈ result.library.packages.map Package.name ↔
        name ∈ result'.library.packages.map Package.name := by
  intro hall
  have hflagged : mergeLibraries .standard {} limitLibraries = .ok _ := rfl
  have hother : mergeLibraries .standard {} limitLibraries.reverse = .ok _ := rfl
  have hsame := hall {} limitLibraries limitLibraries.reverse _ _ (by decide)
    (List.reverse_perm _).symm hflagged hother ⟨"p"⟩
  exact absurd (hsame.mpr List.mem_cons_self) List.not_mem_nil

end DeclMerge
