import DeclMerge.Proofs.Container.Aborts
import DeclMerge.Proofs.Container.Errors
import DeclMerge.Proofs.Merge.Containers

/-!
# What makes runs and containers fail

A run fails only if a target comes twice. Otherwise each of its containers that has a level of
nesting left is aborted by one rule, its error is in the report, and what remains of it is read off
the library: an aborted package is missing, and an aborted class is there without members.

## Main definitions

* `KeepsGroups` — what is left of a container that was not aborted

## Main results

* `mergeLibraries_eq_error_iff` — when a run fails, and with which error
* `mergeLibraries_aborts` — when the containers of a run are aborted, and what is left of them
-/

namespace DeclMerge

variable {maker : Maker} {options : Options} {libraries : List TargetLibrary}
  {result : MergeResult} {container name : QualifiedName} {error : InputError}

/-! ### Runs that fail -/

/-- The first target that has come before is found. -/
theorem repeatedTarget?_append {seen before after : List Target} {target : Target}
    (hnodup : before.Nodup) (hseen : ∀ other ∈ before, other ∉ seen)
    (hmem : target ∈ seen ++ before) :
    repeatedTarget? seen (before ++ target :: after) = some target := by
  induction before generalizing seen with
  | nil =>
    rw [List.append_nil] at hmem
    rw [List.nil_append, repeatedTarget?, if_pos hmem]
  | cons other before ih =>
    obtain ⟨hfresh, hnodup⟩ := List.nodup_cons.mp hnodup
    rw [List.cons_append, repeatedTarget?, if_neg (hseen other List.mem_cons_self)]
    refine ih hnodup (fun next hnext => ?_) (by simpa using hmem)
    rw [List.mem_append, List.mem_singleton, not_or]
    exact ⟨hseen next (List.mem_cons_of_mem _ hnext), fun heq => hfresh (heq ▸ hnext)⟩

theorem repeatedTarget?_eq_some {library : TargetLibrary}
    (h : IsFirstRepeat TargetLibrary.target libraries library) :
    repeatedTarget? [] (libraries.map TargetLibrary.target) = some library.target := by
  obtain ⟨before, after, rfl, hnodup, hmem⟩ := h
  rw [List.map_append, List.map_cons]
  exact repeatedTarget?_append hnodup nofun hmem

/-- A run fails with the first target that has come before. -/
theorem mergeLibraries_eq_error_iff :
    mergeLibraries maker options libraries = .error error ↔
      ∃ library, IsFirstRepeat TargetLibrary.target libraries library ∧
        error = .duplicateTarget library.target := by
  constructor
  · intro h
    have hdup : ¬ (libraries.map TargetLibrary.target).Nodup := by
      intro hnodup
      obtain ⟨_, hresult, -⟩ := mergeLibraries_eq_ok maker options hnodup
      rw [hresult] at h
      cases h
    obtain ⟨library, hlibrary⟩ := exists_isFirstRepeat_iff.mpr hdup
    refine ⟨library, hlibrary, ?_⟩
    simpa [mergeLibraries, repeatedTarget?_eq_some hlibrary, eq_comm] using h
  · rintro ⟨library, hlibrary, rfl⟩
    simp [mergeLibraries, repeatedTarget?_eq_some hlibrary]

/-! ### Errors in the report -/

theorem errors_packageOf (name : QualifiedName) (inputs : List TargetInput) :
    (packageOf maker options name inputs).2.errors =
      (containerEntries maker options.maxNestingDepth (options.maxNestingDepth + 1) name
        inputs).allErrors := by
  rw [packageOf, Outcome.allErrors]
  split <;> rename_i hresult <;> rw [hresult]

/-- The errors of packages come first in the report of a run. -/
theorem errors_prefix_of_mergeLibraries (h : mergeLibraries maker options libraries = .ok result) :
    (packagesOf maker options (packageInputs libraries)).2.errors <+: result.report.errors := by
  have hnodup := nodup_targets_of_mergeLibraries h
  simp only [mergeLibraries, repeatedTarget?_nil_eq_none_iff.mpr hnodup] at h
  split at h <;> cases h
  · exact List.prefix_append _ _
  · exact List.prefix_rfl

/-- The report has the errors of all containers in the library. -/
theorem Library.Holds.mem_errors (h : mergeLibraries maker options libraries = .ok result)
    {levels : Nat} {inputs : List TargetInput} {entries : List Entry}
    (hholds : result.library.Holds options.maxNestingDepth libraries levels name inputs entries)
    (herror : error ∈
      (containerEntries maker options.maxNestingDepth levels name inputs).allErrors) :
    error ∈ result.report.errors := by
  induction hholds with
  | @package name inputs hinputs =>
    refine (errors_prefix_of_mergeLibraries h).subset (List.mem_flatMap.mpr ⟨_,
      List.mem_map_of_mem hinputs, ?_⟩)
    exact errors_packageOf name inputs ▸ herror
  | @members levels container inputs entries groups group entry outer hgroups hentry hclasses ih =>
    rw [outer.entries_eq h] at hentry
    obtain ⟨found, first, rest, compared, hfound, rfl, hmade⟩ :=
      exists_madeFrom_of_mem_zip hgroups hentry
    rw [hmade.name_eq, ← errors_groupMembers hclasses] at herror
    have hinner := mem_errors_groupEntries hfound (List.of_mem_zip hentry).1 herror
    have houter : containerEntries maker options.maxNestingDepth (levels + 1) container inputs =
        groupEntries maker (containerEntries maker options.maxNestingDepth levels) container
          groups := by rw [containerEntries, hgroups]
    refine ih ?_
    rw [houter, Outcome.allErrors_of_ok hfound]
    exact hinner

/-! ### Containers of a run -/

/-- The entries of a container that was not aborted are one for each of its groups, in order. A
class whose members were aborted has its entry, without members. -/
def KeepsGroups (maker : Maker) (limit levels : Nat) (container : QualifiedName)
    (inputs : List TargetInput) (entries : List Entry) : Prop :=
  ∃ groups, groupContributions container inputs = .ok groups ∧
    List.Forall₂ (fun group entry => ∃ first rest, group = first :: rest ∧
      entry.name = container.child first.declaration.name ∧
      entry.signature = Signature.of first.declaration ∧
      entry.merged.targets = .ofList (group.map Contribution.target) ∧
      ((∀ c ∈ group, c.declaration.isClass = true) →
        (containerEntries maker limit levels entry.name (memberInputs group)).Aborted →
          entry.members = [])) groups entries

theorem keepsGroups_of_not_aborted {limit levels : Nat} {inputs : List TargetInput}
    (h : ¬ (containerEntries maker limit (levels + 1) container inputs).Aborted) :
    KeepsGroups maker limit levels container inputs
      (containerEntries maker limit (levels + 1) container inputs).entries := by
  cases hresult : (containerEntries maker limit (levels + 1) container inputs).result with
  | error error => exact absurd ⟨error, hresult⟩ h
  | ok found =>
    obtain ⟨below, groups, hlevels, hgroups, hfound⟩ := containerEntries_eq_ok_iff.mp hresult
    obtain rfl : levels = below := Nat.succ.inj hlevels
    refine ⟨groups, hgroups, ?_⟩
    rw [Outcome.entries, hresult]
    refine (forall₂_madeFrom (ne_nil_of_groupContributions hgroups) hfound).imp ?_
    rintro group entry ⟨first, rest, compared, rfl, hmade⟩
    refine ⟨first, rest, rfl, hmade.name_eq, hmade.signature_eq, hmade.targets_eq,
      fun hclasses haborted => ?_⟩
    rw [hmade.members_eq_entries hclasses, haborted.entries_eq]

/-- With the standard maker, a run fails exactly if a target comes twice, with the first library
whose target has come before. Otherwise every container with a level of nesting left is aborted by
the rule, where a target's declarations in a package are those of all its fragments. An aborted
package is missing from the library, an aborted class has its entry without members unless the
container around it was aborted too, and the errors are in the report. -/
theorem mergeLibraries_aborts (options : Options) (libraries : List TargetLibrary) :
    ((∃ error, mergeLibraries .standard options libraries = .error error) ↔
      ¬ (libraries.map TargetLibrary.target).Nodup) ∧
    (∀ error, mergeLibraries .standard options libraries = .error error ↔
      ∃ library, IsFirstRepeat TargetLibrary.target libraries library ∧
        error = .duplicateTarget library.target) ∧
    ∀ result, mergeLibraries .standard options libraries = .ok result →
      (∀ name inputs, (name, inputs) ∈ packageInputs libraries →
        inputs = libraries.filterMap fun library => library.input? name) ∧
      (∀ levels name inputs, Reached options.maxNestingDepth libraries (levels + 1) name inputs →
        AbortRule name inputs
          (containerEntries .standard options.maxNestingDepth (levels + 1) name inputs)) ∧
      (∀ name inputs, (name, inputs) ∈ packageInputs libraries →
        ((containerEntries .standard options.maxNestingDepth (options.maxNestingDepth + 1) name
          inputs).Aborted ↔ result.library.package? name = none)) ∧
      (∀ levels name inputs entries,
        result.library.Holds options.maxNestingDepth libraries (levels + 1) name inputs entries →
        ¬ (containerEntries .standard options.maxNestingDepth (levels + 1) name inputs).Aborted →
          KeepsGroups .standard options.maxNestingDepth levels name inputs entries) ∧
      ∀ levels name inputs entries error,
        result.library.Holds options.maxNestingDepth libraries levels name inputs entries →
        (containerEntries .standard options.maxNestingDepth levels name inputs).result =
          .error error → error ∈ result.report.errors := by
  refine ⟨?_, fun error => mergeLibraries_eq_error_iff,
    fun result hresult => ⟨?_, ?_, ?_, ?_, ?_⟩⟩
  · rw [← exists_isFirstRepeat_iff]
    simp only [mergeLibraries_eq_error_iff]
    exact ⟨fun ⟨_, library, h, _⟩ => ⟨library, h⟩, fun ⟨library, h⟩ => ⟨_, library, h, rfl⟩⟩
  · intro name inputs hinputs
    rw [packageInputs_eq (nodup_targets_of_mergeLibraries hresult)] at hinputs
    obtain ⟨_, -, heq⟩ := List.mem_map.mp hinputs
    obtain ⟨rfl, rfl⟩ := Prod.mk.inj heq
    rfl
  · -- No target comes twice into a container, since none comes twice into the run.
    intro levels name inputs hreached
    have hnodup := nodup_targets_of_mergeLibraries hresult
    exact abortRule_containerEntries (hnodup.sublist (hreached.targets_sublist hnodup))
  · intro name inputs hinputs
    rw [package?_eq hresult hinputs, packageOf_eq, Outcome.Aborted]
    split <;> rename_i hfound <;> simp [hfound]
  · intro levels name inputs entries hholds hkept
    rw [hholds.entries_eq hresult]
    exact keepsGroups_of_not_aborted hkept
  · intro levels name inputs entries error hholds herror
    exact hholds.mem_errors hresult (Outcome.mem_allErrors herror)

end DeclMerge
