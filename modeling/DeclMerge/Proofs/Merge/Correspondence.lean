import DeclMerge.Proofs.Divergence.Agreement
import DeclMerge.Proofs.Merge.Containers

/-!
# Reports and merged libraries

The report of a run and the merged library tell the same story. The comparisons are, in order,
those of the entries that two or more targets contribute to, each entry coming before the entries
below it; and an entry is common unless its comparison failed. An aborted container has left
neither entries nor comparisons.

## Main definitions

* `Entry.isShared` — whether two or more targets contribute
* `Entry.ComparedBy` — a comparison is the one of an entry
* `Tallies` — comparisons are those of the shared entries, in order

## Main results

* `tallies_containerEntries` — the comparisons of a container tally with its entries
* `mergeLibraries_tallies` — those of a run tally with the merged library
-/

namespace DeclMerge

/-- Two or more targets contribute to the entry. -/
def Entry.isShared (entry : Entry) : Bool := 2 ≤ entry.merged.targets.size

/-- The comparison is the one of the entry, which is common exactly if it succeeded. -/
structure Entry.ComparedBy (entry : Entry) (comparison : Comparison) : Prop where
  name_eq : comparison.name = entry.name
  signature_eq : comparison.signature = entry.signature
  targets_eq : comparison.targets = entry.merged.targets
  isCommon_iff : entry.merged.isCommon = true ↔ comparison.verdict = .success

/-- The comparisons are, in order, those of the shared entries; the others are common. -/
structure Tallies (entries : List Entry) (compared : List Comparison) : Prop where
  shared : List.Forall₂ Entry.ComparedBy (entries.filter Entry.isShared) compared
  lone : ∀ entry ∈ entries, entry.isShared = false →
    entry.merged.targets.size = 1 ∧ entry.merged.isCommon = true

namespace Tallies

theorem nil : Tallies [] [] := ⟨.nil, by simp⟩

theorem append {entries others : List Entry} {compared further : List Comparison}
    (h : Tallies entries compared) (h' : Tallies others further) :
    Tallies (entries ++ others) (compared ++ further) where
  shared := by
    rw [List.filter_append]
    exact List.rel_append h.shared h'.shared
  lone entry hentry := by
    rcases List.mem_append.mp hentry with hentry | hentry
    · exact h.lone entry hentry
    · exact h'.lone entry hentry

end Tallies

variable {maker : Maker} {mergeMembers : ContainerMerge} {container : QualifiedName}
  {first : Contribution} {rest : List Contribution} {entry : Entry} {entries : List Entry}
  {compared : List Comparison} {options : Options} {libraries : List TargetLibrary}

/-! ### One container -/

/-- The comparison of a group is that of its entry. -/
theorem MadeFrom.tallies_self
    (h : MadeFrom maker mergeMembers container first rest entry compared)
    (htargets : ((first :: rest).map Contribution.target).Nodup) :
    Tallies [entry] (compareGroup entry.name entry.signature (first :: rest)).2 := by
  -- There are as many targets as contributions, so an entry is shared exactly if it is compared.
  have hsize : entry.merged.targets.size = (first :: rest).length := by
    rw [h.targets_eq, TargetSet.size_ofList_of_nodup htargets, List.length_map]
  have hcommon := h.isCommon_eq
  unfold compareGroup at hcommon ⊢
  by_cases hmany : 1 < (first :: rest).length
  · rw [if_pos hmany] at hcommon ⊢
    have hshared : entry.isShared = true := decide_eq_true (hsize ▸ hmany)
    refine ⟨?_, ?_⟩
    · rw [List.filter_cons_of_pos hshared]
      refine .cons ⟨rfl, rfl, h.targets_eq.symm, ?_⟩ .nil
      rw [hcommon, Verdict.isSuccess_iff]
    · intro other hother hlone
      rw [List.mem_singleton.mp hother, hshared] at hlone
      cases hlone
  · rw [if_neg hmany] at hcommon ⊢
    have hone : entry.merged.targets.size = 1 := by
      rw [List.length_cons] at hmany hsize
      omega
    have hlone : entry.isShared = false := by simp [Entry.isShared, hone]
    refine ⟨?_, ?_⟩
    · rw [List.filter_cons_of_neg (by simp [hlone])]
      exact .nil
    · intro other hother _
      rw [List.mem_singleton.mp hother]
      exact ⟨hone, hcommon⟩

/-- What is found in a group tallies if what is found in containers of members does. -/
theorem MadeFrom.tallies
    (h : MadeFrom maker mergeMembers container first rest entry compared)
    (htargets : ((first :: rest).map Contribution.target).Nodup)
    (hmembers : ∀ name inputs entries compared,
      (mergeMembers name inputs).result = .ok (entries, compared) →
        Tallies (Entry.walkList entries) compared) :
    Tallies entry.walk compared := by
  rw [entry.walk_eq, h.compared_eq]
  refine (h.tallies_self htargets).append ?_
  rw [h.members_eq]
  rcases groupMembers_cases mergeMembers entry.name (first :: rest) with hnone | hfound
  · rw [hnone]
    exact .nil
  · exact hmembers _ _ _ _ hfound

/-- The comparisons of a container tally with its entries and all entries below them. -/
theorem tallies_containerEntries {limit levels : Nat} {inputs : List TargetInput}
    (h : (containerEntries maker limit levels container inputs).result = .ok (entries, compared)) :
    Tallies (Entry.walkList entries) compared := by
  -- A level of nesting is used up at each step down.
  induction levels generalizing container inputs entries compared with
  | zero => cases h
  | succ levels ih =>
    obtain ⟨below, groups, hlevels, hgroups, hentries⟩ := containerEntries_eq_ok_iff.mp h
    obtain rfl : levels = below := Nat.succ.inj hlevels
    have htargets : ∀ group ∈ groups, (group.map Contribution.target).Nodup :=
      fun group hgroup => (targets_group_sublist hgroups hgroup).1
    refine groupEntries_induction
      (motive := fun groups entries compared =>
        (∀ group ∈ groups, (group.map Contribution.target).Nodup) →
          Tallies (Entry.walkList entries) compared)
      (fun _ => .nil) ?_ (ne_nil_of_groupContributions hgroups) hentries htargets
    intro first rest groups entry compared entries others hentry htail htargets
    have hhead := hentry.tallies (htargets _ List.mem_cons_self) fun _ _ _ _ => ih
    exact hhead.append (htail fun group hgroup => htargets group (List.mem_cons_of_mem _ hgroup))

/-! ### A run -/

theorem tallies_packageOf (maker : Maker) (options : Options) (name : QualifiedName)
    (inputs : List TargetInput) :
    Tallies ((packageOf maker options name inputs).1.toList.flatMap Package.walk)
      (packageOf maker options name inputs).2.comparisons := by
  rw [packageOf]
  split
  · rename_i entries compared hresult
    simpa [Package.walk] using tallies_containerEntries hresult
  · exact .nil

theorem tallies_packagesOf (maker : Maker) (options : Options)
    (inputs : List (QualifiedName × List TargetInput)) :
    Tallies ((packagesOf maker options inputs).1.flatMap Package.walk)
      (packagesOf maker options inputs).2.comparisons := by
  simp only [packagesOf]
  induction inputs with
  | nil => exact .nil
  | cons input inputs ih =>
    rw [List.map_cons, List.flatMap_cons]
    have hhead := tallies_packageOf maker options input.1 input.2
    have hpackages : ((packageOf maker options input.1 input.2 ::
        inputs.map fun input => packageOf maker options input.1 input.2).filterMap
          Prod.fst).flatMap Package.walk =
        (packageOf maker options input.1 input.2).1.toList.flatMap Package.walk ++
          ((inputs.map fun input => packageOf maker options input.1 input.2).filterMap
            Prod.fst).flatMap Package.walk := by
      rw [List.filterMap_cons]
      split <;> rename_i hpackage <;> simp [hpackage]
    rw [hpackages]
    exact hhead.append ih

/-- The comparisons of a run tally with the merged library. An aborted package is not in the
library, and an aborted container at any depth has no entries in it. -/
theorem mergeLibraries_tallies (options : Options) (libraries : List TargetLibrary)
    (h : (libraries.map TargetLibrary.target).Nodup) :
    ∃ result, mergeLibraries .standard options libraries = .ok result ∧
      Tallies result.library.walk result.report.comparisons ∧
      (∀ name inputs, (name, inputs) ∈ packageInputs libraries →
        (containerEntries .standard options.maxNestingDepth (options.maxNestingDepth + 1) name
          inputs).Aborted → result.library.package? name = none) ∧
      (∀ levels name inputs entries,
        result.library.Holds options.maxNestingDepth libraries levels name inputs entries →
        (containerEntries .standard options.maxNestingDepth levels name inputs).Aborted →
          entries = []) := by
  obtain ⟨result, hresult, hpackages, hcomparisons⟩ :=
    mergeLibraries_eq_ok .standard options h
  refine ⟨result, hresult, ?_, ?_, ?_⟩
  · rw [Library.walk, hpackages, hcomparisons]
    exact tallies_packagesOf .standard options (packageInputs libraries)
  · rintro name inputs hinputs ⟨error, herror⟩
    rw [package?_eq hresult hinputs, packageOf_eq, herror]
  · intro levels name inputs entries hholds haborted
    rw [hholds.entries_eq hresult, haborted.entries_eq]

/-- An aborted nested class leaves its own comparison and none of its members. -/
theorem mergeLibraries_tallies_boxLibraries :
    (boxLibraries.map TargetLibrary.target).Nodup ∧
    ∃ result, mergeLibraries .standard {} boxLibraries = .ok result ∧
      Tallies result.library.walk result.report.comparisons ∧
      result.report.comparisons.map Comparison.name =
        [⟨"p.Box"⟩, ⟨"p.Box.get"⟩, ⟨"p.Box.Lid"⟩] := by
  have hdistinct : (boxLibraries.map TargetLibrary.target).Nodup := by decide
  obtain ⟨result, hresult, htallies, -⟩ := mergeLibraries_tallies {} boxLibraries hdistinct
  have hnames : (mergeLibraries .standard {} boxLibraries).toOption.map
      (fun result => result.report.comparisons.map Comparison.name) =
        some [⟨"p.Box"⟩, ⟨"p.Box.get"⟩, ⟨"p.Box.Lid"⟩] := rfl
  rw [hresult] at hnames
  exact ⟨hdistinct, result, hresult, htallies, Option.some.inj hnames⟩

end DeclMerge
