import DeclMerge.Proofs.Container.Representatives
import DeclMerge.Proofs.Hierarchy.Coverage
import DeclMerge.Proofs.Merge.Containers

/-!
# What stands for the entries of a merged library

Every entry of a merged library, at any depth, stands for a group of some container. The standard
maker makes what stands for it, so the members of this declaration are those that stand for the
entries below, its signature is that of the entry, and no container has two entries with one
signature. The hierarchy is built from these declarations, so no class in it declares a signature
twice.

## Main definitions

* `Library.StandsFor` — an entry stands for a group of a container
* `Childless` — the reasons why an entry has nothing below it

## Main results

* `exists_standsFor` — every entry of a merged library stands for a group
* `Library.StandsFor.members_eq_nil` — an entry that is childless has no members
* `mergeLibraries_consistent` — entries fit what stands for them, down to the hierarchy
-/

namespace DeclMerge

variable {maker : Maker} {options : Options} {libraries : List TargetLibrary}
  {result : MergeResult} {levels : Nat} {name : QualifiedName} {inputs : List TargetInput}
  {group : List Contribution} {entry : Entry} {entries : List Entry}

/-- The entry stands for the group in some container of a merged library. Classes below that
container may be nested `levels` deep. -/
def Library.StandsFor (library : Library) (limit : Nat) (libraries : List TargetLibrary)
    (levels : Nat) (group : List Contribution) (entry : Entry) : Prop :=
  ∃ container inputs entries groups,
    library.Holds limit libraries (levels + 1) container inputs entries ∧
      groupContributions container inputs = .ok groups ∧ (group, entry) ∈ groups.zip entries

/-- The reasons why an entry has nothing below it: not all contributions are classes, the members
of the classes were aborted, or an empty class stands in for an alias. -/
inductive Childless (maker : Maker) (limit levels : Nat) (group : List Contribution)
    (entry : Entry) : Prop
  | other (hother : ¬ ∀ c ∈ group, c.declaration.isClass = true)
  | aborted (hclasses : ∀ c ∈ group, c.declaration.isClass = true)
      (haborted : (containerEntries maker limit levels entry.name (memberInputs group)).Aborted)
  | emptyClass {first : Contribution} (hfirst : group.head? = some first)
      (halias : first.declaration.kind = .typeAlias)
      (hempty : entry.representative = Maker.emptyClassOf first.declaration)

/-! ### Entries and groups -/

/-- An entry that stands for a group is made from it. -/
theorem Library.StandsFor.exists_madeFrom
    (h : mergeLibraries maker options libraries = .ok result)
    (hentry : result.library.StandsFor options.maxNestingDepth libraries levels group entry) :
    ∃ container first rest compared, group = first :: rest ∧
      MadeFrom maker (containerEntries maker options.maxNestingDepth levels) container first rest
        entry compared := by
  obtain ⟨container, inputs, entries, groups, hholds, hgroups, hmem⟩ := hentry
  rw [hholds.entries_eq h] at hmem
  obtain ⟨-, first, rest, compared, -, hgroup, hmade⟩ := exists_madeFrom_of_mem_zip hgroups hmem
  exact ⟨container, first, rest, compared, hgroup, hmade⟩

/-- Entries of a container have their groups, and a level of nesting is left for their members. -/
theorem Library.Holds.exists_group (h : mergeLibraries maker options libraries = .ok result)
    (hholds : result.library.Holds options.maxNestingDepth libraries levels name inputs entries)
    (hentry : entry ∈ entries) :
    ∃ below groups group, levels = below + 1 ∧ groupContributions name inputs = .ok groups ∧
      (group, entry) ∈ groups.zip entries := by
  have heq := hholds.entries_eq h
  rw [Outcome.entries] at heq
  split at heq
  · rename_i found hfound
    obtain ⟨below, groups, hlevels, hgroups, hmerged⟩ := containerEntries_eq_ok_iff.mp hfound
    have hmade := forall₂_madeFrom (ne_nil_of_groupContributions hgroups) hmerged
    rw [← heq] at hmade
    obtain ⟨i, hi, rfl⟩ := List.getElem_of_mem hentry
    have hlength := hmade.length_eq
    refine ⟨below, groups, groups[i], hlevels, hgroups, List.mem_iff_getElem.mpr ⟨i, ?_, ?_⟩⟩
    · rw [List.length_zip]
      omega
    · rw [List.getElem_zip]
  · rw [heq] at hentry
    cases hentry

/-- What lies below the entries of a container stands for groups of the containers inside. -/
theorem Library.Holds.exists_standsFor_of_mem_walkList
    (h : mergeLibraries maker options libraries = .ok result)
    (hholds : result.library.Holds options.maxNestingDepth libraries levels name inputs entries)
    (hentry : entry ∈ Entry.walkList entries) :
    ∃ levels group,
      result.library.StandsFor options.maxNestingDepth libraries levels group entry := by
  induction levels generalizing name inputs entries with
  | zero =>
    obtain ⟨top, htop, -⟩ := Entry.mem_walkList.mp hentry
    obtain ⟨below, -, -, hlevels, -⟩ := hholds.exists_group h htop
    cases hlevels
  | succ levels ih =>
    obtain ⟨top, htop, hentry⟩ := Entry.mem_walkList.mp hentry
    obtain ⟨below, groups, group, hlevels, hgroups, hmem⟩ := hholds.exists_group h htop
    obtain rfl : levels = below := Nat.succ.inj hlevels
    have hstands : result.library.StandsFor options.maxNestingDepth libraries levels group top :=
      ⟨name, inputs, entries, groups, hholds, hgroups, hmem⟩
    rw [Entry.walk_eq] at hentry
    rcases List.mem_cons.mp hentry with rfl | hbelow
    · exact ⟨levels, group, hstands⟩
    · -- Only classes have entries below them, and those are the entries of a container.
      have hclasses : ∀ c ∈ group, c.declaration.isClass = true := by
        obtain ⟨container, first, rest, compared, rfl, hmade⟩ := hstands.exists_madeFrom h
        by_contra hother
        rw [hmade.members_eq_nil hother] at hbelow
        cases hbelow
      exact ih (hholds.members hgroups hmem hclasses) hbelow

/-- The packages of a merged library are those of its containers that are not nested. -/
theorem exists_holds_of_mem_packages (h : mergeLibraries maker options libraries = .ok result)
    {package : Package} (hpackage : package ∈ result.library.packages) :
    ∃ inputs, result.library.Holds options.maxNestingDepth libraries
      (options.maxNestingDepth + 1) package.name inputs package.entries := by
  obtain ⟨inputs, hinputs, hsome⟩ := (mem_packages_iff h).mp hpackage
  have hholds : result.library.Holds options.maxNestingDepth libraries
      (options.maxNestingDepth + 1) package.name inputs
        ((result.library.package? package.name).elim [] Package.entries) := .package hinputs
  rw [package?_eq h hinputs, hsome] at hholds
  exact ⟨inputs, hholds⟩

/-- Every entry of a merged library stands for a group. -/
theorem exists_standsFor (h : mergeLibraries maker options libraries = .ok result)
    (hentry : entry ∈ result.library.walk) :
    ∃ levels group,
      result.library.StandsFor options.maxNestingDepth libraries levels group entry := by
  obtain ⟨package, hpackage, hentry⟩ := List.mem_flatMap.mp hentry
  obtain ⟨inputs, hholds⟩ := exists_holds_of_mem_packages h hpackage
  exact hholds.exists_standsFor_of_mem_walkList h hentry

/-- An entry with a reason for it has nothing below it. -/
theorem Library.StandsFor.members_eq_nil
    (h : mergeLibraries maker options libraries = .ok result)
    (hentry : result.library.StandsFor options.maxNestingDepth libraries levels group entry)
    (hchildless : Childless maker options.maxNestingDepth levels group entry) :
    entry.members = [] := by
  obtain ⟨container, first, rest, compared, rfl, hmade⟩ := hentry.exists_madeFrom h
  cases hchildless with
  | other hother => exact hmade.members_eq_nil hother
  | aborted hclasses haborted => rw [hmade.members_eq_entries hclasses, haborted.entries_eq]
  | emptyClass hfirst halias hempty =>
    obtain rfl := Option.some.inj hfirst
    refine hmade.members_eq_nil fun hclasses => ?_
    simpa [Declaration.isClass, halias] using hclasses first List.mem_cons_self

/-! ### Consistency -/

/-- The entries of a package have different signatures, and everything in it is consistent. -/
theorem consistent_of_mem_packages (h : mergeLibraries .standard options libraries = .ok result)
    {package : Package} (hpackage : package ∈ result.library.packages) :
    (package.entries.map Entry.signature).Nodup ∧
      ∀ entry ∈ package.walk, entry.Consistent := by
  obtain ⟨inputs, -, hsome⟩ := (mem_packages_iff h).mp hpackage
  rw [packageOf_eq] at hsome
  split at hsome
  · rename_i found hfound
    have hentries : found.1 = package.entries := congrArg Package.entries (Option.some.inj hsome)
    rw [Package.walk, ← hentries]
    exact consistent_containerEntries _ _ _ _ _ hfound
  · cases hsome

/-- What stands for a consistent entry declares no signature twice, if the entries below are
consistent too. -/
theorem Entry.Consistent.nodup_signatures (h : entry.Consistent)
    (hmembers : ∀ member ∈ entry.members, member.Consistent) :
    (entry.representative.members.map Signature.of).Nodup := by
  have hsignatures : entry.representative.members.map Signature.of =
      entry.members.map Entry.signature := by
    rw [h.members_eq, List.map_map]
    exact List.map_congr_left fun member hmember => (hmembers member hmember).signature_eq
  exact hsignatures ▸ h.distinct

/-- A class with a scope stands for an entry of the library. -/
theorem exists_mem_walk_of_scope (h : mergeLibraries maker options libraries = .ok result)
    {scope : ClassScope} (hscope : scope ∈ result.hierarchy.scopes) :
    ∃ entry ∈ result.library.walk, entry.representative = scope.declaration := by
  rw [hierarchy_of_mergeLibraries h] at hscope
  split at hscope
  · have hdeclaration := (Hierarchy.covers_ofClasses result.library.classes
      options.maxSupertypeDepth).declaration_eq scope hscope
    obtain ⟨found, hfind, heq⟩ := Option.map_eq_some_iff.mp hdeclaration
    obtain ⟨entry, hentry, rfl⟩ := List.mem_map.mp (List.mem_of_find?_eq_some hfind)
    exact ⟨entry, (List.mem_filter.mp hentry).1, heq⟩
  · cases hscope

/-- In a run with the standard maker every entry at every depth stands for a group, and what stands
for the entry has its signature and, as members in order, what stands for the entries below. There
are none if the entry has a reason to be childless. The entries of a package, and those below an
entry, have different signatures, and so have the declared members of every class in the
hierarchy. -/
theorem mergeLibraries_consistent (options : Options)
    (h : mergeLibraries .standard options libraries = .ok result) :
    (∀ entry ∈ result.library.walk, entry.Consistent ∧
      ∃ levels group,
        result.library.StandsFor options.maxNestingDepth libraries levels group entry) ∧
    (∀ levels group entry,
      result.library.StandsFor options.maxNestingDepth libraries levels group entry →
      Childless .standard options.maxNestingDepth levels group entry →
        entry.members = [] ∧ entry.representative.members = []) ∧
    (∀ package ∈ result.library.packages, (package.entries.map Entry.signature).Nodup) ∧
    ∀ scope ∈ result.hierarchy.scopes, (scope.declaration.members.map Signature.of).Nodup := by
  have hconsistent : ∀ entry ∈ result.library.walk, entry.Consistent := by
    intro entry hentry
    obtain ⟨package, hpackage, hentry⟩ := List.mem_flatMap.mp hentry
    exact (consistent_of_mem_packages h hpackage).2 entry hentry
  refine ⟨fun entry hentry => ⟨hconsistent entry hentry, exists_standsFor h hentry⟩, ?_,
    fun package hpackage => (consistent_of_mem_packages h hpackage).1, ?_⟩
  · intro levels group entry hentry hchildless
    have hnone := hentry.members_eq_nil h hchildless
    obtain ⟨container, first, rest, compared, rfl, hmade⟩ := hentry.exists_madeFrom h
    exact ⟨hnone, by rw [hmade.members_representative, hnone, List.map_nil]⟩
  · intro scope hscope
    obtain ⟨entry, hentry, heq⟩ := exists_mem_walk_of_scope h hscope
    rw [← heq]
    exact (hconsistent entry hentry).nodup_signatures fun member hmember =>
      hconsistent member (Library.mem_walk_of_mem_members hentry hmember)

/-- A class with an overloaded function and a nested class whose members are aborted. -/
theorem mergeLibraries_consistent_boxLibraries :
    ∃ result, mergeLibraries .standard {} boxLibraries = .ok result ∧
      result.library.walk.map Entry.name =
        [⟨"p.Box"⟩, ⟨"p.Box.get"⟩, ⟨"p.Box.Lid"⟩, ⟨"p.Box.get"⟩] ∧
      (∀ entry ∈ result.library.walk, entry.Consistent) ∧
      result.hierarchy.names = [⟨"p.Box"⟩, ⟨"p.Box.Lid"⟩] ∧
      ∀ scope ∈ result.hierarchy.scopes,
        (scope.declaration.members.map Signature.of).Nodup := by
  have hdistinct : (boxLibraries.map TargetLibrary.target).Nodup := by decide
  obtain ⟨result, hresult, -⟩ := mergeLibraries_eq_ok .standard {} hdistinct
  obtain ⟨hconsistent, -, -, hscopes⟩ := mergeLibraries_consistent {} hresult
  have hnames : (mergeLibraries .standard {} boxLibraries).toOption.map
      (fun result => (result.library.walk.map Entry.name, result.hierarchy.names)) =
        some ([⟨"p.Box"⟩, ⟨"p.Box.get"⟩, ⟨"p.Box.Lid"⟩, ⟨"p.Box.get"⟩],
          [⟨"p.Box"⟩, ⟨"p.Box.Lid"⟩]) := rfl
  rw [hresult] at hnames
  obtain ⟨hwalk, hhierarchy⟩ := Prod.mk.inj (Option.some.inj hnames)
  exact ⟨result, hresult, hwalk, fun entry hentry => (hconsistent entry hentry).1, hhierarchy,
    hscopes⟩

end DeclMerge
