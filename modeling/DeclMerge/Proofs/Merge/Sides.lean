import DeclMerge.Proofs.Container.Aborts
import DeclMerge.Proofs.Merge.Representatives

/-!
# Expected declarations and their implementations

Targets may declare anything as expected, as an implementation, or as both at once. Nothing that
stands for an entry of a merged library is both: the standard maker refuses such a declaration where
the targets agree, and sets and clears the flags of both sides where they do not. The members of a
class are replaced by what stands for the entries below it, so the same holds at every depth. The
implementations of a diverging declaration are what the targets declare themselves, with members and
all, but for these two flags.

## Main definitions

* `TargetLibrary.Declares` — what a target declares under a qualified name
* `Declaration.ImplementedBy` — an implementation that is a declaration but for its flags
* `HasSides` — an expected declaration with the implementations of the targets

## Main results

* `Reached.exists_declares` — what comes into a container has been declared by its target
* `Merged.isBoth_of_standard` — the standard maker makes nothing that is both
* `hasSides_of_standard` — what the standard maker makes of a diverging declaration
* `mergeLibraries_sides` — no entry stands for both, and diverging ones have their sides
-/

namespace DeclMerge

variable {options : Options} {libraries : List TargetLibrary} {result : MergeResult}
  {limit levels : Nat} {name : QualifiedName} {inputs : List TargetInput} {input : TargetInput}
  {group : List Contribution} {entry : Entry} {d : Declaration}

/-! ### What targets declare -/

/-- The target declares `d` under a qualified name, in a package or in a class that it declares. -/
inductive TargetLibrary.Declares (library : TargetLibrary) : QualifiedName → Declaration → Prop
  | package {fragment : PackageFragment} {d : Declaration}
      (hfragment : fragment ∈ library.packages) (hd : d ∈ fragment.declarations) :
      Declares library (fragment.name.child d.name) d
  | member {name : QualifiedName} {outer d : Declaration} (houter : Declares library name outer)
      (hd : d ∈ outer.members) : Declares library (name.child d.name) d

/-- What a target puts into a package is declared in the fragments of the package. -/
theorem TargetLibrary.exists_fragment_of_input? {library : TargetLibrary}
    (h : library.input? name = some input) (hd : d ∈ input.declarations) :
    library.target = input.target ∧
      ∃ fragment ∈ library.packages, fragment.name = name ∧ d ∈ fragment.declarations := by
  rw [input?] at h
  split at h
  · cases h
  · cases h
    obtain ⟨fragment, hfragment, hdeclared⟩ := List.mem_flatMap.mp hd
    obtain ⟨hmem, hname⟩ := List.mem_filter.mp hfragment
    exact ⟨rfl, fragment, hmem, of_decide_eq_true hname, hdeclared⟩

theorem TargetLibrary.declares_of_input? {library : TargetLibrary}
    (h : library.input? name = some input) (hd : d ∈ input.declarations) :
    library.target = input.target ∧ library.Declares (name.child d.name) d := by
  obtain ⟨htarget, fragment, hfragment, rfl, hdeclared⟩ := exists_fragment_of_input? h hd
  exact ⟨htarget, .package hfragment hdeclared⟩

/-- A contribution to a group of a container is a declaration that its target puts there. -/
theorem exists_input_of_mem_group {container : QualifiedName} {groups : List (List Contribution)}
    (hgroups : groupContributions container inputs = .ok groups) (hgroup : group ∈ groups)
    {c : Contribution} (hc : c ∈ group) :
    ∃ input ∈ inputs, input.target = c.target ∧ c.declaration ∈ input.declarations := by
  obtain ⟨-, rfl⟩ := groupContributions_eq_ok_iff.mp hgroups
  obtain ⟨input, hinput, hc⟩ :=
    List.mem_flatMap.mp ((Grouping.sublist_of_mem_parts _ hgroup).subset hc)
  obtain ⟨d, hd, rfl⟩ := List.mem_map.mp hc
  exact ⟨input, hinput, rfl, hd⟩

/-- What comes into a container has been declared there by its target. -/
theorem Reached.exists_declares (hdistinct : (libraries.map TargetLibrary.target).Nodup)
    (h : Reached limit libraries levels name inputs) (hinput : input ∈ inputs)
    (hd : d ∈ input.declarations) :
    ∃ library ∈ libraries, library.target = input.target ∧
      library.Declares (name.child d.name) d := by
  induction h generalizing input d with
  | package hinputs =>
    rw [packageInputs_eq hdistinct] at hinputs
    obtain ⟨_, -, heq⟩ := List.mem_map.mp hinputs
    obtain ⟨rfl, rfl⟩ := Prod.mk.inj heq
    obtain ⟨library, hlibrary, hsome⟩ := List.mem_filterMap.mp hinput
    exact ⟨library, hlibrary, TargetLibrary.declares_of_input? hsome hd⟩
  | members outer hgroups hgroup hclasses ih =>
    -- The members are those of a class that the target has put into the container around.
    obtain ⟨c, hc, rfl⟩ := List.mem_map.mp hinput
    obtain ⟨around, haround, htarget, hdeclared⟩ := exists_input_of_mem_group hgroups hgroup hc
    obtain ⟨library, hlibrary, heq, houter⟩ := ih haround hdeclared
    rw [name_eq_of_mem_group hgroups hgroup hc List.mem_cons_self] at houter
    exact ⟨library, hlibrary, heq.trans htarget, houter.member hd⟩

/-- The contributions to the group of an entry have been declared under its name, by targets that
come once each and in the order of the libraries. -/
theorem Library.StandsFor.declares {maker : Maker}
    (h : mergeLibraries maker options libraries = .ok result)
    (hentry : result.library.StandsFor options.maxNestingDepth libraries levels group entry) :
    ((group.map Contribution.target).Nodup ∧
      (group.map Contribution.target).Sublist (libraries.map TargetLibrary.target)) ∧
    ∀ c ∈ group, ∃ library ∈ libraries, library.target = c.target ∧
      library.Declares entry.name c.declaration := by
  obtain ⟨container, inputs, entries, groups, hholds, hgroups, hmem⟩ := hentry
  have hdistinct := nodup_targets_of_mergeLibraries h
  have hreached := hholds.reached h
  have hgroup := (List.of_mem_zip hmem).1
  obtain ⟨hnodup, hsublist⟩ := targets_group_sublist hgroups hgroup
  refine ⟨⟨hnodup, hsublist.trans (hreached.targets_sublist hdistinct)⟩, fun c hc => ?_⟩
  obtain ⟨input, hinput, htarget, hdeclared⟩ := exists_input_of_mem_group hgroups hgroup hc
  obtain ⟨library, hlibrary, heq, hdeclares⟩ :=
    hreached.exists_declares hdistinct hinput hdeclared
  -- The entry is named after the first contribution, and all have one name.
  rw [hholds.entries_eq h] at hmem
  obtain ⟨-, first, rest, compared, -, rfl, hmade⟩ := exists_madeFrom_of_mem_zip hgroups hmem
  rw [hmade.name_eq, ← name_eq_of_mem_group hgroups hgroup hc List.mem_cons_self]
  exact ⟨library, hlibrary, heq.trans htarget, hdeclares⟩

/-! ### Flags of the two sides -/

theorem Flags.contains_union (a b : Flags) : (a.union b).contains b = true := by
  refine contains_iff.mpr (eq_of_bit fun i _ => ?_)
  rw [bit_inter, bit_union]
  cases a.bit i <;> cases b.bit i <;> rfl

/-- Adding some flags and taking others away does not matter once both are taken away. -/
theorem Flags.diff_diff_union_diff (flags a b : Flags) :
    (((flags.diff a).union b).diff a).diff b = (flags.diff a).diff b := by
  refine eq_of_bit fun i hi => ?_
  simp only [bit_diff _ _ hi, bit_union]
  cases flags.bit i <;> cases a.bit i <;> cases b.bit i <;> rfl

namespace Declaration

/-- The declaration without the flags of either side. -/
def sideless (d : Declaration) : Declaration := (d.withoutFlags .isExpect).withoutFlags .isActual

/-- An implementation that is the declaration `d` itself, members included, but for the flags of the
two sides: it is an implementation and not expected. -/
structure ImplementedBy (d actual : Declaration) : Prop where
  isActual : actual.isActual = true
  not_isExpect : actual.isExpect = false
  sideless_eq : actual.sideless = d.sideless
  members_eq : actual.members = d.members

/-- The second declaration is declared in the first one. -/
def HasMember (outer d : Declaration) : Prop := d ∈ outer.members

end Declaration

namespace Maker

theorem isExpect_expectSide (d : Declaration) : (expectSide d).isExpect = true := by
  rw [Declaration.isExpect, expectSide, Declaration.flags_withFlags, Flags.contains_union]

theorem isExpect_emptyClassOf (d : Declaration) : (emptyClassOf d).isExpect = true := by
  have hflags : (emptyClassOf d).flags = Flags.isExpect.union (d.flags.inter .isExternal) := rfl
  have hcomm : ∀ a b : Flags, a.union b = b.union a := fun a b => by
    rw [Flags.union, Flags.union, UInt16.or_comm]
  rw [Declaration.isExpect, hflags, hcomm, Flags.contains_union]

/-- The standard maker changes nothing of an implementation but the flags of the two sides. -/
theorem implementedBy_actualSide (d : Declaration) : d.ImplementedBy (actualSide d) where
  isActual := by
    rw [Declaration.isActual, actualSide, Declaration.flags_withFlags, Flags.contains_union]
  not_isExpect := isExpect_actualSide d
  sideless_eq := by
    have hsides : (actualSide d).sideless = d.withHeader
        { d.header with
          flags := ((((d.flags.diff .isExpect).union .isActual).diff .isExpect).diff .isActual) } := by
      cases d <;> rfl
    rw [hsides, Flags.diff_diff_union_diff]
    cases d <;> rfl
  members_eq := by
    simp only [actualSide, Declaration.withFlags, Declaration.withoutFlags,
      Declaration.members_withHeader]

end Maker

/-! ### What the standard maker makes -/

/-- Nothing that the standard maker makes of a group is both. -/
theorem Merged.isBoth_of_standard {verdict : Verdict} {declaration representative : Declaration}
    {merged : Merged}
    (h : mergedOf .standard name verdict group declaration representative = .ok merged) :
    merged.representative.isBoth = false := by
  rw [mergedOf_standard_eq] at h
  split at h
  · split at h
    · cases h
    · rename_i hboth
      cases h
      exact Bool.eq_false_iff.mpr hboth
  · cases h
    rw [Merged.representative]
    split
    · exact Maker.isBoth_emptyClassOf _
    · exact Maker.isBoth_expectSide _

/-- The expected declaration and the implementations of a diverging one. The group has what the
targets contribute, one declaration each and in the order of the libraries, and each target has an
implementation that it declares itself. -/
structure HasSides (libraries : List TargetLibrary) (name : QualifiedName)
    (group : List Contribution) (expect : Declaration) (actuals : List (Target × Declaration)) :
    Prop where
  isExpect : expect.isExpect = true
  not_isActual : expect.isActual = false
  nodup : (group.map Contribution.target).Nodup
  sublist : (group.map Contribution.target).Sublist (libraries.map TargetLibrary.target)
  declares : ∀ c ∈ group, ∃ library ∈ libraries, library.target = c.target ∧
    library.Declares name c.declaration
  implemented : List.Forall₂ (fun (c : Contribution) (actual : Target × Declaration) =>
    actual.1 = c.target ∧ c.declaration.ImplementedBy actual.2) group actuals

/-- The sides that the standard maker makes of a diverging declaration. -/
theorem sides_of_standard {verdict : Verdict} {declaration representative expect : Declaration}
    {actuals : List (Target × Declaration)}
    (h : mergedOf .standard name verdict group declaration representative =
      .ok (.expectActual expect actuals)) :
    (expect.isExpect = true ∧ expect.isActual = false) ∧
      List.Forall₂ (fun (c : Contribution) (actual : Target × Declaration) =>
        actual.1 = c.target ∧ c.declaration.ImplementedBy actual.2) group actuals := by
  rw [mergedOf_standard_eq] at h
  split at h
  · split at h <;> cases h
  · cases h
    constructor
    · split
      · exact ⟨Maker.isExpect_emptyClassOf _, Maker.isActual_emptyClassOf _⟩
      · exact ⟨Maker.isExpect_expectSide _, Maker.isActual_expectSide _⟩
    · refine List.forall₂_map_right_iff.mpr (List.forall₂_same.mpr fun c _ => ⟨rfl, ?_⟩)
      exact Maker.implementedBy_actualSide c.declaration

/-- What stands for an entry is not both. -/
theorem isBoth_representative (h : mergeLibraries .standard options libraries = .ok result)
    (hentry : entry ∈ result.library.walk) : entry.representative.isBoth = false := by
  obtain ⟨levels, group, hstands⟩ := exists_standsFor h hentry
  obtain ⟨container, first, rest, compared, -, hmade⟩ := hstands.exists_madeFrom h
  exact Merged.isBoth_of_standard hmade.merged_eq

/-- What is declared in what stands for an entry, at any depth, stands for an entry itself. -/
theorem exists_entry_of_hasMember (h : mergeLibraries .standard options libraries = .ok result)
    (hentry : entry ∈ result.library.walk)
    (hd : Relation.ReflTransGen Declaration.HasMember entry.representative d) :
    ∃ below ∈ result.library.walk, below.representative = d := by
  induction hd with
  | refl => exact ⟨entry, hentry, rfl⟩
  | tail _ hmember ih =>
    obtain ⟨outer, houter, rfl⟩ := ih
    obtain ⟨levels, group, hstands⟩ := exists_standsFor h houter
    obtain ⟨container, first, rest, compared, -, hmade⟩ := hstands.exists_madeFrom h
    rw [Declaration.HasMember, hmade.members_representative] at hmember
    obtain ⟨below, hbelow, rfl⟩ := List.mem_map.mp hmember
    exact ⟨below, Library.mem_walk_of_mem_members houter hbelow, rfl⟩

/-- In a run with the standard maker, whatever flags the targets give, nothing that stands for an
entry is expected and an implementation at once, and neither is anything declared in it at any
depth. An entry whose targets diverge has an expected declaration, and for each contributing target
the declaration of that target as its implementation. -/
theorem mergeLibraries_sides (options : Options)
    (h : mergeLibraries .standard options libraries = .ok result) :
    ∀ entry ∈ result.library.walk,
      (∀ d, Relation.ReflTransGen Declaration.HasMember entry.representative d →
        ¬ (d.isExpect = true ∧ d.isActual = true)) ∧
      ∀ expect actuals, entry.merged = .expectActual expect actuals →
        ∃ levels group,
          result.library.StandsFor options.maxNestingDepth libraries levels group entry ∧
          HasSides libraries entry.name group expect actuals := by
  intro entry hentry
  refine ⟨fun d hd => ?_, fun expect actuals hmerged => ?_⟩
  · obtain ⟨below, hbelow, rfl⟩ := exists_entry_of_hasMember h hentry hd
    have hboth := isBoth_representative h hbelow
    rw [← Bool.and_eq_true]
    exact Bool.eq_false_iff.mp hboth
  · obtain ⟨levels, group, hstands⟩ := exists_standsFor h hentry
    obtain ⟨⟨hnodup, hsublist⟩, hdeclares⟩ := hstands.declares h
    obtain ⟨container, first, rest, compared, rfl, hmade⟩ := hstands.exists_madeFrom h
    have hmade := hmade.merged_eq
    rw [hmerged] at hmade
    obtain ⟨⟨hexpect, hactual⟩, hsides⟩ := sides_of_standard hmade
    exact ⟨levels, _, hstands, hexpect, hactual, hnodup, hsublist, hdeclares, hsides⟩

/-- A class with a function, both with the same flags. -/
def runnerClass (flags : Flags) : Declaration :=
  .class { name := ⟨"Runner"⟩, flags } .class []
    [.function { name := ⟨"run"⟩, flags } none [] ⟨⟨"Unit"⟩, [], false⟩]

/-- The libraries of two targets, one of which has everything as expected and as an implementation
at once. -/
def runnerLibraries : List TargetLibrary :=
  [⟨⟨"js"⟩, [⟨⟨"p"⟩, [runnerClass (Flags.isExpect.union .isActual)]⟩]⟩,
    ⟨⟨"jvm"⟩, [⟨⟨"p"⟩, [runnerClass .empty]⟩]⟩]

/-- The targets diverge on the class and on its function, and both have their sides. -/
theorem mergeLibraries_sides_runnerLibraries :
    ∃ result, mergeLibraries .standard {} runnerLibraries = .ok result ∧
      result.library.walk.map Entry.name = [⟨"p.Runner"⟩, ⟨"p.Runner.run"⟩] ∧
      ∀ entry ∈ result.library.walk,
        (∀ d, Relation.ReflTransGen Declaration.HasMember entry.representative d →
          ¬ (d.isExpect = true ∧ d.isActual = true)) ∧
        ∃ expect actuals group, entry.merged = .expectActual expect actuals ∧
          HasSides runnerLibraries entry.name group expect actuals := by
  have hdistinct : (runnerLibraries.map TargetLibrary.target).Nodup := by decide
  obtain ⟨result, hresult, -⟩ := mergeLibraries_eq_ok .standard {} hdistinct
  have hwalk : (mergeLibraries .standard {} runnerLibraries).toOption.map
      (fun result => result.library.walk.map fun entry => (entry.name, entry.merged.isCommon)) =
        some [(⟨"p.Runner"⟩, false), (⟨"p.Runner.run"⟩, false)] := rfl
  rw [hresult] at hwalk
  have hwalk : result.library.walk.map (fun entry => (entry.name, entry.merged.isCommon)) =
      [(⟨"p.Runner"⟩, false), (⟨"p.Runner.run"⟩, false)] := Option.some.inj hwalk
  refine ⟨result, hresult, ?_, fun entry hentry => ?_⟩
  · have hnames := congrArg (List.map Prod.fst) hwalk
    rwa [List.map_map] at hnames
  · obtain ⟨hnever, hsides⟩ := mergeLibraries_sides {} hresult entry hentry
    have hmem : (entry.name, entry.merged.isCommon) ∈
        ([(⟨"p.Runner"⟩, false), (⟨"p.Runner.run"⟩, false)] : List (QualifiedName × Bool)) :=
      hwalk ▸ List.mem_map_of_mem hentry
    cases hmerged : entry.merged with
    | common declaration targets => simp [hmerged, Merged.isCommon] at hmem
    | expectActual expect actuals =>
      obtain ⟨-, group, -, hgroup⟩ := hsides expect actuals hmerged
      exact ⟨hnever, expect, actuals, group, rfl, hgroup⟩

end DeclMerge
