import DeclMerge.Merge.Libraries
import DeclMerge.Proofs.Container.Entries

/-!
# What the targets put into packages

A package may come in fragments, and other packages may come between them. When no target comes
twice, joining consecutive fragments of a target joins all of them: a package gets one input for
each target that mentions it, in the order of the targets, with everything that the target
declares in it.

## Main definitions

* `TargetLibrary.input?` — what one target puts into a package
* `packageNames` — the packages of all targets in order of first appearance

## Main results

* `packageInputs_eq` — the inputs of all packages
* `mergeLibraries_eq_ok` — when a run succeeds, and what comes of it
-/

namespace DeclMerge

/-- What a target declares in a package over all its fragments, if it mentions the package. -/
def TargetLibrary.input? (library : TargetLibrary) (name : QualifiedName) : Option TargetInput :=
  match library.packages.filter fun package => package.name = name with
  | [] => none
  | packages => some ⟨library.target, packages.flatMap PackageFragment.declarations⟩

/-- The packages that some target mentions, in order of first appearance. -/
def packageNames (libraries : List TargetLibrary) : List QualifiedName :=
  ((fragments libraries).map fun fragment => fragment.package.name).eraseDups

/-! ### Targets that come once -/

theorem repeatedTarget?_eq_none_iff {seen targets : List Target} :
    repeatedTarget? seen targets = none ↔ targets.Nodup ∧ ∀ target ∈ targets, target ∉ seen := by
  induction targets generalizing seen with
  | nil => simp [repeatedTarget?]
  | cons target targets ih =>
    rw [repeatedTarget?, List.nodup_cons]
    split
    · rename_i hseen
      simp [hseen]
    · rename_i hfresh
      rw [ih]
      constructor
      · rintro ⟨hnodup, hlater⟩
        refine ⟨⟨fun hmem => hlater target hmem (by simp), hnodup⟩, ?_⟩
        rintro other (_ | hmem)
        · exact hfresh
        · exact fun hother => hlater other ‹_› (List.mem_append_left _ hother)
      · rintro ⟨⟨hmem, hnodup⟩, hall⟩
        refine ⟨hnodup, fun other hother => ?_⟩
        rw [List.mem_append, List.mem_singleton, not_or]
        exact ⟨hall other (List.mem_cons_of_mem _ hother), fun heq => hmem (heq ▸ hother)⟩

theorem repeatedTarget?_nil_eq_none_iff {targets : List Target} :
    repeatedTarget? [] targets = none ↔ targets.Nodup := by
  simp [repeatedTarget?_eq_none_iff]

/-! ### Joining fragments -/

theorem target_of_mem_joinFragments {fragments : List TargetFragment} {input : TargetInput}
    (h : input ∈ joinFragments fragments) :
    ∃ fragment ∈ fragments, fragment.target = input.target := by
  induction fragments generalizing input with
  | nil => simp [joinFragments] at h
  | cons fragment fragments ih =>
    have hhere : ∀ declarations, input = ⟨fragment.target, declarations⟩ →
        ∃ f ∈ fragment :: fragments, f.target = input.target :=
      fun _ heq => ⟨fragment, List.mem_cons_self, heq ▸ rfl⟩
    have hthere : input ∈ joinFragments fragments →
        ∃ f ∈ fragment :: fragments, f.target = input.target := fun hmem => by
      obtain ⟨f, hf, heq⟩ := ih hmem
      exact ⟨f, List.mem_cons_of_mem _ hf, heq⟩
    rw [joinFragments] at h
    split at h
    · exact hhere _ (List.mem_singleton.mp h)
    · rename_i next inputs hjoin
      rw [hjoin] at hthere
      split at h
      · rename_i hsame
        rcases List.mem_cons.mp h with heq | hmem
        · exact hhere _ (hsame ▸ heq)
        · exact hthere (List.mem_cons_of_mem _ hmem)
      · rcases List.mem_cons.mp h with heq | hmem
        · exact hhere _ heq
        · exact hthere hmem

/-- All fragments of one target are joined when no later fragment is of that target. -/
theorem joinFragments_append {target : Target} {here later : List TargetFragment}
    (hhere : ∀ fragment ∈ here, fragment.target = target) (hne : here ≠ [])
    (hlater : ∀ fragment ∈ later, fragment.target ≠ target) :
    joinFragments (here ++ later) =
      ⟨target, here.flatMap fun fragment => fragment.package.declarations⟩ ::
        joinFragments later := by
  induction here with
  | nil => exact absurd rfl hne
  | cons fragment here ih =>
    obtain rfl := hhere fragment List.mem_cons_self
    rw [List.cons_append, joinFragments]
    cases here with
    | nil =>
      -- What follows begins with another target, so it is not joined with this one.
      rw [List.nil_append]
      split
      · rename_i hjoin
        simp [hjoin]
      · rename_i next inputs hjoin
        obtain ⟨f, hf, heq⟩ := target_of_mem_joinFragments (hjoin ▸ List.mem_cons_self)
        rw [if_neg (heq ▸ hlater f hf), hjoin]
        simp
    | cons second here =>
      rw [ih (fun f hf => hhere f (List.mem_cons_of_mem _ hf)) (List.cons_ne_nil _ _)]
      simp

/-- The inputs of a package, when no target comes twice. -/
theorem joinFragments_eq {libraries : List TargetLibrary} (name : QualifiedName)
    (h : (libraries.map TargetLibrary.target).Nodup) :
    joinFragments ((fragments libraries).filter fun fragment => fragment.package.name = name) =
      libraries.filterMap fun library => library.input? name := by
  induction libraries with
  | nil => rfl
  | cons library libraries ih =>
    obtain ⟨hfresh, hnodup⟩ := List.nodup_cons.mp h
    have hlater : ∀ fragment ∈ (fragments libraries).filter
        (fun fragment => fragment.package.name = name), fragment.target ≠ library.target := by
      intro fragment hfragment heq
      obtain ⟨other, hother, hpackage⟩ :=
        List.mem_flatMap.mp (List.mem_of_mem_filter hfragment)
      obtain ⟨package, -, rfl⟩ := List.mem_map.mp hpackage
      exact hfresh (List.mem_map.mpr ⟨other, hother, heq⟩)
    have hsplit : (fragments (library :: libraries)).filter
        (fun fragment => fragment.package.name = name) =
          ((library.packages.filter fun package => package.name = name).map fun package =>
            (⟨library.target, package⟩ : TargetFragment)) ++
              (fragments libraries).filter fun fragment => fragment.package.name = name := by
      rw [fragments, List.flatMap_cons, List.filter_append, List.filter_map]
      rfl
    -- Either the first target does not mention the package, or its fragments come first.
    rw [hsplit, List.filterMap_cons, TargetLibrary.input?]
    split
    · rename_i hnone
      split at hnone
      · rename_i hempty
        rw [hempty, List.map_nil, List.nil_append, ih hnodup]
      · cases hnone
    · rename_i input hsome
      split at hsome
      · cases hsome
      · rename_i packages hne
        cases hsome
        have hhere : ∀ fragment ∈ (library.packages.filter fun package => package.name = name).map
            (fun package => (⟨library.target, package⟩ : TargetFragment)),
            fragment.target = library.target := by
          intro fragment hfragment
          obtain ⟨package, -, rfl⟩ := List.mem_map.mp hfragment
          rfl
        rw [joinFragments_append hhere (by simpa using hne) hlater, ih hnodup, List.flatMap_map]

/-- Each package gets, for each target that mentions it, all that the target declares in it. -/
theorem packageInputs_eq {libraries : List TargetLibrary}
    (h : (libraries.map TargetLibrary.target).Nodup) :
    packageInputs libraries =
      (packageNames libraries).map fun name =>
        (name, libraries.filterMap fun library => library.input? name) := by
  rw [packageInputs, Grouping.groups_ofList, List.map_map]
  refine List.map_congr_left fun name _ => ?_
  simp only [Function.comp_apply, joinFragments_eq name h]

theorem nodup_names_packageInputs {libraries : List TargetLibrary}
    (h : (libraries.map TargetLibrary.target).Nodup) :
    ((packageInputs libraries).map Prod.fst).Nodup := by
  rw [packageInputs_eq h, List.map_map]
  exact (List.map_id _).symm ▸ nodup_eraseDups _

/-- The inputs of a package are in the order of the targets. -/
theorem targets_packageInputs_sublist {libraries : List TargetLibrary} {name : QualifiedName}
    {inputs : List TargetInput} (h : (libraries.map TargetLibrary.target).Nodup)
    (hmem : (name, inputs) ∈ packageInputs libraries) :
    (inputs.map TargetInput.target).Sublist (libraries.map TargetLibrary.target) := by
  rw [packageInputs_eq h] at hmem
  obtain ⟨_, -, heq⟩ := List.mem_map.mp hmem
  obtain ⟨rfl, rfl⟩ := Prod.mk.inj heq
  clear hmem heq h
  induction libraries with
  | nil => exact List.Sublist.refl []
  | cons library libraries ih =>
    rw [List.filterMap_cons, List.map_cons]
    split
    · exact ih.cons _
    · rename_i input hinput
      have htarget : input.target = library.target := by
        unfold TargetLibrary.input? at hinput
        split at hinput
        · cases hinput
        · cases hinput; rfl
      rw [List.map_cons, htarget]
      exact ih.cons_cons _

/-! ### Runs -/

/-- A run succeeds exactly if no target comes twice. Its library and its comparisons are those of
the packages; resolving overrides adds none. -/
theorem mergeLibraries_eq_ok (maker : Maker) (options : Options)
    {libraries : List TargetLibrary} (h : (libraries.map TargetLibrary.target).Nodup) :
    ∃ result, mergeLibraries maker options libraries = .ok result ∧
      result.library.packages = (packagesOf maker options (packageInputs libraries)).1 ∧
      result.report.comparisons =
        (packagesOf maker options (packageInputs libraries)).2.comparisons := by
  simp only [mergeLibraries, repeatedTarget?_nil_eq_none_iff.mpr h]
  split
  · exact ⟨_, rfl, rfl, rfl⟩
  · exact ⟨_, rfl, rfl, rfl⟩

/-- The hierarchy of a run is that of the merged classes, if the options ask for it. -/
theorem hierarchy_of_mergeLibraries {maker : Maker} {options : Options}
    {libraries : List TargetLibrary} {result : MergeResult}
    (h : mergeLibraries maker options libraries = .ok result) :
    result.hierarchy = if options.resolveOverrides then
        (Hierarchy.ofClasses result.library.classes options.maxSupertypeDepth).1
      else .empty := by
  rw [mergeLibraries] at h
  split at h
  · cases h
  · cases hoverrides : options.resolveOverrides <;> simp only [hoverrides] at h <;> cases h <;> rfl

/-- The errors of the hierarchy come after those of the packages. -/
theorem errors_of_mergeLibraries {maker : Maker} {options : Options}
    {libraries : List TargetLibrary} {result : MergeResult}
    (h : mergeLibraries maker options libraries = .ok result) :
    result.report.errors = (packagesOf maker options (packageInputs libraries)).2.errors ++
      if options.resolveOverrides then
        (Hierarchy.ofClasses result.library.classes options.maxSupertypeDepth).2.map .hierarchy
      else [] := by
  rw [mergeLibraries] at h
  split at h
  · cases h
  · cases hoverrides : options.resolveOverrides <;> simp only [hoverrides] at h <;> cases h
    · exact (List.append_nil _).symm
    · rfl

theorem nodup_targets_of_mergeLibraries {maker : Maker} {options : Options}
    {libraries : List TargetLibrary} {result : MergeResult}
    (h : mergeLibraries maker options libraries = .ok result) :
    (libraries.map TargetLibrary.target).Nodup := by
  rw [← repeatedTarget?_nil_eq_none_iff]
  cases hrepeated : repeatedTarget? [] (libraries.map TargetLibrary.target) with
  | none => rfl
  | some target => simp [mergeLibraries, hrepeated] at h

end DeclMerge
