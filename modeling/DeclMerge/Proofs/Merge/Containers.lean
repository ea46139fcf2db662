import DeclMerge.Proofs.Merge.Packages

/-!
# The containers of a merge

A merge comes to the packages of all targets, and from a container that can be grouped to the
members of each group of classes in it. Facts about containers at any depth are inductions along
`Reached`, or along `Library.Holds` when they also speak of the entries that the merged library
has there.

## Main definitions

* `Reached` — the containers that a merge comes to
* `Library.Holds` — the containers of a merged library, each with its entries there
* `Outcome.entries` — the entries that come of merging a container

## Main results

* `Reached.targets_sublist` — no target comes twice into a container, and they stay in order
* `mem_packages_iff`, `package?_eq` — the packages of a merged library, and one by its name
* `Library.Holds.entries_eq` — the merged library has what comes of merging its containers
-/

namespace DeclMerge

variable {maker : Maker} {options : Options} {libraries : List TargetLibrary} {result : MergeResult}

/-- The containers that a merge comes to: the levels left for each, its name, and what the targets
put into it. -/
inductive Reached (limit : Nat) (libraries : List TargetLibrary) :
    Nat → QualifiedName → List TargetInput → Prop
  | package {name : QualifiedName} {inputs : List TargetInput}
      (hinputs : (name, inputs) ∈ packageInputs libraries) :
      Reached limit libraries (limit + 1) name inputs
  | members {levels : Nat} {container : QualifiedName} {inputs : List TargetInput}
      {groups : List (List Contribution)} {first : Contribution} {rest : List Contribution}
      (outer : Reached limit libraries (levels + 1) container inputs)
      (hgroups : groupContributions container inputs = .ok groups)
      (hgroup : first :: rest ∈ groups)
      (hclasses : ∀ c ∈ first :: rest, c.declaration.isClass = true) :
      Reached limit libraries levels (container.child first.declaration.name)
        (memberInputs (first :: rest))

/-- The containers of a merged library: the levels left for each, its name, what the targets put
into it, and the entries that the library has there. -/
inductive Library.Holds (library : Library) (limit : Nat) (libraries : List TargetLibrary) :
    Nat → QualifiedName → List TargetInput → List Entry → Prop
  | package {name : QualifiedName} {inputs : List TargetInput}
      (hinputs : (name, inputs) ∈ packageInputs libraries) :
      Holds library limit libraries (limit + 1) name inputs
        ((library.package? name).elim [] Package.entries)
  | members {levels : Nat} {container : QualifiedName} {inputs : List TargetInput}
      {entries : List Entry} {groups : List (List Contribution)} {group : List Contribution}
      {entry : Entry}
      (outer : Holds library limit libraries (levels + 1) container inputs entries)
      (hgroups : groupContributions container inputs = .ok groups)
      (hentry : (group, entry) ∈ groups.zip entries)
      (hclasses : ∀ c ∈ group, c.declaration.isClass = true) :
      Holds library limit libraries levels entry.name (memberInputs group) entry.members

/-- The entries that come of merging a container; an aborted one has none. -/
def Outcome.entries (outcome : Outcome (List Entry)) : List Entry :=
  match outcome.result with
  | .ok found => found.1
  | .error _ => []

theorem Outcome.Aborted.entries_eq {outcome : Outcome (List Entry)} (h : outcome.Aborted) :
    outcome.entries = [] := by
  obtain ⟨error, herror⟩ := h
  rw [Outcome.entries, herror]

/-! ### Targets -/

theorem targets_group_sublist {container : QualifiedName} {inputs : List TargetInput}
    {groups : List (List Contribution)} {group : List Contribution}
    (hgroups : groupContributions container inputs = .ok groups) (hgroup : group ∈ groups) :
    (group.map Contribution.target).Nodup ∧
      (group.map Contribution.target).Sublist (inputs.map TargetInput.target) := by
  obtain ⟨hslots, rfl⟩ := groupContributions_eq_ok_iff.mp hgroups
  have hnodup := nodup_targets hslots hgroup
  exact ⟨hnodup, targets_sublist hnodup ((Grouping.sublist_of_mem_parts _ hgroup).map _)⟩

theorem targets_memberInputs (group : List Contribution) :
    (memberInputs group).map TargetInput.target = group.map Contribution.target := by
  rw [memberInputs, List.map_map]
  rfl

/-- What goes into a container comes from targets in the order of the libraries. -/
theorem Reached.targets_sublist {limit levels : Nat} {name : QualifiedName}
    {inputs : List TargetInput} (hlibraries : (libraries.map TargetLibrary.target).Nodup)
    (h : Reached limit libraries levels name inputs) :
    (inputs.map TargetInput.target).Sublist (libraries.map TargetLibrary.target) := by
  induction h with
  | package hinputs => exact targets_packageInputs_sublist hlibraries hinputs
  | members outer hgroups hgroup hclasses ih =>
    rw [targets_memberInputs]
    exact (targets_group_sublist hgroups hgroup).2.trans ih

/-! ### The entries of a merged library -/

/-- A package is merged or aborted as its container is. -/
theorem packageOf_eq (maker : Maker) (options : Options) (name : QualifiedName)
    (inputs : List TargetInput) :
    (packageOf maker options name inputs).1 =
      match (containerEntries maker options.maxNestingDepth (options.maxNestingDepth + 1) name
        inputs).result with
      | .ok found => some ⟨name, found.1⟩
      | .error _ => none := by
  rw [packageOf]
  split <;> rename_i hresult <;> rw [hresult]

theorem name_of_packageOf {name : QualifiedName} {inputs : List TargetInput} {package : Package}
    (h : (packageOf maker options name inputs).1 = some package) : package.name = name := by
  rw [packageOf_eq] at h
  split at h
  · cases h; rfl
  · cases h

/-- The packages of the merged library are those that were not aborted. -/
theorem mem_packages_iff (h : mergeLibraries maker options libraries = .ok result)
    {package : Package} :
    package ∈ result.library.packages ↔
      ∃ inputs, (package.name, inputs) ∈ packageInputs libraries ∧
        (packageOf maker options package.name inputs).1 = some package := by
  obtain ⟨_, hresult, hpackages, -⟩ :=
    mergeLibraries_eq_ok maker options (nodup_targets_of_mergeLibraries h)
  obtain rfl := Except.ok.inj (h.symm.trans hresult)
  rw [hpackages, packagesOf, List.mem_filterMap]
  constructor
  · rintro ⟨_, hmem, hsome⟩
    obtain ⟨⟨name, inputs⟩, hinputs, rfl⟩ := List.mem_map.mp hmem
    obtain rfl : package.name = name := name_of_packageOf hsome
    exact ⟨inputs, hinputs, hsome⟩
  · rintro ⟨inputs, hinputs, hsome⟩
    exact ⟨_, List.mem_map_of_mem hinputs, hsome⟩

/-- The merged library has a package exactly if it was not aborted. -/
theorem package?_eq (h : mergeLibraries maker options libraries = .ok result)
    {name : QualifiedName} {inputs : List TargetInput}
    (hinputs : (name, inputs) ∈ packageInputs libraries) :
    result.library.package? name = (packageOf maker options name inputs).1 := by
  have hnodup := nodup_targets_of_mergeLibraries h
  obtain ⟨_, hresult, hpackages, -⟩ := mergeLibraries_eq_ok maker options hnodup
  obtain rfl := Except.ok.inj (h.symm.trans hresult)
  have hkeys := nodup_names_packageInputs hnodup
  rw [Library.package?, hpackages, packagesOf]
  dsimp only
  generalize packageInputs libraries = all at hinputs hkeys
  induction all with
  | nil => cases hinputs
  | cons input all ih =>
    obtain ⟨hfresh, hkeys⟩ := List.nodup_cons.mp hkeys
    rw [List.map_cons, List.filterMap_cons]
    rcases List.mem_cons.mp hinputs with rfl | hlater
    · -- No later package has this name.
      have hnone : ((all.map fun input => packageOf maker options input.1 input.2).filterMap
          Prod.fst).find? (fun package => package.name = name) = none := by
        rw [List.find?_eq_none]
        intro package hpackage hname
        obtain ⟨_, hmem, hsome⟩ := List.mem_filterMap.mp hpackage
        obtain ⟨input, hinput, rfl⟩ := List.mem_map.mp hmem
        refine hfresh (List.mem_map.mpr ⟨input, hinput, ?_⟩)
        rw [← name_of_packageOf hsome]
        exact of_decide_eq_true hname
      cases hpackage : (packageOf maker options name inputs).1 with
      | none => exact hnone
      | some package =>
        exact List.find?_cons_of_pos (by simpa using name_of_packageOf hpackage)
    · have hne : input.1 ≠ name := by
        rintro rfl
        exact hfresh (List.mem_map.mpr ⟨_, hlater, rfl⟩)
      split
      · exact ih hlater hkeys
      · rename_i package hpackage
        rw [List.find?_cons_of_neg (by simpa [name_of_packageOf hpackage] using hne)]
        exact ih hlater hkeys

/-- The entry of a group of classes has the entries that come of merging its members. -/
theorem MadeFrom.members_eq_entries {mergeMembers : ContainerMerge} {container : QualifiedName}
    {first : Contribution} {rest : List Contribution} {entry : Entry} {compared : List Comparison}
    (h : MadeFrom maker mergeMembers container first rest entry compared)
    (hclasses : ∀ c ∈ first :: rest, c.declaration.isClass = true) :
    entry.members = (mergeMembers entry.name (memberInputs (first :: rest))).entries := by
  rw [h.members_eq, groupMembers, if_pos (List.all_eq_true.mpr hclasses), ← memberInputs,
    Outcome.entries]
  cases hresult : (mergeMembers entry.name (memberInputs (first :: rest))).result with
  | ok found => simp only [hresult]
  | error error => simp only [hresult]

/-- An entry that comes of merging a container is made from its group. -/
theorem exists_madeFrom_of_mem_zip {limit levels : Nat} {container : QualifiedName}
    {inputs : List TargetInput} {groups : List (List Contribution)} {group : List Contribution}
    {entry : Entry} (hgroups : groupContributions container inputs = .ok groups)
    (hentry : (group, entry) ∈
      groups.zip (containerEntries maker limit (levels + 1) container inputs).entries) :
    ∃ found first rest compared,
      (groupEntries maker (containerEntries maker limit levels) container groups).result =
        .ok found ∧ group = first :: rest ∧
      MadeFrom maker (containerEntries maker limit levels) container first rest entry compared := by
  rw [Outcome.entries] at hentry
  cases hresult : (containerEntries maker limit (levels + 1) container inputs).result with
  | error error => simp [hresult] at hentry
  | ok found =>
    obtain ⟨below, groups', hlevels, hgroups', hfound⟩ := containerEntries_eq_ok_iff.mp hresult
    obtain rfl : levels = below := Nat.succ.inj hlevels
    obtain rfl := Except.ok.inj (hgroups.symm.trans hgroups')
    have hall := forall₂_madeFrom (ne_nil_of_groupContributions hgroups) hfound
    simp only [hresult] at hentry
    obtain ⟨first, rest, compared, heq, hmade⟩ := (List.forall₂_iff_zip.mp hall).2 hentry
    exact ⟨found, first, rest, compared, hfound, heq, hmade⟩

/-- At any depth, the merged library has what comes of merging the container. -/
theorem Library.Holds.entries_eq (h : mergeLibraries maker options libraries = .ok result)
    {levels : Nat} {name : QualifiedName} {inputs : List TargetInput} {entries : List Entry}
    (hholds : result.library.Holds options.maxNestingDepth libraries levels name inputs entries) :
    entries = (containerEntries maker options.maxNestingDepth levels name inputs).entries := by
  induction hholds with
  | package hinputs =>
    rw [package?_eq h hinputs, packageOf_eq, Outcome.entries]
    split <;> rfl
  | members outer hgroups hentry hclasses ih =>
    -- The entry is made from its group, so its members come of the members of the group.
    obtain ⟨-, first, rest, compared, -, rfl, hmade⟩ :=
      exists_madeFrom_of_mem_zip hgroups (ih ▸ hentry)
    exact hmade.members_eq_entries hclasses

/-- A merge comes to every container of the library that it makes. -/
theorem Library.Holds.reached (h : mergeLibraries maker options libraries = .ok result)
    {levels : Nat} {name : QualifiedName} {inputs : List TargetInput} {entries : List Entry}
    (hholds : result.library.Holds options.maxNestingDepth libraries levels name inputs entries) :
    Reached options.maxNestingDepth libraries levels name inputs := by
  induction hholds with
  | package hinputs => exact .package hinputs
  | members outer hgroups hentry hclasses ih =>
    have hgroup := (List.of_mem_zip hentry).1
    rw [outer.entries_eq h] at hentry
    obtain ⟨-, first, rest, compared, -, rfl, hmade⟩ := exists_madeFrom_of_mem_zip hgroups hentry
    rw [hmade.name_eq]
    exact ih.members hgroups hgroup hclasses

/-! ### Two small libraries -/

/-- A property of a class. -/
def sizeProperty : Declaration :=
  .property { name := ⟨"size"⟩ } none ⟨⟨"Int"⟩, [], false⟩

/-- A function whose parameters have these types. -/
def getFunction (types : List String) : Declaration :=
  .function { name := ⟨"get"⟩ } none
    (types.map fun type => { name := ⟨"at"⟩, type := ⟨⟨type⟩, [], false⟩ }) ⟨⟨"Int"⟩, [], false⟩

/-- A class without supertypes. -/
def plainClass (name : String) (members : List Declaration) : Declaration :=
  .class { name := ⟨name⟩ } .class [] members

/-- The members of a class for one target. Its nested class declares one property twice. -/
def jsBox : List Declaration :=
  [getFunction ["Int"], plainClass "Lid" [sizeProperty, sizeProperty]]

/-- The members of the same class for another target, which overloads a function. -/
def jvmBox : List Declaration :=
  [getFunction ["Int"], getFunction [], plainClass "Lid" [sizeProperty]]

/-- The libraries of two targets that declare this class. -/
def boxLibraries : List TargetLibrary :=
  [⟨⟨"js"⟩, [⟨⟨"p"⟩, [plainClass "Box" jsBox]⟩]⟩, ⟨⟨"jvm"⟩, [⟨⟨"p"⟩, [plainClass "Box" jvmBox]⟩]⟩]

/-- What the targets put into the class. -/
def boxInputs : List TargetInput := [⟨⟨"js"⟩, jsBox⟩, ⟨⟨"jvm"⟩, jvmBox⟩]

theorem reached_boxInputs : Reached 64 boxLibraries 64 ⟨"p.Box"⟩ boxInputs := by
  have hpackage : Reached 64 boxLibraries 65 ⟨"p"⟩
      [⟨⟨"js"⟩, [plainClass "Box" jsBox]⟩, ⟨⟨"jvm"⟩, [plainClass "Box" jvmBox]⟩] :=
    .package (List.mem_singleton.mpr rfl)
  have hclasses : ∀ c ∈ [(⟨⟨"js"⟩, plainClass "Box" jsBox⟩ : Contribution),
      ⟨⟨"jvm"⟩, plainClass "Box" jvmBox⟩], c.declaration.isClass = true := by decide
  exact hpackage.members rfl (List.mem_singleton.mpr rfl) hclasses

end DeclMerge
