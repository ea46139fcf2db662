import DeclMerge.Proofs.Container.Errors
import DeclMerge.Proofs.Container.Groups
import DeclMerge.Proofs.Container.Verdicts

/-!
# Containers with their targets in another order

The name, the first declaration and the order of everything in a container are taken from its first
target. What belongs together, and whether it agrees, is not: when a container has no errors in
either order of the targets, its entries stand for the same groups and agree for the same ones,
and so do the entries of its classes.

## Main definitions

* `IsSplit` — the entries of a container, each with its group
* `Mirrors` — two entries with the same contributions, and so on for their members
* `MirroredContainers` — two containers whose entries mirror one another
* `Comparison.outline` — what two comparisons have in common then

## Main results

* `mirrored_containerEntries` — the order of the targets makes no other difference
-/

namespace DeclMerge

/-- The entries of a container, each with the contributions that it stands for. -/
structure IsSplit (container : QualifiedName) (inputs : List TargetInput) (entries : List Entry)
    (parts : List (List Contribution × Entry)) : Prop where
  groups_eq : groupContributions container inputs = .ok (parts.map Prod.fst)
  entries_eq : entries = parts.map Prod.snd
  /-- No contribution is lost, and none comes twice. -/
  covers : (parts.flatMap Prod.fst).Perm (contributionsOf inputs)
  heads : ∀ part ∈ parts, ∃ first rest, part.1 = first :: rest ∧
    part.2.name = container.child first.declaration.name ∧
      part.2.signature = Signature.of first.declaration
  targets_eq : ∀ part ∈ parts, part.2.merged.targets = .ofList (part.1.map Contribution.target)

/-- Two entries have the same name and stand for the same contributions, both are common or
neither is, and the same holds of the members of classes, up to their order. -/
inductive Mirrors : List Contribution × Entry → List Contribution × Entry → Prop
  | other {group group' : List Contribution} {entry entry' : Entry} (hgroup : group.Perm group')
      (hname : entry.name = entry'.name)
      (hcommon : entry.merged.isCommon = entry'.merged.isCommon)
      (hother : ¬ ∀ c ∈ group, c.declaration.isClass = true)
      (hmembers : entry.members = []) (hmembers' : entry'.members = []) :
      Mirrors (group, entry) (group', entry')
  | classes {group group' : List Contribution} {entry entry' : Entry} (hgroup : group.Perm group')
      (hname : entry.name = entry'.name)
      (hcommon : entry.merged.isCommon = entry'.merged.isCommon)
      (hclasses : ∀ c ∈ group, c.declaration.isClass = true)
      {parts parts' : List (List Contribution × Entry)}
      (hsplit : IsSplit entry.name (memberInputs group) entry.members parts)
      (hsplit' : IsSplit entry'.name (memberInputs group') entry'.members parts')
      (hmatched : Matched Mirrors parts parts') :
      Mirrors (group, entry) (group', entry')

/-- The entries of two containers mirror one another, up to their order. -/
def MirroredContainers (container : QualifiedName) (inputs inputs' : List TargetInput)
    (entries entries' : List Entry) : Prop :=
  ∃ parts parts', IsSplit container inputs entries parts ∧
    IsSplit container inputs' entries' parts' ∧ Matched Mirrors parts parts'

/-- What a comparison says about a name: whether all targets agree. -/
def Comparison.outline (comparison : Comparison) : QualifiedName × Bool :=
  (comparison.name, comparison.verdict.isSuccess)

variable {maker : Maker} {mergeMembers : ContainerMerge} {container name : QualifiedName}
  {inputs inputs' : List TargetInput} {group group' : List Contribution} {entry entry' : Entry}
  {compared compared' : List Comparison}

/-! ### Groups -/

theorem contributionKey_perm (h : inputs.Perm inputs') :
    contributionKey inputs = contributionKey inputs' := by
  funext c
  have hoverloaded : isOverloaded inputs = isOverloaded inputs' := by
    funext base
    exact h.any_eq
  rw [contributionKey, contributionKey, groupSignature, groupSignature, hoverloaded]

/-- In another order of the targets a container has the same groups, up to order. -/
theorem matched_groupContributions (h : inputs.Perm inputs')
    {groups groups' : List (List Contribution)}
    (hgroups : groupContributions container inputs = .ok groups)
    (hgroups' : groupContributions container inputs' = .ok groups') :
    Matched List.Perm groups groups' := by
  obtain ⟨-, rfl⟩ := groupContributions_eq_ok_iff.mp hgroups
  obtain ⟨-, rfl⟩ := groupContributions_eq_ok_iff.mp hgroups'
  rw [contributionKey_perm h]
  exact Grouping.matched_parts _ (h.flatMap_right _)

/-- The verdict on a group does not depend on the order of its contributions. -/
theorem isSuccess_compareGroup_perm (h : group.Perm group') (name : QualifiedName)
    (signature signature' : Signature) :
    (compareGroup name signature group).1.isSuccess =
      (compareGroup name signature' group').1.isSuccess := by
  rw [isSuccess_compareGroup, isSuccess_compareGroup, Bool.eq_iff_iff, all_pairVerdicts_iff,
    all_pairVerdicts_iff]
  simp only [h.mem_iff]

/-- A group has one comparison or none. -/
theorem map_outline_compareGroup (signature : Signature) (group : List Contribution) :
    (compareGroup name signature group).2.map Comparison.outline =
      if 1 < group.length then [(name, (compareGroup name signature group).1.isSuccess)]
      else [] := by
  unfold compareGroup
  split <;> rfl

/-! ### Entries -/

/-- What holds of a merge of containers when the order of the targets does not matter to it. -/
def IgnoresOrder (mergeMembers : ContainerMerge) : Prop :=
  ∀ container inputs inputs' found found', inputs.Perm inputs' →
    (mergeMembers container inputs).Clean found → (mergeMembers container inputs').Clean found' →
      MirroredContainers container inputs inputs' found.1 found'.1 ∧
        (found.2.map Comparison.outline).Perm (found'.2.map Comparison.outline)

/-- Entries made from the same contributions mirror one another if the members do. -/
theorem CleanlyMade.mirrors (hinner : IgnoresOrder mergeMembers) (hgroup : group.Perm group')
    (hnames : ∀ c ∈ group, ∀ d ∈ group, c.declaration.name = d.declaration.name)
    (h : CleanlyMade maker mergeMembers container group entry compared)
    (h' : CleanlyMade maker mergeMembers container group' entry' compared') :
    Mirrors (group, entry) (group', entry') ∧
      (compared.map Comparison.outline).Perm (compared'.map Comparison.outline) := by
  obtain ⟨⟨first, rest, rfl, hmade⟩, hclean⟩ := h
  obtain ⟨⟨first', rest', rfl, hmade'⟩, hclean'⟩ := h'
  -- The entries are named after the first declarations, which may differ, but not in their names.
  have hname : entry.name = entry'.name := by
    rw [hmade.name_eq, hmade'.name_eq, hnames first List.mem_cons_self first'
      (hgroup.mem_iff.mpr List.mem_cons_self)]
  have hsuccess := isSuccess_compareGroup_perm hgroup entry'.name entry.signature entry'.signature
  have hcommon : entry.merged.isCommon = entry'.merged.isCommon := by
    rw [hmade.isCommon_eq, hmade'.isCommon_eq, hname, hsuccess]
  have houtline : ((compareGroup entry.name entry.signature (first :: rest)).2.map
      Comparison.outline) = (compareGroup entry'.name entry'.signature (first' :: rest')).2.map
        Comparison.outline := by
    rw [map_outline_compareGroup, map_outline_compareGroup, hgroup.length_eq, hname, hsuccess]
  rw [hmade.compared_eq, hmade'.compared_eq, List.map_append, List.map_append, houtline]
  by_cases hclasses : ∀ c ∈ first :: rest, c.declaration.isClass = true
  · have hclasses' : ∀ c ∈ first' :: rest', c.declaration.isClass = true := fun c hc =>
      hclasses c (hgroup.mem_iff.mpr hc)
    obtain ⟨⟨parts, parts', hsplit, hsplit', hmatched⟩, houtlines⟩ :=
      hinner entry'.name _ _ _ _ (hgroup.map _)
        (exists_clean_of_groupMembers hclasses (hname ▸ hclean))
        (exists_clean_of_groupMembers hclasses' hclean')
    rw [← hname, ← hmade.members_eq] at hsplit
    rw [← hmade'.members_eq] at hsplit'
    exact ⟨.classes hgroup hname hcommon hclasses hsplit hsplit' hmatched,
      List.Perm.append_left _ (hname ▸ houtlines)⟩
  · -- There are no members, so nothing is compared but the group itself.
    have hother : ∀ name, groupMembers mergeMembers name (first :: rest) = (([], []), []) :=
      fun name => if_neg (mt List.all_eq_true.mp hclasses)
    have hother' : ∀ name, groupMembers mergeMembers name (first' :: rest') = (([], []), []) :=
      fun name => if_neg fun hall => hclasses fun c hc =>
        List.all_eq_true.mp hall c (hgroup.mem_iff.mp hc)
    refine ⟨.other hgroup hname hcommon hclasses ?_ ?_, ?_⟩
    · rw [hmade.members_eq, hother]
    · rw [hmade'.members_eq, hother']
    · rw [hother, hother']

/-! ### Containers -/

/-- Entries made from the groups of a container are a split of it. -/
theorem isSplit_of_made {made : List (List Contribution × Entry × List Comparison)}
    (hgroups : groupContributions container inputs = .ok (made.map Prod.fst))
    (hmade : ∀ m ∈ made, CleanlyMade maker mergeMembers container m.1 m.2.1 m.2.2) :
    IsSplit container inputs (made.map fun m => m.2.1) (made.map fun m => (m.1, m.2.1)) where
  groups_eq := by rw [List.map_map]; exact hgroups
  entries_eq := by rw [List.map_map]; rfl
  covers := by
    rw [List.flatMap_map]
    change (made.flatMap Prod.fst).Perm _
    rw [List.flatMap_def, (groupContributions_eq_ok_iff.mp hgroups).2]
    exact Grouping.flatten_parts_perm _ _
  heads := by
    intro part hpart
    obtain ⟨⟨group, entry, compared⟩, hmem, rfl⟩ := List.mem_map.mp hpart
    obtain ⟨⟨first, rest, hgroup, hentry⟩, -⟩ := hmade _ hmem
    exact ⟨first, rest, hgroup, hentry.name_eq, hentry.signature_eq⟩
  targets_eq := by
    intro part hpart
    obtain ⟨⟨group, entry, compared⟩, hmem, rfl⟩ := List.mem_map.mp hpart
    obtain ⟨⟨first, rest, hgroup, hentry⟩, -⟩ := hmade _ hmem
    obtain rfl : group = first :: rest := hgroup
    exact hentry.targets_eq

/-- In another order of the targets, the groups of a container have entries that mirror those
before. -/
theorem ignoresOrder_groupEntries (hinner : IgnoresOrder mergeMembers) (h : inputs.Perm inputs')
    {groups groups' : List (List Contribution)} {found found' : List Entry × List Comparison}
    (hgroups : groupContributions container inputs = .ok groups)
    (hgroups' : groupContributions container inputs' = .ok groups')
    (hfound : (groupEntries maker mergeMembers container groups).Clean found)
    (hfound' : (groupEntries maker mergeMembers container groups').Clean found') :
    MirroredContainers container inputs inputs' found.1 found'.1 ∧
      (found.2.map Comparison.outline).Perm (found'.2.map Comparison.outline) := by
  obtain ⟨made, rfl, hmade, rfl⟩ :=
    exists_cleanlyMade (ne_nil_of_groupContributions hgroups) hfound
  obtain ⟨made', rfl, hmade', rfl⟩ :=
    exists_cleanlyMade (ne_nil_of_groupContributions hgroups') hfound'
  -- What is made in the two orders corresponds as the groups do.
  have hsame := (matched_groupContributions h hgroups hgroups').of_map
  have hmirrors : ∀ m ∈ made, ∀ m' ∈ made', m.1.Perm m'.1 →
      Mirrors (m.1, m.2.1) (m'.1, m'.2.1) ∧
        (m.2.2.map Comparison.outline).Perm (m'.2.2.map Comparison.outline) := by
    intro m hm m' hm' hgroup
    have hnames : ∀ c ∈ m.1, ∀ d ∈ m.1, c.declaration.name = d.declaration.name :=
      fun c hc d hd => name_eq_of_mem_group hgroups (List.mem_map_of_mem hm) hc hd
    exact CleanlyMade.mirrors hinner hgroup hnames (hmade m hm) (hmade' m' hm')
  constructor
  · have hentries := hsame.imp fun m hm m' hm' hgroup => (hmirrors m hm m' hm' hgroup).1
    exact ⟨_, _, isSplit_of_made hgroups hmade, isSplit_of_made hgroups' hmade', hentries.map⟩
  · have hcompared := hsame.imp fun m hm m' hm' hgroup => (hmirrors m hm m' hm' hgroup).2
    rw [List.map_flatMap, List.map_flatMap]
    exact hcompared.flatMap_perm

/-- Containers without errors do not depend on the order of the targets, up to `Mirrors`. -/
theorem mirrored_containerEntries (maker : Maker) (limit levels : Nat) :
    IgnoresOrder (containerEntries maker limit levels) := by
  induction levels with
  | zero =>
    intro container inputs inputs' found found' h hfound
    cases hfound.1
  | succ levels ih =>
    intro container inputs inputs' found found' h hfound hfound'
    obtain ⟨_, groups, -, hgroups, -⟩ := containerEntries_eq_ok_iff.mp hfound.1
    obtain ⟨_, groups', -, hgroups', -⟩ := containerEntries_eq_ok_iff.mp hfound'.1
    rw [containerEntries, hgroups] at hfound
    rw [containerEntries, hgroups'] at hfound'
    exact ignoresOrder_groupEntries ih h hgroups hgroups' hfound hfound'

end DeclMerge
