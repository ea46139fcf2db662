import DeclMerge.Proofs.Container.Groups
import DeclMerge.Proofs.Steps

/-!
# The entries of a container

A container that is not aborted has one entry for each of its groups, in their order, and the
comparisons of the groups one after the other. What an entry is made of is said once, so that
facts about entries need not open the merge of a group again.

## Main definitions

* `MadeFrom` — an entry, with its comparisons, made from a group
* `memberInputs` — what goes into the members of a group of classes
* `Outcome.Aborted` — the outcome of a container that was aborted

## Main results

* `groupEntry_eq_ok_iff` — a group that is not aborted has the entry made from it
* `groupEntries_cons_of_ok`, `groupEntries_induction` — the entries of several groups, one by one
* `containerEntries_eq_ok_iff` — when a container has entries, and which
-/

namespace DeclMerge

variable {maker : Maker} {mergeMembers : ContainerMerge} {container name : QualifiedName}
  {first : Contribution} {rest group : List Contribution} {entry : Entry}
  {compared : List Comparison} {limit levels : Nat}

/-- What the targets put into the members of a group of classes. -/
def memberInputs (group : List Contribution) : List TargetInput :=
  group.map fun c => ⟨c.target, c.declaration.members⟩

/-- The container was aborted. -/
def Outcome.Aborted {α : Type} (outcome : Outcome α) : Prop :=
  ∃ error, outcome.result = .error error

/-! ### One group -/

/-- Implementations are made for the targets of the group, one after the other. -/
theorem map_fst_actuals {actuals : List (Target × Declaration)}
    (h : (group.mapM fun c => do return (c.target, ← maker.actual name c.declaration c.target)) =
      Except.ok actuals) :
    actuals.map Prod.fst = group.map Contribution.target := by
  have hall := mapM_eq_ok_iff.mp h
  clear h
  induction hall with
  | nil => rfl
  | cons hstep _ ih =>
    obtain ⟨actual, -, hpair⟩ := bind_eq_ok_iff.mp hstep
    cases hpair
    rw [List.map_cons, List.map_cons, ih]

/-- What stands for a group has its targets, and it is common exactly if the verdict on the group
is a success. -/
theorem targets_of_mergedOf {verdict : Verdict} {declaration representative : Declaration}
    {merged : Merged}
    (h : mergedOf maker name verdict group declaration representative = .ok merged) :
    merged.targets = .ofList (group.map Contribution.target) ∧
      merged.isCommon = verdict.isSuccess := by
  unfold mergedOf at h
  by_cases hverdict : verdict.isSuccess = true
  · rw [if_pos hverdict] at h
    obtain ⟨common, -, hreturn⟩ := bind_eq_ok_iff.mp h
    cases hreturn
    exact ⟨rfl, hverdict.symm⟩
  · rw [if_neg hverdict] at h
    have hexpect : ∃ expect actuals, merged = .expectActual expect actuals ∧
        actuals.map Prod.fst = group.map Contribution.target := by
      -- Both ways to make the expected side go on with the implementations.
      split at h
      all_goals
        obtain ⟨expect, -, h⟩ := bind_eq_ok_iff.mp h
        obtain ⟨actuals, hactuals, hreturn⟩ := bind_eq_ok_iff.mp h
        cases hreturn
        exact ⟨expect, actuals, rfl, map_fst_actuals hactuals⟩
    obtain ⟨expect, actuals, rfl, htargets⟩ := hexpect
    exact ⟨by rw [Merged.targets, htargets], by simpa [Merged.isCommon] using hverdict⟩

/-- The members of a group come from a container that was not aborted, or there are none. -/
theorem groupMembers_cases (mergeMembers : ContainerMerge) (name : QualifiedName)
    (group : List Contribution) :
    (groupMembers mergeMembers name group).1 = ([], []) ∨
      (mergeMembers name (memberInputs group)).result =
        .ok (groupMembers mergeMembers name group).1 := by
  unfold groupMembers
  split
  · rw [← memberInputs]
    cases hresult : (mergeMembers name (memberInputs group)).result with
    | ok found => exact .inr (by simp only [hresult])
    | error error => exact .inl (by simp only [hresult])
  · exact .inl rfl

/-- The entry is made from the group `first :: rest`, and `compared` are the comparisons of the
group and of what lies in it. -/
structure MadeFrom (maker : Maker) (mergeMembers : ContainerMerge) (container : QualifiedName)
    (first : Contribution) (rest : List Contribution) (entry : Entry)
    (compared : List Comparison) : Prop where
  name_eq : entry.name = container.child first.declaration.name
  signature_eq : entry.signature = Signature.of first.declaration
  members_eq : entry.members = (groupMembers mergeMembers entry.name (first :: rest)).1.1
  merged_eq :
    mergedOf maker entry.name (compareGroup entry.name entry.signature (first :: rest)).1
      (first :: rest) first.declaration
      (first.declaration.withMembers (entry.members.map Entry.representative)) = .ok entry.merged
  compared_eq :
    compared = (compareGroup entry.name entry.signature (first :: rest)).2 ++
      (groupMembers mergeMembers entry.name (first :: rest)).1.2

theorem groupEntry_eq_ok_iff :
    (groupEntry maker mergeMembers container first rest).result = .ok (entry, compared) ↔
      MadeFrom maker mergeMembers container first rest entry compared := by
  simp only [groupEntry, Signature.name_of]
  constructor
  · intro h
    split at h
    · cases h
    · rename_i merged hmerged
      cases h
      exact ⟨rfl, rfl, rfl, hmerged, rfl⟩
  · rintro ⟨hname, hsignature, hmembers, hmerged, rfl⟩
    obtain ⟨entryName, signature, merged, members⟩ := entry
    simp only at hname hsignature hmembers hmerged
    subst hname hsignature hmembers
    rw [hmerged]

namespace MadeFrom

theorem targets_eq (h : MadeFrom maker mergeMembers container first rest entry compared) :
    entry.merged.targets = .ofList ((first :: rest).map Contribution.target) :=
  (targets_of_mergedOf h.merged_eq).1

theorem isCommon_eq (h : MadeFrom maker mergeMembers container first rest entry compared) :
    entry.merged.isCommon =
      (compareGroup entry.name entry.signature (first :: rest)).1.isSuccess :=
  (targets_of_mergedOf h.merged_eq).2

end MadeFrom

/-! ### Several groups -/

/-- Groups that were not aborted give an entry for the first one, and go on with the others. -/
theorem groupEntries_cons_of_ok {groups : List (List Contribution)}
    {found : List Entry × List Comparison}
    (h : (groupEntries maker mergeMembers container ((first :: rest) :: groups)).result =
      .ok found) :
    ∃ entry here entries others,
      MadeFrom maker mergeMembers container first rest entry here ∧
      (groupEntries maker mergeMembers container groups).result = .ok (entries, others) ∧
      found = (entry :: entries, here ++ others) ∧
      (groupEntries maker mergeMembers container ((first :: rest) :: groups)).errors =
        (groupEntry maker mergeMembers container first rest).errors ++
          (groupEntries maker mergeMembers container groups).errors := by
  simp only [groupEntries] at h ⊢
  cases hentry : (groupEntry maker mergeMembers container first rest).result with
  | error error => simp [hentry] at h
  | ok head =>
    cases hothers : (groupEntries maker mergeMembers container groups).result with
    | error error => simp [hentry, hothers] at h
    | ok tail =>
      simp only [hentry, hothers, Except.ok.injEq] at h
      exact ⟨head.1, head.2, tail.1, tail.2, groupEntry_eq_ok_iff.mp hentry, rfl, h.symm, rfl⟩

/-- Induction along the entries of groups that were not aborted. -/
theorem groupEntries_induction
    {motive : List (List Contribution) → List Entry → List Comparison → Prop}
    (nil : motive [] [] [])
    (cons : ∀ first rest groups entry compared entries others,
      MadeFrom maker mergeMembers container first rest entry compared →
      motive groups entries others →
      motive ((first :: rest) :: groups) (entry :: entries) (compared ++ others))
    {groups : List (List Contribution)} (hne : ∀ group ∈ groups, group ≠ [])
    {entries : List Entry} {compared : List Comparison}
    (h : (groupEntries maker mergeMembers container groups).result = .ok (entries, compared)) :
    motive groups entries compared := by
  induction groups generalizing entries compared with
  | nil => cases h; exact nil
  | cons group groups ih =>
    cases group with
    | nil => exact absurd rfl (hne [] List.mem_cons_self)
    | cons first rest =>
      obtain ⟨entry, here, entries, others, hentry, hothers, heq, -⟩ := groupEntries_cons_of_ok h
      obtain ⟨rfl, rfl⟩ := Prod.mk.inj heq
      exact cons first rest groups entry here entries others hentry
        (ih (fun group hgroup => hne group (List.mem_cons_of_mem _ hgroup)) hothers)

/-- The entries of a container belong to its groups, one by one. -/
theorem forall₂_madeFrom {mergeMembers : ContainerMerge} {container : QualifiedName}
    {groups : List (List Contribution)} (hne : ∀ group ∈ groups, group ≠ [])
    {entries : List Entry} {compared : List Comparison}
    (h : (groupEntries maker mergeMembers container groups).result = .ok (entries, compared)) :
    List.Forall₂ (fun group entry => ∃ first rest compared, group = first :: rest ∧
      MadeFrom maker mergeMembers container first rest entry compared) groups entries := by
  refine groupEntries_induction
    (motive := fun groups entries _ => List.Forall₂ _ groups entries) .nil ?_ hne h
  intro first rest _ _ compared _ _ hentry ih
  exact .cons ⟨first, rest, compared, rfl, hentry⟩ ih

/-- A container has entries if it has a level left, its contributions can be grouped, and none of
its groups is aborted. -/
theorem containerEntries_eq_ok_iff {inputs : List TargetInput}
    {found : List Entry × List Comparison} :
    (containerEntries maker limit levels container inputs).result = .ok found ↔
      ∃ below groups, levels = below + 1 ∧ groupContributions container inputs = .ok groups ∧
        (groupEntries maker (containerEntries maker limit below) container groups).result =
          .ok found := by
  cases levels with
  | zero => simp [containerEntries]
  | succ below =>
    simp only [containerEntries]
    cases hgroups : groupContributions container inputs with
    | error error => simp
    | ok groups => simp

theorem ne_nil_of_groupContributions {inputs : List TargetInput}
    {groups : List (List Contribution)} (h : groupContributions container inputs = .ok groups) :
    ∀ group ∈ groups, group ≠ [] := by
  obtain ⟨-, rfl⟩ := groupContributions_eq_ok_iff.mp h
  exact fun group hgroup => Grouping.ne_nil_of_mem_parts _ hgroup

end DeclMerge
