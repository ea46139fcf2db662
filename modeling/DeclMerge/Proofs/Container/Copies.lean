import DeclMerge.Proofs.Container.Errors
import DeclMerge.Proofs.Container.Verdicts

/-!
# Containers in which all targets declare the same

Where all targets declare the same, no target comes back to a key. So no two declarations share a
key either, and each has a group of its own, with the same declaration for every target. These agree,
and the entry is the declaration itself with all targets, at every depth.

## Main definitions

* `Entry.copyOf` — the entry that is a declaration itself, with its members

## Main results

* `parts_contributionsOf_map` — each declaration has its own group
* `containerEntries_copies` — the entries and the comparisons of such a container
-/

namespace DeclMerge

variable {mergeMembers : ContainerMerge} {container name : QualifiedName} {limit levels : Nat}
  {targets : List Target} {declarations : List Declaration} {d : Declaration}

/-! ### Declarations as entries -/

mutual
/-- The entry of a declaration that all targets share: the declaration itself, and below it the
entries of its members. -/
def Entry.copyOf (targets : TargetSet) (container : QualifiedName) : Declaration → Entry
  | .class header kind supertypes members =>
    ⟨container.child header.name, .of (.class header kind supertypes members),
      .common (.class header kind supertypes members) targets,
      Entry.copiesOf targets (container.child header.name) members⟩
  | d => ⟨container.child d.name, .of d, .common d targets, []⟩
/-- The entries of several declarations that all targets share. -/
def Entry.copiesOf (targets : TargetSet) (container : QualifiedName) : List Declaration → List Entry
  | [] => []
  | d :: ds => Entry.copyOf targets container d :: Entry.copiesOf targets container ds
end

theorem Entry.copiesOf_eq_map (targets : TargetSet) (container : QualifiedName)
    (declarations : List Declaration) :
    copiesOf targets container declarations = declarations.map (copyOf targets container) := by
  induction declarations with
  | nil => rfl
  | cons d ds ih => rw [copiesOf, ih, List.map_cons]

theorem Entry.copyOf_eq (targets : TargetSet) (container : QualifiedName) (d : Declaration) :
    copyOf targets container d = ⟨container.child d.name, .of d, .common d targets,
      d.members.map (copyOf targets (container.child d.name))⟩ := by
  cases d with
  | «class» => rw [copyOf, copiesOf_eq_map]; rfl
  | _ => rfl

@[simp] theorem Entry.representative_copyOf (targets : TargetSet) (container : QualifiedName)
    (d : Declaration) : (copyOf targets container d).representative = d := by
  rw [copyOf_eq]
  rfl

/-- A copy and everything below it stands for all targets. -/
theorem Entry.merged_of_mem_walk_copyOf {targets : TargetSet} {entry : Entry}
    (h : entry ∈ (copyOf targets container d).walk) :
    entry.merged = .common entry.representative targets := by
  induction d using Declaration.induction generalizing container with
  | step d ih =>
    rw [walk_eq, copyOf_eq] at h
    rcases List.mem_cons.mp h with rfl | hbelow
    · rfl
    · obtain ⟨top, htop, hentry⟩ := mem_walkList.mp hbelow
      obtain ⟨member, hmember, rfl⟩ := List.mem_map.mp htop
      exact ih member hmember hentry

/-- A class with its own members is itself, and other declarations have none. -/
theorem Declaration.withMembers_members (d : Declaration) : d.withMembers d.members = d := by
  cases d <;> rfl

theorem Declaration.members_of_not_isClass (d : Declaration) (h : ¬ d.isClass = true) :
    d.members = [] := by
  cases d with
  | «class» => exact absurd rfl h
  | _ => rfl

/-- The standard maker leaves a declaration as it is. -/
theorem Maker.eq_of_unlessBoth {made : Declaration} (h : unlessBoth name d = .ok made) :
    made = d := by
  rw [unlessBoth] at h
  split at h <;> cases h
  rfl

/-! ### Groups -/

/-- What the targets declare, if all of them declare the same. -/
def sameInputs (targets : List Target) (declarations : List Declaration) : List TargetInput :=
  targets.map fun target => ⟨target, declarations⟩

/-- One contribution of the same declaration for each target. -/
def sameGroup (targets : List Target) (d : Declaration) : List Contribution :=
  targets.map fun target => ⟨target, d⟩

theorem contributionsOf_sameInputs (targets : List Target) (declarations : List Declaration) :
    contributionsOf (sameInputs targets declarations) =
      targets.flatMap fun target => declarations.map fun d => ⟨target, d⟩ := by
  rw [contributionsOf, sameInputs, List.flatMap_map]
  rfl

theorem memberInputs_sameGroup (targets : List Target) (d : Declaration) :
    memberInputs (sameGroup targets d) = sameInputs targets d.members := by
  rw [memberInputs, sameGroup, List.map_map]
  rfl

theorem map_target_sameGroup (targets : List Target) (d : Declaration) :
    (sameGroup targets d).map Contribution.target = targets := by
  rw [sameGroup, List.map_map]
  exact List.map_id targets

/-- If no target comes back to a key, the declarations have different keys. -/
theorem nodup_keys_of_nodup_slots {inputs : List TargetInput} (hne : targets ≠ [])
    (h : ((contributionsOf (sameInputs targets declarations)).map (slot inputs)).Nodup) :
    (declarations.map (groupSignature inputs)).Nodup := by
  obtain ⟨target, rest, rfl⟩ := List.exists_cons_of_ne_nil hne
  rw [contributionsOf_sameInputs, List.flatMap_cons, List.map_append, List.map_map] at h
  refine List.Nodup.of_map (fun signature => (target, signature)) ?_
  rw [List.map_map]
  exact (List.nodup_append.mp h).1

/-- With keys of their own, the declarations have groups of their own. -/
theorem parts_contributionsOf_sameInputs {inputs : List TargetInput} (hne : targets ≠ [])
    (hnodup : (declarations.map (groupSignature inputs)).Nodup) :
    Grouping.parts (contributionKey inputs) (contributionsOf (sameInputs targets declarations)) =
      declarations.map (sameGroup targets) := by
  have hkeys : ((contributionsOf (sameInputs targets declarations)).map
      (contributionKey inputs)).eraseDups = declarations.map (groupSignature inputs) := by
    rw [contributionsOf_sameInputs, List.map_flatMap]
    simp only [List.map_map]
    exact (eraseDups_flatMap_const hne _).trans (eraseDups_of_nodup hnodup)
  rw [Grouping.parts_eq, hkeys, List.map_map]
  refine List.map_congr_left fun d hd => ?_
  -- Each target contributes to the group of a key the one declaration with that key.
  have hone : declarations.filter (fun other => groupSignature inputs other =
      groupSignature inputs d) = [d] := by
    have hdistinct := hnodup.of_map
    refine filter_eq_singleton hdistinct hd fun other hother => ?_
    rw [decide_eq_true_iff]
    exact ⟨fun hkey => List.inj_on_of_nodup_map hnodup hother hd hkey, fun heq => heq ▸ rfl⟩
  rw [Function.comp_apply, contributionsOf_sameInputs, List.filter_flatMap]
  have hgroup : ∀ target : Target,
      (declarations.map fun d => (⟨target, d⟩ : Contribution)).filter
        (fun c => contributionKey inputs c = groupSignature inputs d) = [⟨target, d⟩] := by
    intro target
    rw [List.filter_map]
    exact congrArg (List.map _) hone
  simp only [hgroup]
  rw [sameGroup]
  exact List.map_eq_flatMap.symm

/-! ### Entries -/

/-- The comparisons of targets that agree on everything: all are successes, and a single target is
compared with nothing. -/
structure Undisputed (targets : List Target) (comparisons : List Comparison) : Prop where
  verdict_eq : ∀ comparison ∈ comparisons, comparison.verdict = .success
  eq_nil : targets.length = 1 → comparisons = []

theorem undisputed_nil (targets : List Target) : Undisputed targets [] := ⟨nofun, fun _ => rfl⟩

theorem Undisputed.append {comparisons others : List Comparison}
    (h : Undisputed targets comparisons) (hothers : Undisputed targets others) :
    Undisputed targets (comparisons ++ others) := by
  constructor
  · intro comparison hmem
    exact (List.mem_append.mp hmem).elim (h.verdict_eq _) (hothers.verdict_eq _)
  · intro hone
    rw [h.eq_nil hone, hothers.eq_nil hone, List.append_nil]

theorem undisputed_flatMap {α : Type} {f : α → List Comparison} {as : List α}
    (h : ∀ a ∈ as, Undisputed targets (f a)) : Undisputed targets (as.flatMap f) := by
  constructor
  · intro comparison hmem
    obtain ⟨a, ha, hcomparison⟩ := List.mem_flatMap.mp hmem
    exact (h a ha).verdict_eq _ hcomparison
  · intro hone
    exact List.flatMap_eq_nil_iff.mpr fun a ha => (h a ha).eq_nil hone

theorem isSuccess_compareGroup_sameGroup (signature : Signature) :
    (compareGroup name signature (sameGroup targets d)).1.isSuccess = true := by
  rw [isSuccess_compareGroup, all_pairVerdicts_iff]
  intro c hc c' hc'
  obtain ⟨-, -, rfl⟩ := List.mem_map.mp hc
  obtain ⟨-, -, rfl⟩ := List.mem_map.mp hc'
  exact .refl d

/-- A declaration that all targets share agrees with itself. -/
theorem undisputed_compareGroup (signature : Signature) :
    Undisputed targets (compareGroup name signature (sameGroup targets d)).2 := by
  have hagree : (compareGroup name signature (sameGroup targets d)).1.isSuccess = true :=
    isSuccess_compareGroup_sameGroup signature
  have hsuccess := Verdict.isSuccess_iff.mp hagree
  unfold compareGroup at hsuccess ⊢
  split
  · rename_i hmany
    rw [if_pos hmany] at hsuccess
    refine ⟨fun comparison hmem => ?_, fun hone => ?_⟩
    · rw [List.mem_singleton.mp hmem]
      exact hsuccess
    · rw [sameGroup, List.length_map] at hmany
      omega
  · exact undisputed_nil targets

/-- What is made of a declaration that all targets share, if its members are merged to copies. -/
theorem CleanlyMade.eq_copyOf {entry : Entry} {compared : List Comparison}
    (h : CleanlyMade .standard mergeMembers container (sameGroup targets d) entry compared)
    (hmembers : ∀ found,
      (mergeMembers (container.child d.name) (sameInputs targets d.members)).Clean found →
        found.1 = d.members.map (Entry.copyOf (.ofList targets) (container.child d.name)) ∧
          Undisputed targets found.2) :
    entry = Entry.copyOf (.ofList targets) container d ∧ Undisputed targets compared := by
  obtain ⟨⟨first, rest, hgroup, hmade⟩, hclean⟩ := h
  have hfirst : first.declaration = d := by
    have hmem : first ∈ sameGroup targets d := hgroup ▸ List.mem_cons_self
    obtain ⟨target, -, rfl⟩ := List.mem_map.mp hmem
    rfl
  obtain ⟨hname, hsignature, hbelow, hmerged, rfl⟩ := hmade
  rw [← hgroup] at hbelow hmerged ⊢
  rw [hfirst] at hname hsignature hmerged
  -- A class has its members merged, and no other declaration has any.
  have hfound : (groupMembers mergeMembers entry.name (sameGroup targets d)).1.1 =
      d.members.map (Entry.copyOf (.ofList targets) (container.child d.name)) ∧
        Undisputed targets (groupMembers mergeMembers entry.name (sameGroup targets d)).1.2 := by
    by_cases hclass : d.isClass = true
    · have hclasses : ∀ c ∈ sameGroup targets d, c.declaration.isClass = true := by
        intro c hc
        obtain ⟨-, -, rfl⟩ := List.mem_map.mp hc
        exact hclass
      have hmerge := exists_clean_of_groupMembers hclasses hclean
      rw [memberInputs_sameGroup, hname] at hmerge
      rw [hname]
      exact hmembers _ hmerge
    · have hnone : groupMembers mergeMembers entry.name (sameGroup targets d) = (([], []), []) := by
        rw [groupMembers, hgroup, List.all_cons, hfirst, if_neg (by simp [hclass])]
      rw [hnone, d.members_of_not_isClass hclass]
      exact ⟨rfl, undisputed_nil targets⟩
  obtain ⟨hentries, hundisputed⟩ := hfound
  -- So the declaration with its merged members is the declaration itself.
  have hrepresentatives : entry.members.map Entry.representative = d.members := by
    rw [hbelow, hentries, List.map_map]
    exact (List.map_congr_left fun member _ => Entry.representative_copyOf ..).trans (List.map_id _)
  have hsame : entry.merged = .common d (.ofList targets) := by
    rw [hrepresentatives, d.withMembers_members, mergedOf,
      if_pos (isSuccess_compareGroup_sameGroup _), map_target_sameGroup] at hmerged
    obtain ⟨common, hcommon, hreturn⟩ := bind_eq_ok_iff.mp hmerged
    rw [← Except.ok.inj hreturn, Maker.eq_of_unlessBoth hcommon]
  refine ⟨?_, (undisputed_compareGroup _).append hundisputed⟩
  obtain ⟨entryName, signature, merged, members⟩ := entry
  simp only at hname hsignature hbelow hsame hentries
  rw [Entry.copyOf_eq, hsame, hbelow, hentries, hsignature, hname]

/-- A container without errors in which all targets declare the same has a copy of each declaration,
one for one and in order, and nothing in it is disputed. -/
theorem containerEntries_copies (hne : targets ≠ []) {found : List Entry × List Comparison}
    (h : (containerEntries .standard limit levels container
      (sameInputs targets declarations)).Clean found) :
    found.1 = declarations.map (Entry.copyOf (.ofList targets) container) ∧
      Undisputed targets found.2 := by
  induction levels generalizing container declarations found with
  | zero => exact absurd h.1 nofun
  | succ below ih =>
    obtain ⟨-, groups, -, hgroups, -⟩ := containerEntries_eq_ok_iff.mp h.1
    rw [containerEntries, hgroups] at h
    have hslots := (groupContributions_eq_ok_iff.mp hgroups).1
    have hparts := (groupContributions_eq_ok_iff.mp hgroups).2
    rw [parts_contributionsOf_sameInputs hne (nodup_keys_of_nodup_slots hne hslots)] at hparts
    obtain ⟨made, hmade, hall, rfl⟩ :=
      exists_cleanlyMade (ne_nil_of_groupContributions hgroups) h
    -- The entry of each group is the copy of its declaration.
    have hcopies : ∀ m ∈ made, ∀ d ∈ declarations, m.1 = sameGroup targets d →
        m.2.1 = Entry.copyOf (.ofList targets) container d ∧ Undisputed targets m.2.2 := by
      intro m hm d _ hgroup
      have hcleanly := hall m hm
      rw [hgroup] at hcleanly
      exact hcleanly.eq_copyOf fun _ => ih
    refine ⟨?_, undisputed_flatMap fun m hm => ?_⟩
    · exact map_eq_map_of_imp (hmade.trans hparts) fun m hm d hd hgroup =>
        (hcopies m hm d hd hgroup).1
    · have hmem : m.1 ∈ declarations.map (sameGroup targets) := by
        rw [← hparts, ← hmade]
        exact List.mem_map_of_mem hm
      obtain ⟨d, hd, hgroup⟩ := List.mem_map.mp hmem
      exact (hcopies m hm d hd hgroup.symm).2

end DeclMerge
