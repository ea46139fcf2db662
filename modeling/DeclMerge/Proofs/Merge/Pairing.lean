import DeclMerge.Proofs.Merge.Containers

/-!
# How declarations are paired

In every container that is not aborted, at any depth, the groups partition what the targets put
into it, and two contributions share a group exactly by the pairing rule. Each group has become
one entry, with the targets of the group.

## Main definitions

* `IsPairing` — groups that partition the contributions by the pairing rule

## Main results

* `isPairing_of_groupContributions` — the groups of a container are its pairing
* `Reached.entries_pairing` — the entries of a container stand for the groups of its pairing
-/

namespace DeclMerge

/-- The groups are the pairing of what the targets put into a container. -/
structure IsPairing (inputs : List TargetInput) (groups : List (List Contribution)) : Prop where
  /-- No contribution is lost, and none is in two groups or twice in one. -/
  covers : groups.flatten.Perm (contributionsOf inputs)
  distinct : (contributionsOf inputs).Nodup
  paired : ∀ c ∈ contributionsOf inputs, ∀ d ∈ contributionsOf inputs,
    (∃ group ∈ groups, c ∈ group ∧ d ∈ group) ↔ Paired inputs c.declaration d.declaration
  /-- Groups stand in the order of their first contributions. -/
  heads : (groups.filterMap List.head?).Sublist (contributionsOf inputs)
  ordered : ∀ group ∈ groups, group.Sublist (contributionsOf inputs)
  /-- A group has one contribution of a target at most, and the targets are in order. -/
  targets : ∀ group ∈ groups, (group.map Contribution.target).Nodup ∧
    (group.map Contribution.target).Sublist (inputs.map TargetInput.target)

theorem isPairing_of_groupContributions {container : QualifiedName} {inputs : List TargetInput}
    {groups : List (List Contribution)} (h : groupContributions container inputs = .ok groups) :
    IsPairing inputs groups := by
  obtain ⟨hslots, hgroups⟩ := groupContributions_eq_ok_iff.mp h
  refine ⟨?_, hslots.of_map _, ?_, ?_, ?_, fun group => targets_group_sublist h⟩
  · exact hgroups ▸ Grouping.flatten_parts_perm _ _
  · intro c hc d hd
    rw [hgroups, Grouping.exists_part_iff _ hc hd]
    exact groupSignature_eq_iff
  · exact hgroups ▸ Grouping.heads_parts_sublist _ _
  · exact fun group hgroup => Grouping.sublist_of_mem_parts _ (hgroups ▸ hgroup)

/-- In every container that a merge comes to and does not abort, the entries stand, one by one, for
the groups of its pairing, whose targets are in the order of the libraries. -/
theorem Reached.entries_pairing {maker : Maker} {limit levels : Nat}
    {libraries : List TargetLibrary} {name : QualifiedName} {inputs : List TargetInput}
    {entries : List Entry} {compared : List Comparison}
    (hlibraries : (libraries.map TargetLibrary.target).Nodup)
    (hreached : Reached limit libraries levels name inputs)
    (hmerged :
      (containerEntries maker limit levels name inputs).result = .ok (entries, compared)) :
    ∃ groups, IsPairing inputs groups ∧
      (∀ group ∈ groups, (group.map Contribution.target).Sublist
        (libraries.map TargetLibrary.target)) ∧
      List.Forall₂ (fun group entry =>
        entry.merged.targets.items = group.map Contribution.target ∧
          ∃ first rest compared, group = first :: rest ∧
            MadeFrom maker (containerEntries maker limit (levels - 1)) name first rest entry
              compared) groups entries := by
  obtain ⟨below, groups, rfl, hgroups, hentries⟩ := containerEntries_eq_ok_iff.mp hmerged
  have hpairing := isPairing_of_groupContributions hgroups
  refine ⟨groups, hpairing, ?_, ?_⟩
  · exact fun group hgroup =>
      (hpairing.targets group hgroup).2.trans (hreached.targets_sublist hlibraries)
  · have hall := (List.forall₂_and_left _ _).mpr
      ⟨fun group hgroup => (hpairing.targets group hgroup).1,
        forall₂_madeFrom (ne_nil_of_groupContributions hgroups) hentries⟩
    refine hall.imp ?_
    rintro group entry ⟨hnodup, first, rest, compared, rfl, hentry⟩
    refine ⟨?_, first, rest, compared, rfl, hentry⟩
    rw [hentry.targets_eq, TargetSet.items_ofList_of_nodup hnodup]

/-- One target overloads a function, so both pair theirs by the whole signature. -/
theorem Reached.entries_pairing_boxInputs :
    (boxLibraries.map TargetLibrary.target).Nodup ∧ Reached 64 boxLibraries 64 ⟨"p.Box"⟩ boxInputs ∧
    ∃ entries compared,
      (containerEntries .standard 64 64 ⟨"p.Box"⟩ boxInputs).result = .ok (entries, compared) ∧
      entries.map Entry.name = [⟨"p.Box.get"⟩, ⟨"p.Box.Lid"⟩, ⟨"p.Box.get"⟩] ∧
      ∃ groups, IsPairing boxInputs groups ∧
        (∀ group ∈ groups, (group.map Contribution.target).Sublist
          (boxLibraries.map TargetLibrary.target)) ∧
        List.Forall₂ (fun group entry =>
          entry.merged.targets.items = group.map Contribution.target ∧
            ∃ first rest compared, group = first :: rest ∧
              MadeFrom .standard (containerEntries .standard 64 63) ⟨"p.Box"⟩ first rest entry
                compared) groups entries := by
  have hdistinct : (boxLibraries.map TargetLibrary.target).Nodup := by decide
  obtain ⟨entries, compared, hmerged, hnames⟩ : ∃ entries compared,
      (containerEntries .standard 64 64 ⟨"p.Box"⟩ boxInputs).result = .ok (entries, compared) ∧
        entries.map Entry.name = [⟨"p.Box.get"⟩, ⟨"p.Box.Lid"⟩, ⟨"p.Box.get"⟩] := ⟨_, _, rfl, rfl⟩
  have hpairing := Reached.entries_pairing hdistinct reached_boxInputs hmerged
  exact ⟨hdistinct, reached_boxInputs, entries, compared, hmerged, hnames, hpairing⟩

end DeclMerge
