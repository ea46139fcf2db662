import DeclMerge.Proofs.Container.Aborts
import DeclMerge.Proofs.Container.Copies

/-!
# What stands for the entries of a container

The standard maker copies a declaration or makes an empty class of an alias. It changes flags only,
so what stands for an entry has the signature of the first declaration in its group, and no other
members than those that stand for the entries below. Entries carry full signatures while groups may
be formed without parameter types, but two declarations with one signature are always in one group,
so no two entries of a container have the same signature.

## Main definitions

* `Entry.Consistent` — what stands for an entry fits its signature and the entries below it

## Main results

* `representative_of_mergedOf_standard` — what the standard maker puts in place of a group
* `nodup_signatures_of_made` — the entries of a container have different signatures
* `consistent_containerEntries` — everything in a container is consistent
-/

namespace DeclMerge

/-- What stands for an entry has the signature of the entry, and its members are what stands for
the entries below, which have different signatures. -/
structure Entry.Consistent (entry : Entry) : Prop where
  members_eq : entry.representative.members = entry.members.map Entry.representative
  signature_eq : Signature.of entry.representative = entry.signature
  distinct : (entry.members.map Entry.signature).Nodup

variable {maker : Maker} {mergeMembers : ContainerMerge} {container name : QualifiedName}
  {first : Contribution} {rest group : List Contribution} {groups : List (List Contribution)}
  {entry : Entry} {entries : List Entry} {compared : List Comparison} {inputs : List TargetInput}
  {limit levels : Nat} {d : Declaration}

/-! ### Copies and empty classes -/

theorem Declaration.members_withMembers (d : Declaration) (members : List Declaration) :
    (d.withMembers members).members = if d.isClass then members else [] := by
  cases d <;> rfl

theorem Signature.of_withMembers (d : Declaration) (members : List Declaration) :
    of (d.withMembers members) = of d := by
  cases d <;> rfl

namespace Maker

theorem signature_expectSide (d : Declaration) : Signature.of (expectSide d) = Signature.of d := by
  cases d <;> rfl

theorem members_expectSide (d : Declaration) : (expectSide d).members = d.members := by
  simp only [expectSide, Declaration.withFlags, Declaration.withoutFlags,
    Declaration.members_withHeader]

/-- Classes and aliases share their signatures. -/
theorem signature_emptyClassOf (h : d.kind = .typeAlias) :
    Signature.of (emptyClassOf d) = Signature.of d := by
  cases d with
  | typeAlias => rfl
  | _ => cases h

end Maker

/-! ### One entry -/

/-- The standard maker puts in place of a group the given declaration, its expected side, or an
empty class for an alias. -/
theorem representative_of_mergedOf_standard {verdict : Verdict}
    {declaration representative : Declaration} {merged : Merged}
    (h : mergedOf .standard name verdict group declaration representative = .ok merged) :
    merged.representative = representative ∨
      merged.representative = Maker.expectSide representative ∨
        (declaration.kind = .typeAlias ∧
          merged.representative = Maker.emptyClassOf declaration) := by
  rw [mergedOf_standard_eq] at h
  split at h
  · split at h
    · cases h
    · cases h
      exact .inl rfl
  · cases h
    rw [Merged.representative]
    split
    · rename_i hkind
      exact .inr (.inr ⟨hkind, rfl⟩)
    · exact .inr (.inl rfl)

namespace MadeFrom

/-- Entries have entries below them for groups of classes only. -/
theorem members_eq_nil (h : MadeFrom maker mergeMembers container first rest entry compared)
    (hother : ¬ ∀ c ∈ first :: rest, c.declaration.isClass = true) : entry.members = [] := by
  rw [h.members_eq, groupMembers, if_neg (mt List.all_eq_true.mp hother)]

theorem members_representative
    (h : MadeFrom .standard mergeMembers container first rest entry compared) :
    entry.representative.members = entry.members.map Entry.representative := by
  have hnone : ¬ first.declaration.isClass = true → entry.members = [] := fun hother =>
    h.members_eq_nil fun hclasses => hother (hclasses first List.mem_cons_self)
  have hwith : (first.declaration.withMembers (entry.members.map Entry.representative)).members =
      entry.members.map Entry.representative := by
    rw [Declaration.members_withMembers]
    split
    · rfl
    · rename_i hother
      rw [hnone hother, List.map_nil]
  rw [Entry.representative]
  rcases representative_of_mergedOf_standard h.merged_eq with heq | heq | ⟨halias, heq⟩
  · rw [heq, hwith]
  · rw [heq, Maker.members_expectSide, hwith]
  · rw [heq, hnone (by simp [Declaration.isClass, halias])]
    rfl

theorem signature_representative
    (h : MadeFrom .standard mergeMembers container first rest entry compared) :
    Signature.of entry.representative = entry.signature := by
  rw [Entry.representative, h.signature_eq]
  rcases representative_of_mergedOf_standard h.merged_eq with heq | heq | ⟨halias, heq⟩
  · rw [heq, Signature.of_withMembers]
  · rw [heq, Maker.signature_expectSide, Signature.of_withMembers]
  · rw [heq, Maker.signature_emptyClassOf halias]

end MadeFrom

/-! ### All entries of a container -/

/-- Declarations with one signature have one key. -/
theorem contributionKey_eq_of_signature_eq {c d : Contribution}
    (h : Signature.of c.declaration = Signature.of d.declaration) :
    contributionKey inputs c = contributionKey inputs d := by
  rw [contributionKey, contributionKey, groupSignature, groupSignature, h]

/-- Entries made from different groups have different signatures. -/
theorem nodup_signatures_of_made (hgroups : groupContributions container inputs = .ok groups)
    (hmade : List.Forall₂ (fun group entry => ∃ first rest compared, group = first :: rest ∧
      MadeFrom maker mergeMembers container first rest entry compared) groups entries) :
    (entries.map Entry.signature).Nodup := by
  -- An entry is labelled with the first declaration of its group, whatever the key of the group.
  let headSignature (group : List Contribution) : Option Signature :=
    group.head?.map fun c => Signature.of c.declaration
  have hheads : (entries.map Entry.signature).map some = groups.map headSignature := by
    rw [List.map_map, eq_comm, ← List.forall₂_eq_eq_eq, List.forall₂_map_left_iff,
      List.forall₂_map_right_iff]
    refine hmade.imp ?_
    rintro - entry ⟨first, rest, compared, rfl, hentry⟩
    exact congrArg some hentry.signature_eq.symm
  refine List.Nodup.of_map some ?_
  rw [hheads, List.Nodup, List.pairwise_map]
  obtain ⟨-, rfl⟩ := groupContributions_eq_ok_iff.mp hgroups
  -- First declarations of different groups have different keys, so they differ in signature too.
  refine (Grouping.pairwise_parts _ _).imp_of_mem fun hpart hother hkeys heq => ?_
  obtain ⟨a, as, rfl⟩ := List.exists_cons_of_ne_nil (Grouping.ne_nil_of_mem_parts _ hpart)
  obtain ⟨b, bs, rfl⟩ := List.exists_cons_of_ne_nil (Grouping.ne_nil_of_mem_parts _ hother)
  exact hkeys a List.mem_cons_self b List.mem_cons_self
    (contributionKey_eq_of_signature_eq (Option.some.inj heq))

/-- What holds of a merge of containers when everything in a container is consistent. -/
def KeepsConsistent (mergeMembers : ContainerMerge) : Prop :=
  ∀ container inputs found, (mergeMembers container inputs).result = .ok found →
    (found.1.map Entry.signature).Nodup ∧ ∀ entry ∈ Entry.walkList found.1, entry.Consistent

/-- An entry and everything below it is consistent, if the containers of members are. -/
theorem MadeFrom.consistent (hinner : KeepsConsistent mergeMembers)
    (h : MadeFrom .standard mergeMembers container first rest entry compared) :
    ∀ below ∈ entry.walk, below.Consistent := by
  have hmembers : (entry.members.map Entry.signature).Nodup ∧
      ∀ below ∈ Entry.walkList entry.members, below.Consistent := by
    rw [h.members_eq]
    rcases groupMembers_cases mergeMembers entry.name (first :: rest) with hnone | hfound
    · rw [hnone]
      exact ⟨List.nodup_nil, nofun⟩
    · exact hinner _ _ _ hfound
  rw [Entry.walk_eq]
  exact List.forall_mem_cons.mpr
    ⟨⟨h.members_representative, h.signature_representative, hmembers.1⟩, hmembers.2⟩

/-- The entries of a container have different signatures, and they and all entries below them are
consistent. -/
theorem consistent_containerEntries (limit levels : Nat) :
    KeepsConsistent (containerEntries .standard limit levels) := by
  -- A level of nesting is used up at each step down.
  induction levels with
  | zero => exact fun _ _ _ hfound => absurd hfound nofun
  | succ levels ih =>
    intro container inputs found hfound
    obtain ⟨below, groups, hlevels, hgroups, hentries⟩ := containerEntries_eq_ok_iff.mp hfound
    obtain rfl : levels = below := Nat.succ.inj hlevels
    have hne := ne_nil_of_groupContributions hgroups
    refine ⟨nodup_signatures_of_made hgroups (forall₂_madeFrom hne hentries), ?_⟩
    refine groupEntries_induction
      (motive := fun _ entries _ => ∀ entry ∈ Entry.walkList entries, entry.Consistent)
      nofun ?_ hne hentries
    intro first rest groups entry compared entries others hentry hlater
    exact List.forall_mem_append.mpr ⟨hentry.consistent ih, hlater⟩

end DeclMerge
