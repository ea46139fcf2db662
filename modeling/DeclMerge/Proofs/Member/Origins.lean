import DeclMerge.Proofs.Member.Chains
import DeclMerge.Proofs.Member.Joining

/-!
# What a member has from its roots

Whatever way a member has come down a hierarchy, its kind, signature and type are those of all its
roots, and its modality depends on nothing but the modalities of its roots. A visibility that is
known is the one that dominates those of all roots. An unknown visibility may have become unknown on
the way, where two of the roots did not compare and a third one was not there yet.

## Main definitions

* `Modality.LeavesOpen` — open and abstract members
* `Member.StemsFrom` — a member with what it has from its roots
* `Hierarchy.declaration?` — the declaration of the declared member with an identity

## Main results

* `Member.stemsFrom_of_mem_joinPart` — joining keeps what members have from their roots
* `Hierarchy.Coherent.stemsFrom` — every member of a hierarchy stems from its roots
-/

namespace DeclMerge

variable {owner : QualifiedName} {part : List Member} {first m : Member} {id : MemberId}
  {declared : MemberId → Option Declaration}

/-- A member with this modality leaves a member that is joined from it open to overriding. -/
def Modality.LeavesOpen (modality : Modality) : Prop := modality = .open ∨ modality = .abstract

theorem inheritedModality_eq_abstract_iff :
    inheritedModality part = .abstract ↔ ∀ m ∈ part, m.declaration.modality = .abstract := by
  rw [inheritedModality]
  split
  · rename_i hall
    simpa using hall
  · rename_i hall
    refine iff_of_false ?_ (by simpa using hall)
    split <;> decide

theorem leavesOpen_inheritedModality_iff (hne : part ≠ []) :
    (inheritedModality part).LeavesOpen ↔ ∃ m ∈ part, m.declaration.modality.LeavesOpen := by
  rw [inheritedModality]
  split
  · rename_i hall
    -- Members that are all abstract are there, so one of them is.
    obtain ⟨m, hm⟩ := List.exists_mem_of_ne_nil part hne
    rw [List.all_eq_true] at hall
    exact iff_of_true (.inr rfl) ⟨m, hm, .inr (by simpa using hall m hm)⟩
  · split
    · rename_i hany
      refine iff_of_true (.inl rfl) ?_
      simpa [Modality.LeavesOpen] using hany
    · rename_i hany
      refine iff_of_false (by simp [Modality.LeavesOpen]) ?_
      simpa [Modality.LeavesOpen] using hany

theorem inheritedModality_ne_sealed (part : List Member) : inheritedModality part ≠ .sealed := by
  rw [inheritedModality]
  split
  · decide
  · split <;> decide

/-- Two modalities of joined members are equal if they are abstract together and leave open
together. -/
theorem inheritedModality_congr {part part' : List Member}
    (habstract : inheritedModality part = .abstract ↔ inheritedModality part' = .abstract)
    (hopen : (inheritedModality part).LeavesOpen ↔ (inheritedModality part').LeavesOpen) :
    inheritedModality part = inheritedModality part' := by
  have hsealed := inheritedModality_ne_sealed part
  have hsealed' := inheritedModality_ne_sealed part'
  cases h : inheritedModality part <;> cases h' : inheritedModality part' <;>
    simp_all [Modality.LeavesOpen]

namespace Member

/-- What a member has from the declared members that it stands for; `declared` gives their
declarations. -/
structure StemsFrom (declared : MemberId → Option Declaration) (m : Member) : Prop where
  roots_ne_nil : m.roots ≠ []
  root : ∀ id ∈ m.roots, ∃ d, declared id = some d ∧ d.kind = m.kind ∧
    Signature.of d = m.signature ∧ d.type? = m.declaration.type?
  abstract_iff : m.declaration.modality = .abstract ↔
    ∀ id ∈ m.roots, ∀ d, declared id = some d → d.modality = .abstract
  leavesOpen_iff : m.declaration.modality.LeavesOpen ↔
    ∃ id ∈ m.roots, ∃ d, declared id = some d ∧ d.modality.LeavesOpen
  /-- A visibility that is known is that of a root, and it dominates those of all roots. -/
  visibility : m.declaration.visibility = .unknown ∨
    (∃ id ∈ m.roots, ∃ d, declared id = some d ∧ d.visibility = m.declaration.visibility) ∧
      ∀ id ∈ m.roots, ∀ d, declared id = some d →
        m.declaration.visibility.dominates d.visibility = true

/-- A declared member is its own root. -/
theorem stemsFrom_declared {place : Nat} {d : Declaration}
    (h : declared ⟨owner, place⟩ = some d) :
    (Member.declared owner place d).StemsFrom declared := by
  have hroots : (Member.declared owner place d).roots = [⟨owner, place⟩] := rfl
  refine ⟨?_, ?_, ?_, ?_, ?_⟩ <;> rw [hroots]
  · exact List.cons_ne_nil _ _
  · exact List.forall_mem_singleton.mpr ⟨d, h, rfl, rfl, rfl⟩
  · simp [h, Member.declaration]
  · simp [h, Member.declaration]
  · by_cases hunknown : d.visibility = .unknown
    · exact .inl hunknown
    · right
      simpa [h, Member.declaration] using Visibility.dominates_self hunknown

theorem mem_roots_joinedMember :
    id ∈ (joinedMember owner first part).roots ↔ ∃ source ∈ part, id ∈ source.roots :=
  mem_roots_inherited

@[simp] theorem type?_joinedMember (owner : QualifiedName) (first : Member) (part : List Member) :
    (joinedMember owner first part).declaration.type? = first.declaration.type? := by
  simp [joinedMember, declaration, Declaration.withVisibility, Declaration.withModality]

@[simp] theorem kind_joinedMember (owner : QualifiedName) (first : Member) (part : List Member) :
    (joinedMember owner first part).kind = first.kind := by
  simp [joinedMember, kind, declaration, Declaration.withVisibility, Declaration.withModality]

@[simp] theorem signature_joinedMember (owner : QualifiedName) (first : Member)
    (part : List Member) : (joinedMember owner first part).signature = first.signature :=
  signature_withModality_withVisibility ..

@[simp] theorem visibility_joinedMember (owner : QualifiedName) (first : Member)
    (part : List Member) :
    (joinedMember owner first part).declaration.visibility = sharedVisibility part :=
  visibility_withModality_withVisibility ..

@[simp] theorem modality_joinedMember (owner : QualifiedName) (first : Member)
    (part : List Member) :
    (joinedMember owner first part).declaration.modality = inheritedModality part := by
  simp [joinedMember, declaration, Declaration.modality, Declaration.withModality]

/-- A visibility that several members share is that of a root of theirs, and it dominates those of
all their roots. -/
theorem sharedVisibility_of_stemsFrom (hpart : ∀ source ∈ part, source.StemsFrom declared) :
    sharedVisibility part = .unknown ∨
      (∃ source ∈ part, ∃ id ∈ source.roots, ∃ d, declared id = some d ∧
        d.visibility = sharedVisibility part) ∧
      ∀ source ∈ part, ∀ id ∈ source.roots, ∀ d, declared id = some d →
        (sharedVisibility part).dominates d.visibility = true := by
  rw [sharedVisibility]
  cases hdominant : Visibility.dominant? (visibilities part) with
  | none => exact .inl rfl
  | some v =>
    obtain ⟨hv, hall⟩ := Visibility.dominant?_eq_some hdominant
    -- What is dominated is known, so it dominates the roots behind it in its turn.
    have hdominates : ∀ source ∈ part, v.dominates source.declaration.visibility = true :=
      fun source h => hall _ (List.mem_map_of_mem h)
    have hknown : ∀ source ∈ part, source.declaration.visibility ≠ .unknown :=
      fun source h => Visibility.ne_unknown_of_dominates (hdominates source h)
    rw [Option.getD_some]
    right
    constructor
    · obtain ⟨source, hsource, rfl⟩ := List.mem_map.mp hv
      have hroots := (hpart source hsource).visibility.resolve_left (hknown source hsource)
      exact ⟨source, hsource, hroots.1⟩
    · intro source hsource id hid d hd
      have hroots := (hpart source hsource).visibility.resolve_left (hknown source hsource)
      exact Visibility.dominates_trans (hdominates source hsource) (hroots.2 id hid d hd)

/-- A member that is joined from members stems from their roots. -/
theorem stemsFrom_joinedMember (hfirst : first ∈ part) (hcompatible : Compatible part)
    (hsignature : ∀ source ∈ part, source.signature = first.signature)
    (hpart : ∀ source ∈ part, source.StemsFrom declared) :
    (joinedMember owner first part).StemsFrom declared := by
  have hne : part ≠ [] := List.ne_nil_of_mem hfirst
  refine ⟨?_, ?_, ?_, ?_, ?_⟩
  · obtain ⟨id, hid⟩ := List.exists_mem_of_ne_nil _ (hpart first hfirst).roots_ne_nil
    exact List.ne_nil_of_mem (mem_roots_joinedMember.mpr ⟨first, hfirst, hid⟩)
  · intro id hid
    obtain ⟨source, hsource, hroot⟩ := mem_roots_joinedMember.mp hid
    obtain ⟨d, hd, hkind, hsig, htype⟩ := (hpart source hsource).root id hroot
    obtain ⟨hkinds, htypes⟩ := compatible_iff.mp (hcompatible source hsource first hfirst)
    refine ⟨d, hd, ?_, ?_, ?_⟩
    · rw [hkind, hkinds, kind_joinedMember]
    · rw [hsig, hsignature source hsource, signature_joinedMember]
    · rw [htype, htypes, type?_joinedMember]
  · rw [modality_joinedMember, inheritedModality_eq_abstract_iff]
    constructor
    · intro h id hid
      obtain ⟨source, hsource, hroot⟩ := mem_roots_joinedMember.mp hid
      exact (hpart source hsource).abstract_iff.mp (h source hsource) id hroot
    · intro h source hsource
      exact (hpart source hsource).abstract_iff.mpr fun id hid =>
        h id (mem_roots_joinedMember.mpr ⟨source, hsource, hid⟩)
  · rw [modality_joinedMember, leavesOpen_inheritedModality_iff hne]
    constructor
    · rintro ⟨source, hsource, h⟩
      obtain ⟨id, hid, hd⟩ := (hpart source hsource).leavesOpen_iff.mp h
      exact ⟨id, mem_roots_joinedMember.mpr ⟨source, hsource, hid⟩, hd⟩
    · rintro ⟨id, hid, hd⟩
      obtain ⟨source, hsource, hroot⟩ := mem_roots_joinedMember.mp hid
      exact ⟨source, hsource, (hpart source hsource).leavesOpen_iff.mpr ⟨id, hroot, hd⟩⟩
  · rw [visibility_joinedMember]
    refine (sharedVisibility_of_stemsFrom hpart).imp_right fun ⟨⟨source, hmem, hsource⟩, hall⟩ => ?_
    obtain ⟨id, hid, hd⟩ := hsource
    refine ⟨⟨id, mem_roots_joinedMember.mpr ⟨source, hmem, hid⟩, hd⟩, fun id hid => ?_⟩
    obtain ⟨source, hmem, hroot⟩ := mem_roots_joinedMember.mp hid
    exact hall source hmem id hroot

/-- What is joined from members with one signature stems from their roots. -/
theorem stemsFrom_of_mem_joinPart {name : Name} {signature : Signature} {members : List Member}
    (hm : m ∈ (joinPart owner name (partOf signature members)).members)
    (hstems : ∀ source ∈ partOf signature members, source.StemsFrom declared) :
    m.StemsFrom declared := by
  obtain ⟨first, rest, hpart, hcompatible, rfl⟩ := mem_members_joinPart.mp hm
  have hfirst : first ∈ partOf signature members := hpart ▸ List.mem_cons_self
  refine stemsFrom_joinedMember hfirst hcompatible (fun source hsource => ?_) hstems
  rw [(mem_partOf.mp hsource).2, (mem_partOf.mp hfirst).2]

end Member

namespace Hierarchy

variable {index : ClassIndex} {hierarchy : Hierarchy} {scope : ClassScope} {kind : Callable}
  {name : Name}

/-- The declaration of the declared member with an identity. -/
def declaration? (hierarchy : Hierarchy) (id : MemberId) : Option Declaration := do
  let scope ← hierarchy.get? id.owner
  scope.declaration.members[id.index]?

theorem declaration?_eq_some (hnodup : hierarchy.names.Nodup) (hscope : scope ∈ hierarchy.scopes)
    (place : Nat) :
    hierarchy.declaration? ⟨scope.name, place⟩ = scope.declaration.members[place]? := by
  rw [declaration?, get?_name hnodup hscope]
  rfl

/-- Every member of a hierarchy stems from its roots. -/
theorem Coherent.stemsFrom (h : hierarchy.Coherent index) (hscope : scope ∈ hierarchy.scopes)
    (hm : m ∈ (scope.lookup kind name).members) : m.StemsFrom hierarchy.declaration? := by
  refine h.induction (motive := fun scope => ∀ m ∈ (scope.lookup kind name).members,
    m.StemsFrom hierarchy.declaration?) (fun scope hscope ih m hm => ?_) scope hscope m hm
  rw [ClassScope.lookup_eq, Resolution.mem_members_of_iff] at hm
  rcases hm with hdeclared | ⟨signature, hjoined⟩
  · obtain ⟨place, d, hget, rfl, -⟩ := ClassScope.mem_declared_ofKind.mp hdeclared
    exact Member.stemsFrom_declared ((declaration?_eq_some h.nodup hscope place).trans hget)
  · refine Member.stemsFrom_of_mem_joinPart hjoined fun source hsource => ?_
    obtain ⟨supertype, hsupertype, hmem⟩ :=
      ClassScope.mem_membersOf.mp (of_mem_candidates (mem_partOf.mp hsource).1).1
    exact ih supertype hsupertype source hmem

end Hierarchy

end DeclMerge
