import DeclMerge.Proofs.Member.Joining

/-!
# Which clashes are recorded

The clashes of one name are listed in two rows. The first row goes along the members of supertypes:
one that passes down clashes with the declared member that hides it if their types differ, and else
if it is final. The second row goes along the signatures that are left, in order of first
appearance: the sources gathered for one of them clash if two of their types differ, and else if
none of their visibilities dominates all of them. A row has nothing but that, and it has it exactly
where it is warranted.

## Main definitions

* `Hides` — the declared member that counts for a member of a supertype
* `SharesVisibility` — the visibility of one of several members that dominates all of theirs
* `WarrantedOver`, `WarrantedAmong` — what the clashes of a hidden member, and of gathered sources,
  have to be
* `RecordsClashes` — the clashes of one name, row by row

## Main results

* `warrantedOver`, `warrantedAmong` — the clashes of one member, and of one signature
* `Resolution.recordsClashes` — all clashes of one name
-/

namespace DeclMerge

variable {owner : QualifiedName} {name : Name} {declared above sources : List Member}
  {m d : Member} {v : Visibility}

/-! ### Clashes with declared members -/

/-- `d` is the first of the declared members with the signature of `m`. -/
def Hides (declared : List Member) (d m : Member) : Prop :=
  ∃ before after, declared = before ++ d :: after ∧ d.signature = m.signature ∧
    ∀ other ∈ before, other.signature ≠ m.signature

theorem hiding?_eq_some_iff : hiding? declared m = some d ↔ Hides declared d m := by
  rw [hiding?, List.find?_eq_some_iff_append, Hides]
  simp only [decide_eq_true_iff, Bool.not_eq_true', decide_eq_false_iff_not]
  constructor
  · rintro ⟨hsignature, before, after, hdeclared, hbefore⟩
    exact ⟨before, after, hdeclared, hsignature, hbefore⟩
  · rintro ⟨before, after, hdeclared, hsignature, hbefore⟩
    exact ⟨hsignature, before, after, hdeclared, hbefore⟩

/-- What a member `m` of a supertype warrants if the declared member `d` hides it: a clash of their
types, or else one because `m` is final, or else nothing. -/
structure WarrantedOver (owner : QualifiedName) (name : Name) (m d : Member)
    (clashes : List Clash) : Prop where
  incompatible_iff : clashes = [⟨owner, name, .incompatibleOverride, [m, d]⟩] ↔
    m.kind ≠ d.kind ∨ m.declaration.type? ≠ d.declaration.type?
  final_iff : clashes = [⟨owner, name, .overridesFinal, [m, d]⟩] ↔
    (m.kind = d.kind ∧ m.declaration.type? = d.declaration.type?) ∧
      m.declaration.modality = .final
  nil_iff : clashes = [] ↔
    (m.kind = d.kind ∧ m.declaration.type? = d.declaration.type?) ∧
      m.declaration.modality ≠ .final

theorem hidingClashes_of_undeclared (h : ∀ d ∈ declared, d.signature ≠ m.signature) :
    hidingClashes owner name declared [m] = [] := by
  have hnone : hiding? declared m = none := Option.isNone_iff_eq_none.mp (hiding?_isNone_iff.mpr h)
  simp [hidingClashes, hnone]

/-- A hidden member gives rise to the clash that it warrants, and to no other. -/
theorem warrantedOver (h : Hides declared d m) :
    WarrantedOver owner name m d (hidingClashes owner name declared [m]) := by
  have hclashes : hidingClashes owner name declared [m] =
      ((hidingClash? m d).map fun kind => (⟨owner, name, kind, [m, d]⟩ : Clash)).toList := by
    rw [hidingClashes, List.filterMap_cons, hiding?_eq_some_iff.mpr h]
    cases hkind : hidingClash? m d <;> simp [hkind]
  rw [hclashes, hidingClash?]
  -- Types are compared first, so a final member with another type is not reported as final.
  by_cases hcompatible : m.compatible d = true
  · have hagree := Member.compatible_iff.mp hcompatible
    by_cases hfinal : m.declaration.modality = .final
    · constructor <;> simp [hcompatible, hagree, hfinal, Modality.permitsOverride]
    · constructor <;> simp [hcompatible, hagree, hfinal, Modality.permitsOverride]
  · have hdiffer : m.kind ≠ d.kind ∨ m.declaration.type? ≠ d.declaration.type? := by
      rwa [Member.compatible_iff, not_and_or] at hcompatible
    have hagree : ¬ (m.kind = d.kind ∧ m.declaration.type? = d.declaration.type?) :=
      not_and_or.mpr hdiffer
    constructor <;> simp [hcompatible, hagree, hdiffer]

/-! ### Clashes among sources -/

/-- Declarations with one signature and one type are of one kind: of those that share a group, a
class has no type, and an alias has one. -/
theorem kind_eq_of_signature_eq_of_type?_eq {a b : Declaration}
    (hsignature : Signature.of a = Signature.of b) (htype : a.type? = b.type?) :
    a.kind = b.kind := by
  have hgroup := congrArg Signature.group hsignature
  cases a <;> cases b <;> simp_all [Signature.of, Declaration.type?, Declaration.kind]

/-- Sources with one signature are compatible if they have one type. -/
theorem compatible_iff_forall_type?_eq {signature : Signature}
    (hsignature : ∀ m ∈ sources, m.signature = signature) : Compatible sources ↔
      ∀ a ∈ sources, ∀ b ∈ sources, a.declaration.type? = b.declaration.type? := by
  -- With one signature, the kinds follow from the types.
  refine forall₂_congr fun a ha => forall₂_congr fun b hb => ?_
  rw [Member.compatible_iff, and_iff_right_iff_imp]
  exact kind_eq_of_signature_eq_of_type?_eq ((hsignature a ha).trans (hsignature b hb).symm)

/-- `v` is the visibility of one of the sources, and it compares to those of all of them and is at
least as permissive. -/
def SharesVisibility (sources : List Member) (v : Visibility) : Prop :=
  (∃ m ∈ sources, m.declaration.visibility = v) ∧
    ∀ m ∈ sources, v.dominates m.declaration.visibility = true

theorem dominant?_visibilities_eq_some_iff :
    Visibility.dominant? (visibilities sources) = some v ↔ SharesVisibility sources v := by
  simp [Visibility.dominant?_eq_some_iff, visibilities, SharesVisibility]

/-- What sources with one signature warrant. If two of their types differ, they are left out with a
clash. Else they become one member, which has the visibility that they share, or else an unknown one
and a clash. -/
structure WarrantedAmong (owner : QualifiedName) (name : Name) (sources members : List Member)
    (clashes : List Clash) : Prop where
  incompatible_iff : clashes = [⟨owner, name, .incompatibleInherited, sources⟩] ↔
    ∃ a ∈ sources, ∃ b ∈ sources, a.declaration.type? ≠ b.declaration.type?
  dropped : (∃ a ∈ sources, ∃ b ∈ sources, a.declaration.type? ≠ b.declaration.type?) →
    members = []
  joined : (∀ a ∈ sources, ∀ b ∈ sources, a.declaration.type? = b.declaration.type?) →
    ∃ n, members = [n] ∧ n.isInherited = true ∧ n.owner = owner ∧ n.sources = sources ∧
      (∀ v, SharesVisibility sources v → n.declaration.visibility = v ∧ clashes = []) ∧
      ((∀ v, ¬ SharesVisibility sources v) → n.declaration.visibility = .unknown ∧
        clashes = [⟨owner, name, .ambiguousVisibility, sources⟩])

/-- Sources with one signature bring about what they warrant. -/
theorem warrantedAmong {signature : Signature} (hne : sources ≠ [])
    (hsignature : ∀ m ∈ sources, m.signature = signature) :
    WarrantedAmong owner name sources (joinPart owner name sources).members
      (joinPart owner name sources).clashes := by
  have htypes := compatible_iff_forall_type?_eq hsignature
  obtain ⟨first, rest, rfl⟩ := List.exists_cons_of_ne_nil hne
  rw [joinPart_cons]
  by_cases hcompatible : Compatible (first :: rest)
  · have hsame := htypes.mp hcompatible
    have hnever : ¬ ∃ a ∈ first :: rest, ∃ b ∈ first :: rest,
        a.declaration.type? ≠ b.declaration.type? := by
      rintro ⟨a, ha, b, hb, hdiffer⟩
      exact hdiffer (hsame a ha b hb)
    rw [if_pos (compatible_cons_iff.mp hcompatible)]
    refine ⟨iff_of_false ?_ hnever, fun hdiffer => absurd hdiffer hnever, fun _ => ?_⟩
    · split <;> simp
    · -- The first source is the pattern of the new member, but not of its visibility.
      refine ⟨_, rfl, rfl, rfl, rfl, fun v hv => ?_, fun hv => ?_⟩
      · have hshared := dominant?_visibilities_eq_some_iff.mpr hv
        simp [sharedVisibility, joinedMember, Member.declaration, hshared]
      · have hnone : Visibility.dominant? (visibilities (first :: rest)) = none :=
          Option.eq_none_iff_forall_ne_some.mpr fun v heq =>
            hv v (dominant?_visibilities_eq_some_iff.mp heq)
        simp [sharedVisibility, joinedMember, Member.declaration, hnone]
  · have hdiffer : ∃ a ∈ first :: rest, ∃ b ∈ first :: rest,
        a.declaration.type? ≠ b.declaration.type? := by
      by_contra hnever
      refine hcompatible (htypes.mpr fun a ha b hb => ?_)
      by_contra hdiffer
      exact hnever ⟨a, ha, b, hb, hdiffer⟩
    rw [if_neg fun hall => hcompatible (compatible_cons_iff.mpr hall)]
    refine ⟨iff_of_true rfl hdiffer, fun _ => rfl, fun hsame => ?_⟩
    exact absurd (htypes.mpr hsame) hcompatible

/-! ### All clashes of a name -/

/-- The clashes of one name, in two rows: `ofMember` gives those of a member of a supertype with the
declared member that hides it, `ofSignature` those among the sources gathered for a signature. -/
structure RecordsClashes (owner : QualifiedName) (name : Name) (declared above : List Member)
    (resolution : Resolution) (ofMember : Member → List Clash)
    (ofSignature : Signature → List Clash) : Prop where
  /-- Members of supertypes come in their order, and then signatures as they first appear. -/
  clashes_eq : resolution.clashes = (inheritable above).flatMap ofMember ++
    ((candidates declared above).map Member.signature).eraseDups.flatMap ofSignature
  hidden : ∀ m ∈ inheritable above, ∀ d, Hides declared d m →
    WarrantedOver owner name m d (ofMember m)
  undeclared : ∀ m ∈ inheritable above, (∀ d ∈ declared, d.signature ≠ m.signature) →
    ofMember m = []
  gathered : ∀ signature ∈ (candidates declared above).map Member.signature,
    (∀ d ∈ declared, d.signature ≠ signature) ∧
      WarrantedAmong owner name (partOf signature (candidates declared above))
        (partOf signature resolution.members) (ofSignature signature)

/-- Clashes are recorded exactly where they are warranted, and no others. -/
theorem Resolution.recordsClashes (owner : QualifiedName) (name : Name)
    (declared above : List Member) : ∃ ofMember ofSignature,
      RecordsClashes owner name declared above (.of owner name declared above) ofMember
        ofSignature := by
  refine ⟨fun m => hidingClashes owner name declared [m],
    fun signature => (joinPart owner name (partOf signature (candidates declared above))).clashes,
    ?_, fun m _ d hd => warrantedOver hd, fun m _ h => hidingClashes_of_undeclared h, ?_⟩
  · -- The first row is the list of clashes with declared members, taken member by member.
    rw [clashes_of, ← hidingClashes_flatMap, List.flatMap_singleton']
  · intro signature hsignature
    obtain ⟨m, hm, rfl⟩ := List.mem_map.mp hsignature
    have hundeclared := (of_mem_candidates hm).2.2
    rw [filter_members_of hundeclared]
    exact ⟨hundeclared, warrantedAmong (List.ne_nil_of_mem (mem_partOf.mpr ⟨hm, rfl⟩))
      fun n hn => (mem_partOf.mp hn).2⟩

end DeclMerge
