import DeclMerge.Proofs.Member.Listing
import DeclMerge.Proofs.Member.Origins

/-!
# Members of supertypes in another order

Members with the same roots have the same kind, signature and type, they are abstract or leave open
together, and two known visibilities of theirs are equal. So it does not matter which one of them is
kept, as long as all of them have a known visibility or none has. Where this is so, a class has the
same members and clashes whatever the order of its supertypes, and elsewhere visibilities alone may
differ.

## Main definitions

* `Member.Alike` — what members with the same roots have in common
* `Blurred` — two members with the same roots of which one has an unknown visibility
* `ClassScope.AgreesWith` — a scope whose members and clashes another scope has as well

## Main results

* `Member.StemsFrom.alike` — members with the same roots are alike
* `Reordered.exists_joined` — what is joined in one order is joined in the other
* `ClassScope.agreesWith_of_mem_supertypes_iff` — scopes of a class with supertypes in another order
-/

namespace DeclMerge

variable {declaration? : MemberId → Option Declaration} {declared above above' : List Member}
  {owner : QualifiedName} {name : Name} {signature : Signature} {m n : Member}

namespace Member

/-- What members with the same roots have in common. -/
structure Alike (m n : Member) : Prop where
  kind_eq : m.kind = n.kind
  signature_eq : m.signature = n.signature
  type?_eq : m.declaration.type? = n.declaration.type?
  abstract_iff : m.declaration.modality = .abstract ↔ n.declaration.modality = .abstract
  leavesOpen_iff : m.declaration.modality.LeavesOpen ↔ n.declaration.modality.LeavesOpen
  visibility_eq : m.declaration.visibility ≠ .unknown → n.declaration.visibility ≠ .unknown →
    m.declaration.visibility = n.declaration.visibility

/-- Members with the same roots are alike. -/
theorem StemsFrom.alike (hm : m.StemsFrom declaration?) (hn : n.StemsFrom declaration?)
    (hroots : ∀ id, id ∈ m.roots ↔ id ∈ n.roots) : m.Alike n := by
  obtain ⟨id, hid⟩ := List.exists_mem_of_ne_nil _ hm.roots_ne_nil
  obtain ⟨d, hd, hkind, hsignature, htype⟩ := hm.root id hid
  obtain ⟨d', hd', hkind', hsignature', htype'⟩ := hn.root id ((hroots id).mp hid)
  obtain rfl := Option.some.inj (hd.symm.trans hd')
  refine ⟨hkind.symm.trans hkind', hsignature.symm.trans hsignature', htype.symm.trans htype',
    ?_, ?_, fun hknown hknown' => ?_⟩
  · rw [hm.abstract_iff, hn.abstract_iff]
    simp only [hroots]
  · rw [hm.leavesOpen_iff, hn.leavesOpen_iff]
    simp only [hroots]
  · -- Each of the two visibilities is that of a root, and so the other one dominates it.
    obtain ⟨⟨id, hid, d, hd, hown⟩, hall⟩ := hm.visibility.resolve_left hknown
    obtain ⟨⟨id', hid', d', hd', hown'⟩, hall'⟩ := hn.visibility.resolve_left hknown'
    apply Visibility.eq_of_dominates
    · exact hown' ▸ hall id' ((hroots id').mpr hid') d' hd'
    · exact hown ▸ hall' id ((hroots id).mp hid) d hd

theorem Alike.visibility_eq_or (h : m.Alike n) :
    n.declaration.visibility = m.declaration.visibility ∨
      m.declaration.visibility = .unknown ∨ n.declaration.visibility = .unknown := by
  by_cases hm : m.declaration.visibility = .unknown
  · exact .inr (.inl hm)
  · by_cases hn : n.declaration.visibility = .unknown
    · exact .inr (.inr hn)
    · exact .inl (h.visibility_eq hm hn).symm

/-- A member that looks like another one, but for its visibility, which one of the two may have
unknown if `exempt` holds. -/
structure LooksLike (exempt : Prop) (m n : Member) : Prop where
  signature_eq : n.signature = m.signature
  type?_eq : n.declaration.type? = m.declaration.type?
  modality_eq : n.declaration.modality = m.declaration.modality
  visibility : n.declaration.visibility = m.declaration.visibility ∨
    exempt ∧ (m.declaration.visibility = .unknown ∨ n.declaration.visibility = .unknown)

theorem LooksLike.refl {exempt : Prop} (m : Member) : m.LooksLike exempt m :=
  ⟨rfl, rfl, rfl, .inl rfl⟩

theorem LooksLike.imp {exempt exempt' : Prop} (h : m.LooksLike exempt n)
    (himp : exempt → exempt') : m.LooksLike exempt' n :=
  ⟨h.signature_eq, h.type?_eq, h.modality_eq, h.visibility.imp_right (And.imp_left himp)⟩

end Member

/-- A clash has a member with a signature. -/
def Clash.Concerns (clash : Clash) (signature : Signature) : Prop :=
  ∃ m ∈ clash.members, m.signature = signature

/-- A clash of candidates is about the signature that they have. -/
theorem concerns_iff_of_mem_joinPart {signature' : Signature} {members : List Member}
    {clash : Clash} (h : clash ∈ (joinPart owner name (partOf signature members)).clashes) :
    clash.Concerns signature' ↔ signature = signature' := by
  obtain ⟨hne, hcases⟩ := mem_clashes_joinPart.mp h
  have hpart : clash.members = partOf signature members := by
    rcases hcases with ⟨rfl, -⟩ | ⟨rfl, -⟩ <;> rfl
  rw [Clash.Concerns, hpart]
  constructor
  · rintro ⟨m, hm, rfl⟩
    exact (mem_partOf.mp hm).2.symm
  · rintro rfl
    obtain ⟨m, hm⟩ := List.exists_mem_of_ne_nil _ hne
    exact ⟨m, hm, (mem_partOf.mp hm).2⟩

/-- The members of supertypes that pass down and that no declared member hides. -/
def offered (declared above : List Member) : List Member := notHidden declared (inheritable above)

theorem mem_offered : m ∈ offered declared above ↔ m ∈ above ∧
    m.declaration.visibility.passesDown = true ∧ ∀ d ∈ declared, d.signature ≠ m.signature := by
  rw [offered, notHidden, inheritable, List.mem_filter, List.mem_filter, hiding?_isNone_iff,
    and_assoc]

/-- Two members with the same roots and a signature are offered, of which one has an unknown
visibility and the other a known one. -/
def Blurred (declared above : List Member) (signature : Signature) : Prop :=
  ∃ m ∈ offered declared above, ∃ n ∈ offered declared above, m.signature = signature ∧
    m.sameRoots n = true ∧ m.declaration.visibility = .unknown ∧
      n.declaration.visibility ≠ .unknown

/-- The same members of supertypes in two orders. -/
structure Reordered (declaration? : MemberId → Option Declaration) (above above' : List Member) :
    Prop where
  mem_iff : ∀ m, m ∈ above ↔ m ∈ above'
  stemsFrom : ∀ m ∈ above, m.StemsFrom declaration?

namespace Reordered

theorem symm (h : Reordered declaration? above above') : Reordered declaration? above' above :=
  ⟨fun m => (h.mem_iff m).symm, fun m hm => h.stemsFrom m ((h.mem_iff m).mpr hm)⟩

theorem stemsFrom_of_mem_partOf (h : Reordered declaration? above above')
    (hm : m ∈ partOf signature (candidates declared above)) : m.StemsFrom declaration? :=
  h.stemsFrom m (of_mem_candidates (mem_partOf.mp hm).1).1

/-- For each candidate there is one with the same roots. -/
theorem exists_mem_partOf (h : Reordered declaration? above above')
    (hm : m ∈ partOf signature (candidates declared above)) :
    ∃ n ∈ partOf signature (candidates declared above'),
      m.Alike n ∧ ∀ id, id ∈ m.roots ↔ id ∈ n.roots := by
  obtain ⟨hcandidate, hsignature⟩ := mem_partOf.mp hm
  obtain ⟨hmem, hpasses, hundeclared⟩ := of_mem_candidates hcandidate
  obtain ⟨n, hn, hroots⟩ := exists_candidate ((h.mem_iff m).mp hmem) hpasses hundeclared
  have hroots' : ∀ id, id ∈ m.roots ↔ id ∈ n.roots := fun id => (hroots id).symm
  have halike := (h.stemsFrom m hmem).alike (h.symm.stemsFrom n (of_mem_candidates hn).1) hroots'
  exact ⟨n, mem_partOf.mpr ⟨hn, halike.signature_eq.symm.trans hsignature⟩, halike, hroots'⟩

theorem compatible (h : Reordered declaration? above above')
    (hcompatible : Compatible (partOf signature (candidates declared above))) :
    Compatible (partOf signature (candidates declared above')) := by
  intro a ha b hb
  obtain ⟨a', ha', halike, -⟩ := h.symm.exists_mem_partOf ha
  obtain ⟨b', hb', hblike, -⟩ := h.symm.exists_mem_partOf hb
  obtain ⟨hkind, htype⟩ := Member.compatible_iff.mp (hcompatible a' ha' b' hb')
  exact Member.compatible_iff.mpr
    ⟨halike.kind_eq.trans (hkind.trans hblike.kind_eq.symm),
      halike.type?_eq.trans (htype.trans hblike.type?_eq.symm)⟩

theorem partOf_ne_nil (h : Reordered declaration? above above')
    (hne : partOf signature (candidates declared above) ≠ []) :
    partOf signature (candidates declared above') ≠ [] := by
  obtain ⟨m, hm⟩ := List.exists_mem_of_ne_nil _ hne
  obtain ⟨n, hn, -⟩ := h.exists_mem_partOf hm
  exact List.ne_nil_of_mem hn

/-- Candidates with the same roots have one visibility, unless the signature is blurred. -/
theorem visibility_eq (h : Reordered declaration? above above')
    (hsharp : ¬ Blurred declared above signature)
    (hm : m ∈ partOf signature (candidates declared above))
    (hn : n ∈ partOf signature (candidates declared above'))
    (hroots : ∀ id, id ∈ m.roots ↔ id ∈ n.roots) :
    n.declaration.visibility = m.declaration.visibility := by
  obtain ⟨hmem, hsignature⟩ := mem_partOf.mp hm
  obtain ⟨hmem', hsignature'⟩ := mem_partOf.mp hn
  have hoffered : m ∈ offered declared above := mem_offered.mpr (of_mem_candidates hmem)
  have hoffered' : n ∈ offered declared above := by
    obtain ⟨habove, hrest⟩ := of_mem_candidates hmem'
    exact mem_offered.mpr ⟨(h.mem_iff n).mpr habove, hrest⟩
  by_cases hunknown : m.declaration.visibility = .unknown
  · -- An unknown visibility beside a known one is what blurs the signature.
    by_contra hne
    exact hsharp ⟨m, hoffered, n, hoffered', hsignature, Member.sameRoots_iff.mpr hroots, hunknown,
      fun hunknown' => hne (hunknown'.trans hunknown.symm)⟩
  · have halike := (h.stemsFrom_of_mem_partOf hm).alike (h.symm.stemsFrom_of_mem_partOf hn) hroots
    refine (halike.visibility_eq hunknown fun hunknown' => ?_).symm
    exact hsharp ⟨n, hoffered', m, hoffered, hsignature',
      Member.sameRoots_iff.mpr fun id => (hroots id).symm, hunknown', hunknown⟩

/-- The same visibilities are there to be compared, unless the signature is blurred. -/
theorem dominant?_eq (h : Reordered declaration? above above')
    (hsharp : ¬ Blurred declared above signature) :
    Visibility.dominant? (visibilities (partOf signature (candidates declared above'))) =
      Visibility.dominant? (visibilities (partOf signature (candidates declared above))) := by
  apply Visibility.dominant?_congr
  refine fun v => ⟨fun hv => ?_, fun hv => ?_⟩
  · obtain ⟨n, hn, rfl⟩ := List.mem_map.mp hv
    obtain ⟨m, hm, -, hroots⟩ := h.symm.exists_mem_partOf hn
    have heq := h.visibility_eq hsharp hm hn fun id => (hroots id).symm
    exact List.mem_map.mpr ⟨m, hm, heq.symm⟩
  · obtain ⟨m, hm, rfl⟩ := List.mem_map.mp hv
    obtain ⟨n, hn, -, hroots⟩ := h.exists_mem_partOf hm
    exact List.mem_map.mpr ⟨n, hn, h.visibility_eq hsharp hm hn hroots⟩

theorem stemsFrom_of_mem_joinPart (h : Reordered declaration? above above')
    (hm : m ∈ (joinPart owner name (partOf signature (candidates declared above))).members) :
    m.StemsFrom declaration? :=
  Member.stemsFrom_of_mem_joinPart hm fun _ hsource => h.stemsFrom_of_mem_partOf hsource

theorem mem_roots_iff (h : Reordered declaration? above above')
    (hm : m ∈ (joinPart owner name (partOf signature (candidates declared above))).members)
    (hn : n ∈ (joinPart owner name (partOf signature (candidates declared above'))).members)
    (id : MemberId) : id ∈ m.roots ↔ id ∈ n.roots := by
  obtain ⟨-, -, -, hroots, -⟩ := of_mem_members_joinPart hm
  obtain ⟨-, -, -, hroots', -⟩ := of_mem_members_joinPart hn
  rw [hroots, hroots']
  constructor
  · rintro ⟨source, hsource, hid⟩
    obtain ⟨source', hsource', -, hsame⟩ := h.exists_mem_partOf hsource
    exact ⟨source', hsource', (hsame id).mp hid⟩
  · rintro ⟨source, hsource, hid⟩
    obtain ⟨source', hsource', -, hsame⟩ := h.symm.exists_mem_partOf hsource
    exact ⟨source', hsource', (hsame id).mp hid⟩

/-- What is joined in one order looks like what is joined in the other. -/
theorem exists_joined (h : Reordered declaration? above above')
    (hm : m ∈ (joinPart owner name (partOf signature (candidates declared above))).members) :
    ∃ n ∈ (joinPart owner name (partOf signature (candidates declared above'))).members,
      m.LooksLike (Blurred declared above signature) n := by
  obtain ⟨first, rest, hpart, hcompatible, rfl⟩ := mem_members_joinPart.mp hm
  obtain ⟨first', rest', hpart'⟩ := List.exists_cons_of_ne_nil
    (h.partOf_ne_nil (hpart ▸ List.cons_ne_nil first rest))
  have hn : joinedMember owner first' (partOf signature (candidates declared above')) ∈
      (joinPart owner name (partOf signature (candidates declared above'))).members :=
    mem_members_joinPart.mpr ⟨first', rest', hpart', h.compatible hcompatible, rfl⟩
  -- The first candidates may differ, but what is joined has the same roots in both orders.
  have halike := (h.stemsFrom_of_mem_joinPart hm).alike (h.symm.stemsFrom_of_mem_joinPart hn)
    (h.mem_roots_iff hm hn)
  refine ⟨_, hn, halike.signature_eq.symm, halike.type?_eq.symm, ?_, ?_⟩
  · have habstract := halike.abstract_iff
    have hopen := halike.leavesOpen_iff
    simp only [Member.modality_joinedMember] at habstract hopen ⊢
    exact (inheritedModality_congr habstract hopen).symm
  · by_cases hblurred : Blurred declared above signature
    · exact halike.visibility_eq_or.imp_right fun hunknown => ⟨hblurred, hunknown⟩
    · left
      rw [Member.visibility_joinedMember, Member.visibility_joinedMember, sharedVisibility,
        sharedVisibility, h.dominant?_eq hblurred]

/-- Every member that is found in one order has its like in the other. -/
theorem exists_member (h : Reordered declaration? above above')
    (hm : m ∈ (Resolution.of owner name declared above).members) :
    ∃ n ∈ (Resolution.of owner name declared above').members,
      m.LooksLike (Blurred declared above m.signature) n := by
  rcases Resolution.mem_members_of_iff.mp hm with hdeclared | ⟨signature, hjoined⟩
  · exact ⟨m, Resolution.mem_members_of_iff.mpr (.inl hdeclared), .refl m⟩
  · obtain ⟨n, hn, hlike⟩ := h.exists_joined hjoined
    rw [signature_of_mem_joinPart hjoined]
    exact ⟨n, Resolution.mem_members_of_iff.mpr (.inr ⟨signature, hn⟩), hlike⟩

theorem mem_hidingClashes_iff (h : Reordered declaration? above above') {clash : Clash} :
    clash ∈ hidingClashes owner name declared (inheritable above) ↔
      clash ∈ hidingClashes owner name declared (inheritable above') := by
  simp only [hidingClashes, inheritable, List.mem_filterMap, List.mem_filter, h.mem_iff]

/-- Candidates that clash in one order clash in the other, unless the signature is blurred and the
clash is about visibility. -/
theorem exists_joinClash (h : Reordered declaration? above above') {clash : Clash}
    (hclash : clash ∈
      (joinPart owner name (partOf signature (candidates declared above))).clashes) :
    (∃ other ∈ (joinPart owner name (partOf signature (candidates declared above'))).clashes,
      other.kind = clash.kind) ∨
    clash.kind = .ambiguousVisibility ∧ Blurred declared above signature := by
  obtain ⟨hne, ⟨rfl, hincompatible⟩ | ⟨rfl, hcompatible, hnone⟩⟩ := mem_clashes_joinPart.mp hclash
  · refine .inl ⟨⟨owner, name, .incompatibleInherited, _⟩, mem_clashes_joinPart.mpr
      ⟨h.partOf_ne_nil hne, .inl ⟨rfl, fun hcompatible => ?_⟩⟩, rfl⟩
    exact hincompatible (h.symm.compatible hcompatible)
  · by_cases hblurred : Blurred declared above signature
    · exact .inr ⟨rfl, hblurred⟩
    · refine .inl ⟨⟨owner, name, .ambiguousVisibility, _⟩, mem_clashes_joinPart.mpr
        ⟨h.partOf_ne_nil hne, .inr ⟨rfl, h.compatible hcompatible, ?_⟩⟩, rfl⟩
      rw [h.dominant?_eq hblurred, hnone]

/-- Every clash that is found in one order has its like in the other, unless the signature is
blurred and the clash is about visibility. -/
theorem exists_clash (h : Reordered declaration? above above') {clash : Clash}
    (hclash : clash ∈ (Resolution.of owner name declared above).clashes)
    (hconcerns : clash.Concerns signature) :
    (∃ other ∈ (Resolution.of owner name declared above').clashes,
      other.kind = clash.kind ∧ other.Concerns signature) ∨
    clash.kind = .ambiguousVisibility ∧ Blurred declared above signature := by
  rcases Resolution.mem_clashes_of_iff.mp hclash with hhiding | ⟨signature', hjoining⟩
  · -- A clash with a declared member has one inherited member, so the order has no part in it.
    refine .inl ⟨clash, Resolution.mem_clashes_of_iff.mpr (.inl ?_), rfl, hconcerns⟩
    exact h.mem_hidingClashes_iff.mp hhiding
  · obtain rfl := (concerns_iff_of_mem_joinPart hjoining).mp hconcerns
    refine (h.exists_joinClash hjoining).imp_left fun ⟨other, hother, hkind⟩ => ?_
    exact ⟨other, Resolution.mem_clashes_of_iff.mpr (.inr ⟨_, hother⟩), hkind,
      (concerns_iff_of_mem_joinPart hother).mpr rfl⟩

end Reordered

namespace ClassScope

variable {scope scope' : ClassScope}

/-- Supertypes of a class offer two members with the same roots and a signature, of which one has an
unknown visibility and the other a known one. -/
def Blurs (scope : ClassScope) (signature : Signature) : Prop :=
  ∃ kind : Callable, Blurred (scope.declared.ofKind kind.kind signature.name)
    (membersOf kind signature.name scope.supertypes) signature

theorem blurs_of_blurred {kind : Callable}
    (h : Blurred (scope.declared.ofKind kind.kind name) (membersOf kind name scope.supertypes)
      signature) : scope.Blurs signature := by
  have hname : signature.name = name := by
    obtain ⟨m, hm, -, -, rfl, -⟩ := h
    obtain ⟨supertype, -, hmem⟩ := mem_membersOf.mp (mem_offered.mp hm).1
    exact (Signature.name_of _).trans (kind_eq_and_name_eq hmem).2
  subst hname
  exact ⟨kind, h⟩

/-- What `scope` has, `scope'` has as well: members that look alike, and clashes of the same kinds
with the same signatures. Only visibilities may be unknown on one side, with a clash or without, and
only under signatures that are exempt. -/
structure AgreesWith (scope scope' : ClassScope) (exempt : Signature → Prop) : Prop where
  members : ∀ kind name, ∀ m ∈ (scope.lookup kind name).members,
    ∃ n ∈ (scope'.lookup kind name).members, m.LooksLike (exempt m.signature) n
  clashes : ∀ clash ∈ scope.clashes, ∀ signature, clash.Concerns signature →
    (∃ other ∈ scope'.clashes, other.kind = clash.kind ∧ other.Concerns signature) ∨
    clash.kind = .ambiguousVisibility ∧ exempt signature

/-- Two scopes of a class with the same supertypes, in whatever order. -/
theorem agreesWith_of_mem_supertypes_iff (hname : scope'.name = scope.name)
    (hmembers : scope'.declaration.members = scope.declaration.members)
    (hsupertypes : ∀ supertype, supertype ∈ scope.supertypes ↔ supertype ∈ scope'.supertypes)
    (hstems : ∀ supertype ∈ scope.supertypes, ∀ kind name,
      ∀ m ∈ (supertype.lookup kind name).members, m.StemsFrom declaration?) :
    scope.AgreesWith scope' scope.Blurs := by
  -- Nothing of a declaration but its members enters the scope of a class.
  have hdeclared : scope'.declared = scope.declared := by
    rw [declared, declared, flatScope, flatScope, hname, hmembers]
  have hreordered : ∀ kind name, Reordered declaration? (membersOf kind name scope.supertypes)
      (membersOf kind name scope'.supertypes) := by
    refine fun kind name => ⟨fun m => ?_, fun m hm => ?_⟩
    · simp only [mem_membersOf, hsupertypes]
    · obtain ⟨supertype, hsupertype, hmem⟩ := mem_membersOf.mp hm
      exact hstems supertype hsupertype kind name m hmem
  have hlookup : ∀ kind name, scope'.lookup kind name = Resolution.of scope.name name
      (scope.declared.ofKind kind.kind name) (membersOf kind name scope'.supertypes) := by
    intro kind name
    rw [lookup_eq, hdeclared, hname]
  refine ⟨fun kind name m hm => ?_, fun clash hclash signature hconcerns => ?_⟩
  · rw [lookup_eq] at hm
    obtain ⟨n, hn, hlike⟩ := (hreordered kind name).exists_member hm
    exact ⟨n, (hlookup kind name).symm ▸ hn, hlike.imp blurs_of_blurred⟩
  · obtain ⟨kind, name, hmem⟩ := mem_clashes_iff.mp hclash
    rw [lookup_eq] at hmem
    refine ((hreordered kind name).exists_clash hmem hconcerns).imp (fun hother => ?_)
      (And.imp_right blurs_of_blurred)
    obtain ⟨other, hother, hsame⟩ := hother
    exact ⟨other, mem_clashes_iff.mpr ⟨kind, name, (hlookup kind name).symm ▸ hother⟩, hsame⟩

end ClassScope

end DeclMerge
