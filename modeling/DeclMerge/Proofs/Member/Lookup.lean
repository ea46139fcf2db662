import DeclMerge.Member.ClassScope
import DeclMerge.Proofs.Member.Roots

/-!
# Looking up members of classes

The members of one name of a class are resolved from those it declares and those its supertypes
have. All of them have the name and the kind that was asked for. Every name under which a class has
members is listed, so the clashes of a listed name are clashes of the class.

## Main results

* `ClassScope.induction` — what passes from supertypes to a class holds of every class
* `ClassScope.lookup_eq`, `ClassScope.mem_declared_ofKind` — where members come from
* `ClassScope.kind_eq_and_name_eq` — members are of the kind and name asked for
* `ClassScope.mem_listing_names` — all names with members are listed
-/

namespace DeclMerge

/-- The group of a signature tells functions and properties from all else. -/
theorem kind_eq_iff_group_eq (d : Declaration) :
    (d.kind = .function ↔ (Signature.of d).group = .function) ∧
      (d.kind = .property ↔ (Signature.of d).group = .property) := by
  cases d <;> simp [Declaration.kind, Signature.of]

theorem kind_eq_of_signature_eq {a b : Declaration} {kind : Callable}
    (h : Signature.of a = Signature.of b) (ha : a.kind = kind.kind) : b.kind = kind.kind := by
  cases kind with
  | function => exact (kind_eq_iff_group_eq b).1.mpr (h ▸ (kind_eq_iff_group_eq a).1.mp ha)
  | property => exact (kind_eq_iff_group_eq b).2.mpr (h ▸ (kind_eq_iff_group_eq a).2.mp ha)

theorem admits_callables {d : Declaration} {kind : Callable} (h : d.kind = kind.kind) :
    KindSet.callables.admits d = true := by
  rw [KindSet.admits, h]
  cases kind <;> rfl

namespace ClassScope

variable {scope : ClassScope} {scopes : List ClassScope} {kind : Callable} {name : Name}
  {m : Member}

/-- A class is a larger value than each of its supertypes. -/
theorem sizeOf_lt_of_mem_supertypes {supertype : ClassScope} (h : supertype ∈ scope.supertypes) :
    sizeOf supertype < sizeOf scope := by
  obtain ⟨owner, declaration, supertypes⟩ := scope
  have hless : sizeOf supertype < sizeOf supertypes := List.sizeOf_lt_of_mem h
  rw [ClassScope.mk.sizeOf_spec]
  omega

/-- What passes from the supertypes to a class holds of every class. -/
theorem induction {motive : ClassScope → Prop}
    (step : ∀ scope, (∀ supertype ∈ scope.supertypes, motive supertype) → motive scope)
    (scope : ClassScope) : motive scope :=
  step scope fun supertype _ => induction step supertype
termination_by sizeOf scope
decreasing_by exact sizeOf_lt_of_mem_supertypes ‹_›

theorem mem_membersOf : m ∈ membersOf kind name scopes ↔
    ∃ scope ∈ scopes, m ∈ (scope.lookup kind name).members := by
  induction scopes with
  | nil => simp [membersOf]
  | cons first rest ih => rw [membersOf, List.mem_append, ih, List.exists_mem_cons_iff]

/-- The members of a name are resolved from the declared and the inherited ones. -/
theorem lookup_eq (kind : Callable) (name : Name) (scope : ClassScope) :
    scope.lookup kind name = Resolution.of scope.name name
      (scope.declared.ofKind kind.kind name) (membersOf kind name scope.supertypes) := by
  obtain ⟨owner, declaration, supertypes⟩ := scope
  rw [lookup, lookupFrom, declared]

theorem mem_declared_ofKind : m ∈ scope.declared.ofKind kind.kind name ↔
    ∃ place d, scope.declaration.members[place]? = some d ∧
      m = .declared scope.name place d ∧ d.kind = kind.kind ∧ d.name = name := by
  rw [FlatScope.ofKind, List.mem_filter, FlatScope.members, List.mem_map]
  constructor
  · rintro ⟨⟨⟨d, place⟩, hmem, rfl⟩, hkind⟩
    rw [Bool.and_eq_true, decide_eq_true_iff, decide_eq_true_iff] at hkind
    exact ⟨place, d, List.mem_zipIdx_iff_getElem?.mp hmem, rfl, hkind⟩
  · rintro ⟨place, d, hget, rfl, hkind, hname⟩
    refine ⟨⟨(d, place), List.mem_zipIdx_iff_getElem?.mpr hget, rfl⟩, ?_⟩
    rw [Bool.and_eq_true, decide_eq_true_iff, decide_eq_true_iff]
    exact ⟨hkind, hname⟩

/-- Every member is declared, or joined from members of the supertypes with its signature that
have its roots. -/
theorem mem_lookup_members (h : m ∈ (scope.lookup kind name).members) :
    m ∈ scope.declared.ofKind kind.kind name ∨
    (∃ supertype ∈ scope.supertypes, ∃ n ∈ (supertype.lookup kind name).members,
      n.signature = m.signature) ∧
    ∀ id ∈ m.roots, ∃ supertype ∈ scope.supertypes,
      ∃ n ∈ (supertype.lookup kind name).members, n.signature = m.signature ∧ id ∈ n.roots := by
  rw [lookup_eq] at h
  refine (Resolution.mem_members_of h).imp_right fun hjoined => ?_
  obtain ⟨-, -, ⟨source, hsource, -⟩, hroots, -⟩ := of_mem_members_joinPart hjoined
  have hfrom : ∀ n ∈ partOf m.signature (candidates (scope.declared.ofKind kind.kind name)
      (membersOf kind name scope.supertypes)), n.signature = m.signature ∧
        ∃ supertype ∈ scope.supertypes, n ∈ (supertype.lookup kind name).members := by
    intro n hn
    obtain ⟨hcandidate, hsignature⟩ := List.mem_filter.mp hn
    exact ⟨by simpa using hsignature, mem_membersOf.mp (of_mem_candidates hcandidate).1⟩
  constructor
  · obtain ⟨hsignature, supertype, hsupertype, hmem⟩ := hfrom source hsource
    exact ⟨supertype, hsupertype, source, hmem, hsignature⟩
  · intro id hid
    obtain ⟨n, hn, hroot⟩ := (hroots id).mp hid
    obtain ⟨hsignature, supertype, hsupertype, hmem⟩ := hfrom n hn
    exact ⟨supertype, hsupertype, n, hmem, hsignature, hroot⟩

/-- The members found have the kind and the name that was asked for. -/
theorem kind_eq_and_name_eq (h : m ∈ (scope.lookup kind name).members) :
    m.kind = kind.kind ∧ m.name = name := by
  induction scope using ClassScope.induction generalizing m with
  | step scope ih =>
    rcases mem_lookup_members h with hdeclared | ⟨⟨supertype, hsupertype, n, hn, hsignature⟩, -⟩
    · obtain ⟨place, d, -, rfl, hkind, hname⟩ := mem_declared_ofKind.mp hdeclared
      exact ⟨hkind, hname⟩
    · obtain ⟨hkind, hname⟩ := ih supertype hsupertype hn
      refine ⟨kind_eq_of_signature_eq hsignature hkind, ?_⟩
      have heq := congrArg Signature.name hsignature
      rw [Member.signature, Member.signature, Signature.name_of, Signature.name_of] at heq
      exact heq.symm.trans hname

theorem mem_listedNames : name ∈ listedNames scopes ↔
    ∃ scope ∈ scopes, name ∈ namesAmong scope.listing.members := by
  induction scopes with
  | nil => simp [listedNames]
  | cons first rest ih => rw [listedNames, List.mem_append, ih, List.exists_mem_cons_iff]

theorem mem_listing_names_iff : name ∈ scope.listing.names ↔
    name ∈ scope.declared.names .callables ∨ name ∈ listedNames scope.supertypes := by
  obtain ⟨owner, declaration, supertypes⟩ := scope
  rw [listing, callableNamesFrom, List.mem_eraseDups, List.mem_append, declared]

/-- The members of a listed name are listed. -/
theorem mem_listing_members (hname : name ∈ scope.listing.names)
    (h : m ∈ (scope.lookup kind name).members) : m ∈ scope.listing.members := by
  obtain ⟨owner, declaration, supertypes⟩ := scope
  rw [listing] at hname ⊢
  refine List.mem_append_left _ (List.mem_flatMap.mpr ⟨name, hname, List.mem_append.mpr ?_⟩)
  cases kind with
  | function => exact .inl h
  | property => exact .inr h

/-- A class lists the listed names of its supertypes under which they have members. -/
theorem mem_listing_names_of_mem_supertypes {supertype : ClassScope}
    (hsupertype : supertype ∈ scope.supertypes) (hname : name ∈ supertype.listing.names)
    (h : m ∈ (supertype.lookup kind name).members) : name ∈ scope.listing.names := by
  rw [mem_listing_names_iff, mem_listedNames]
  obtain ⟨hkind, hmember⟩ := kind_eq_and_name_eq h
  refine .inr ⟨supertype, hsupertype, List.mem_map.mpr ⟨m, List.mem_filter.mpr ⟨?_, ?_⟩, hmember⟩⟩
  · exact mem_listing_members hname h
  · exact admits_callables hkind

/-- Every name under which a class has members is listed. -/
theorem mem_listing_names (h : m ∈ (scope.lookup kind name).members) :
    name ∈ scope.listing.names := by
  induction scope using ClassScope.induction generalizing m with
  | step scope ih =>
    rcases mem_lookup_members h with hdeclared | ⟨⟨supertype, hsupertype, n, hn, -⟩, -⟩
    · obtain ⟨hmem, hkind⟩ := List.mem_filter.mp hdeclared
      rw [Bool.and_eq_true, decide_eq_true_iff, decide_eq_true_iff] at hkind
      rw [mem_listing_names_iff, FlatScope.names, List.mem_eraseDups, List.mem_map]
      exact .inl ⟨m, List.mem_filter.mpr ⟨hmem, admits_callables hkind.1⟩, hkind.2⟩
    · exact mem_listing_names_of_mem_supertypes hsupertype (ih supertype hsupertype hn) hn

/-- The clashes of a listed name are clashes of the class. -/
theorem mem_clashes {clash : Clash} (hname : name ∈ scope.listing.names)
    (h : clash ∈ (scope.lookup kind name).clashes) : clash ∈ scope.clashes := by
  rw [clashes, List.mem_flatMap]
  refine ⟨name, hname, List.mem_append.mpr ?_⟩
  cases kind with
  | function => exact .inl h
  | property => exact .inr h

end ClassScope

end DeclMerge
