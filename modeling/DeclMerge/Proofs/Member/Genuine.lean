import DeclMerge.Proofs.Member.Origins

/-!
# Inherited members are genuine

A class inherits nothing that is not declared above it. An inherited member stands for members of
direct supertypes, and at its bottom are functions or properties that classes further up declare,
with its kind, signature and type. None of them is private or local, as such members are left
behind at the first step down.

## Main definitions

* `ClassScope.Joins` — a member that a class joins from members of its supertypes
* `Hierarchy.Genuine` — an inherited member with what it stands for

## Main results

* `ClassScope.declared_or_joins` — members are declared or joined
* `Hierarchy.Coherent.declared_or_above` — where the roots of a member are declared
* `Hierarchy.genuine_of_isInherited` — every inherited member of a hierarchy is genuine
-/

namespace DeclMerge

namespace ClassScope

variable {scope : ClassScope} {kind : Callable} {name : Name} {m : Member}

/-- A class joins a member from members of its supertypes that pass down. -/
structure Joins (scope : ClassScope) (kind : Callable) (name : Name) (m : Member) : Prop where
  isInherited : m.isInherited = true
  owner_eq : m.owner = scope.name
  sources_ne_nil : m.sources ≠ []
  of_mem_sources : ∀ source ∈ m.sources, source.declaration.visibility.passesDown = true ∧
    ∃ supertype ∈ scope.supertypes, source ∈ (supertype.lookup kind name).members
  mem_roots_iff : ∀ id, id ∈ m.roots ↔ ∃ source ∈ m.sources, id ∈ source.roots
  passesDown : m.declaration.visibility.passesDown = true

/-- Every member of a class is declared by it or joined. -/
theorem declared_or_joins (h : m ∈ (scope.lookup kind name).members) :
    (∃ place d, scope.declaration.members[place]? = some d ∧
      m = .declared scope.name place d) ∨ scope.Joins kind name m := by
  rw [lookup_eq, Resolution.mem_members_of_iff] at h
  rcases h with hdeclared | ⟨signature, hjoined⟩
  · obtain ⟨place, d, hget, rfl, -⟩ := mem_declared_ofKind.mp hdeclared
    exact .inl ⟨place, d, hget, rfl⟩
  · obtain ⟨-, -, -, hroots, hvisible⟩ := of_mem_members_joinPart hjoined
    obtain ⟨first, rest, hpart, -, rfl⟩ := mem_members_joinPart.mp hjoined
    have hsources : ∀ source ∈ partOf signature (candidates
        (scope.declared.ofKind kind.kind name) (membersOf kind name scope.supertypes)),
        source.declaration.visibility.passesDown = true ∧
          ∃ supertype ∈ scope.supertypes, source ∈ (supertype.lookup kind name).members := by
      intro source hsource
      obtain ⟨hmem, hpasses, -⟩ := of_mem_candidates (mem_partOf.mp hsource).1
      exact ⟨hpasses, mem_membersOf.mp hmem⟩
    right
    refine ⟨rfl, rfl, hpart ▸ List.cons_ne_nil first rest, hsources, hroots, ?_⟩
    rcases hvisible with hunknown | ⟨source, hsource, heq⟩
    · rw [hunknown]
      rfl
    · exact heq ▸ (hsources source hsource).1

theorem owner_eq (h : m ∈ (scope.lookup kind name).members) : m.owner = scope.name := by
  rcases declared_or_joins h with ⟨place, d, -, rfl⟩ | hjoins
  · rfl
  · exact hjoins.owner_eq

end ClassScope

namespace Hierarchy

variable {index : ClassIndex} {hierarchy : Hierarchy} {scope supertype : ClassScope}
  {kind : Callable} {name : Name} {m : Member} {id : MemberId} {d : Declaration}

theorem exists_of_declaration?_eq_some (h : hierarchy.declaration? id = some d) :
    ∃ top ∈ hierarchy.scopes, id.owner = top.name ∧
      top.declaration.members[id.index]? = some d := by
  obtain ⟨top, hget, hmember⟩ := Option.bind_eq_some_iff.mp h
  obtain ⟨htop, hname⟩ := get?_eq_some hget
  exact ⟨top, htop, hname.symm, hmember⟩

/-- The root of a declared member is that member; the roots of an inherited one are declared above
the class and pass down. -/
theorem Coherent.declared_or_above (h : hierarchy.Coherent index)
    (hscope : scope ∈ hierarchy.scopes) (hm : m ∈ (scope.lookup kind name).members)
    (hid : id ∈ m.roots) (hd : hierarchy.declaration? id = some d) :
    m.isInherited = false ∧ id.owner = scope.name ∧ m.declaration = d ∨
    Relation.TransGen hierarchy.DirectSupertype scope.name id.owner ∧
      d.visibility.passesDown = true := by
  revert m
  refine h.induction (motive := fun scope => ∀ {m : Member},
    m ∈ (scope.lookup kind name).members → id ∈ m.roots →
      m.isInherited = false ∧ id.owner = scope.name ∧ m.declaration = d ∨
      Relation.TransGen hierarchy.DirectSupertype scope.name id.owner ∧
        d.visibility.passesDown = true) ?_ scope hscope
  intro scope hscope ih m hm hid
  rcases ClassScope.declared_or_joins hm with ⟨place, d', hget, rfl⟩ | hjoins
  · rw [Member.roots, List.mem_singleton] at hid
    rw [hid, declaration?_eq_some h.nodup hscope, hget] at hd
    exact .inl ⟨rfl, by rw [hid], Option.some.inj hd⟩
  · obtain ⟨source, hsource, hroot⟩ := (hjoins.mem_roots_iff id).mp hid
    obtain ⟨hpasses, supertype, hsupertype, hmem⟩ := hjoins.of_mem_sources source hsource
    have hstep := (h.directSupertype_iff hscope).mpr ⟨supertype, hsupertype, rfl⟩
    right
    -- A root is met first as a declared member of a supertype, which passes down to this class.
    rcases ih supertype hsupertype hmem hroot with ⟨-, howner, rfl⟩ | ⟨habove, hvisible⟩
    · exact ⟨howner ▸ .single hstep, hpasses⟩
    · exact ⟨.head hstep habove, hvisible⟩

/-- A member that a class inherits, with what it stands for. -/
structure Genuine (hierarchy : Hierarchy) (scope : ClassScope) (kind : Callable) (name : Name)
    (m : Member) : Prop where
  owner_eq : m.owner = scope.name
  sources_ne_nil : m.sources ≠ []
  /-- The sources are members of direct supertypes, under the same kind and name. -/
  of_mem_sources : ∀ source ∈ m.sources, ∃ supertype ∈ hierarchy.scopes,
    hierarchy.DirectSupertype scope.name supertype.name ∧
      source ∈ (supertype.lookup kind name).members ∧ source.owner = supertype.name
  roots_ne_nil : m.roots ≠ []
  /-- The roots are declared in classes further up, and not as private or local. -/
  of_mem_roots : ∀ id ∈ m.roots, ∃ top ∈ hierarchy.scopes, ∃ d,
    Relation.TransGen hierarchy.DirectSupertype scope.name top.name ∧
      id.owner = top.name ∧ top.declaration.members[id.index]? = some d ∧
      d.kind = kind.kind ∧ d.kind = m.kind ∧ Signature.of d = m.signature ∧
      d.type? = m.declaration.type? ∧ d.visibility ≠ .private ∧ d.visibility ≠ .local
  visibility : m.declaration.visibility ≠ .private ∧ m.declaration.visibility ≠ .local

/-- Whatever a class inherits under a kind and a name is genuine. -/
theorem genuine_of_isInherited (classes : List (QualifiedName × Declaration)) (maxDepth : Nat)
    (hscope : scope ∈ (ofClasses classes maxDepth).1.scopes)
    (hm : m ∈ (scope.lookup kind name).members) (hinherited : m.isInherited = true) :
    (ofClasses classes maxDepth).1.Genuine scope kind name m := by
  have h := coherent_ofClasses classes maxDepth
  have hstems := h.stemsFrom hscope hm
  have hjoins : scope.Joins kind name m := by
    rcases ClassScope.declared_or_joins hm with ⟨place, d, -, rfl⟩ | hjoins
    · cases hinherited
    · exact hjoins
  refine ⟨hjoins.owner_eq, hjoins.sources_ne_nil, fun source hsource => ?_, hstems.roots_ne_nil,
    fun id hid => ?_, Visibility.passesDown_iff.mp hjoins.passesDown⟩
  · obtain ⟨-, supertype, hsupertype, hmem⟩ := hjoins.of_mem_sources source hsource
    exact ⟨supertype, h.mem_scopes_of_mem_supertypes hscope hsupertype,
      (h.directSupertype_iff hscope).mpr ⟨supertype, hsupertype, rfl⟩, hmem,
      ClassScope.owner_eq hmem⟩
  · obtain ⟨d, hd, hkind, hsignature, htype⟩ := hstems.root id hid
    obtain ⟨top, htop, howner, hget⟩ := exists_of_declaration?_eq_some hd
    have hroot := h.declared_or_above hscope hm hid hd
    obtain ⟨habove, hvisible⟩ := hroot.resolve_left fun hown => by simp [hinherited] at hown
    exact ⟨top, htop, d, howner ▸ habove, howner, hget,
      hkind.trans (ClassScope.kind_eq_and_name_eq hm).1, hkind, hsignature, htype,
      Visibility.passesDown_iff.mp hvisible⟩

/-- The function at the bottom of the diamond, as it comes down on the left side. -/
def drawOfSquare : Member :=
  .inherited ⟨"Square"⟩ drawFunction
    [.inherited ⟨"Left"⟩ drawFunction [.declared ⟨"Shape"⟩ 0 drawFunction]]

/-- The function that comes down the diamond is declared at its top. -/
theorem genuine_drawOfSquare :
    square ∈ (ofClasses diamond 8).1.scopes ∧
    drawOfSquare ∈ (square.lookup .function ⟨"draw"⟩).members ∧
    drawOfSquare.isInherited = true ∧
    (ofClasses diamond 8).1.Genuine square .function ⟨"draw"⟩ drawOfSquare := by
  have hsquare : square ∈ (ofClasses diamond 8).1.scopes := List.mem_cons_self
  have hdraw : drawOfSquare ∈ (square.lookup .function ⟨"draw"⟩).members :=
    List.mem_singleton_self _
  exact ⟨hsquare, hdraw, rfl, genuine_of_isInherited diamond 8 hsquare hdraw rfl⟩

end Hierarchy

end DeclMerge
