import DeclMerge.Proofs.Member.Flat
import DeclMerge.Proofs.Member.Placement

/-!
# How often an overridden member is reported

A class answers for its declared members to each of its supertypes in turn. What one supertype has
under a name are members with different roots, so what a class declares over one inherited member is
reported once to each supertype that has it, on however many ways it has come there. Between
supertypes nothing is collapsed: a member that comes down a diamond is reported on each side of it,
and a supertype that is named twice is answered twice.

## Main definitions

* `Clash.Repeats` — two clashes about one declared member and inherited members with the same roots
* `ClassScope.overridesOf` — the clashes of declared members with the members of one supertype
* `ClassScope.ReportsOnceEach` — a class that reports an inherited member once to each supertype

## Main results

* `Hierarchy.Coherent.pairwise_roots` — the members of a name have different roots
* `Hierarchy.reportsOnceEach` — every class of a hierarchy reports once to each supertype
* `Hierarchy.not_forall_reported_once` — a member that comes on two ways is reported twice
-/

namespace DeclMerge

variable {owner : QualifiedName} {name : Name} {declared above : List Member} {m n : Member}

/-- The two kinds of clashes between a declared member and an inherited one. -/
def ClashKind.isOverride : ClashKind → Bool
  | .incompatibleOverride | .overridesFinal => true
  | .incompatibleInherited | .ambiguousVisibility => false

/-- Two clashes are about one declared member and inherited members with the same roots. -/
def Clash.Repeats (a b : Clash) : Prop :=
  ∃ m n d, a.members = [m, d] ∧ b.members = [n, d] ∧ m.sameRoots n = true

/-- The clashes with declared members are those of the two kinds. -/
theorem Resolution.filter_isOverride_clashes (owner : QualifiedName) (name : Name)
    (declared above : List Member) :
    (Resolution.of owner name declared above).clashes.filter (fun clash => clash.kind.isOverride) =
      hidingClashes owner name declared (inheritable above) := by
  -- The two rows of clashes are told apart by their kinds.
  rw [clashes_of, List.filter_append]
  have hhiding : ∀ clash ∈ hidingClashes owner name declared (inheritable above),
      clash.kind.isOverride = true := by
    intro clash hclash
    obtain ⟨m, -, d, kind, -, hkind, rfl⟩ := mem_hidingClashes.mp hclash
    rcases kind_of_hidingClash? hkind with rfl | rfl <;> rfl
  have hjoining : ∀ clash ∈ ((candidates declared above).map Member.signature).eraseDups.flatMap
      (fun signature =>
        (joinPart owner name (partOf signature (candidates declared above))).clashes),
      ¬ clash.kind.isOverride = true := by
    intro clash hclash
    obtain ⟨signature, -, hjoined⟩ := List.mem_flatMap.mp hclash
    obtain ⟨-, ⟨rfl, -⟩ | ⟨rfl, -⟩⟩ := mem_clashes_joinPart.mp hjoined <;> exact Bool.false_ne_true
  rw [List.filter_eq_self.mpr hhiding, List.filter_eq_nil_iff.mpr hjoining, List.append_nil]

/-- What is joined has a signature that is not declared. -/
theorem ne_signature_of_mem_joinedMembers
    (h : n ∈ joinedMembers owner name (candidates declared above)) :
    ∀ d ∈ declared, d.signature ≠ n.signature := by
  obtain ⟨-, -, hsources, hne⟩ := mem_joinedMembers h
  obtain ⟨source, hsource⟩ := List.exists_mem_of_ne_nil _ hne
  rw [hsources] at hsource
  obtain ⟨hcandidate, hsignature⟩ := mem_partOf.mp hsource
  exact hsignature ▸ (of_mem_candidates hcandidate).2.2

/-- If inherited members have different roots, no two clashes with declared members repeat each
other. -/
theorem pairwise_hidingClashes {inherited : List Member}
    (h : inherited.Pairwise fun m n => m.sameRoots n = false) :
    (hidingClashes owner name declared inherited).Pairwise fun a b => ¬ a.Repeats b := by
  -- A clash begins with the inherited member it comes from, so it has the roots of that one.
  refine h.filterMap _ fun m n hroots a ha b hb => ?_
  have hclash : a ∈ hidingClashes owner name declared [m] :=
    List.mem_filterMap.mpr ⟨m, List.mem_singleton_self m, ha⟩
  have hclash' : b ∈ hidingClashes owner name declared [n] :=
    List.mem_filterMap.mpr ⟨n, List.mem_singleton_self n, hb⟩
  obtain ⟨_, hm, -, -, -, -, rfl⟩ := mem_hidingClashes.mp hclash
  obtain ⟨_, hn, -, -, -, -, rfl⟩ := mem_hidingClashes.mp hclash'
  obtain rfl := List.mem_singleton.mp hm
  obtain rfl := List.mem_singleton.mp hn
  rintro ⟨m, n, d, hmembers, hmembers', hsame⟩
  rw [(List.cons.inj hmembers).1, (List.cons.inj hmembers').1, hsame] at hroots
  cases hroots

namespace ClassScope

variable {scope : ClassScope} {kind : Callable}

theorem membersOf_eq_flatMap (kind : Callable) (name : Name) (scopes : List ClassScope) :
    membersOf kind name scopes = scopes.flatMap fun scope => (scope.lookup kind name).members := by
  induction scopes with
  | nil => rfl
  | cons first rest ih => rw [membersOf, ih, List.flatMap_cons]

/-- The clashes of what a class declares under a name with what one supertype has there. -/
def overridesOf (scope : ClassScope) (kind : Callable) (name : Name) (supertype : ClassScope) :
    List Clash :=
  hidingClashes scope.name name (scope.declared.ofKind kind.kind name)
    (inheritable (supertype.lookup kind name).members)

/-- A class reports what it declares over inherited members once to each supertype. -/
structure ReportsOnceEach (scope : ClassScope) (kind : Callable) (name : Name) : Prop where
  /-- The clashes with declared members come supertype by supertype, as the class names them. -/
  overrides_eq : (scope.lookup kind name).clashes.filter (fun clash => clash.kind.isOverride) =
    scope.supertypes.flatMap (scope.overridesOf kind name)
  of_mem : ∀ supertype ∈ scope.supertypes, ∀ clash ∈ scope.overridesOf kind name supertype,
    ∃ m ∈ (supertype.lookup kind name).members, ∃ d ∈ scope.declared.ofKind kind.kind name,
      clash.members = [m, d]
  once : ∀ supertype ∈ scope.supertypes,
    (scope.overridesOf kind name supertype).Pairwise fun a b => ¬ a.Repeats b

/-- Declared members have roots of their own. -/
theorem pairwise_roots_declared (scope : ClassScope) (kind : Callable) (name : Name) :
    (scope.declared.ofKind kind.kind name).Pairwise fun m n => m.sameRoots n = false := by
  refine (scope.declared.nodup_members.filter _).imp_of_mem fun {m n} hm hn hne => ?_
  rw [← Bool.not_eq_true]
  exact fun hsame =>
    hne (FlatScope.eq_of_sameRoots (List.mem_filter.mp hm).1 (List.mem_filter.mp hn).1 hsame)

end ClassScope

namespace Hierarchy

variable {index : ClassIndex} {hierarchy : Hierarchy} {scope : ClassScope} {kind : Callable}

/-- Members of a class with different signatures have different roots. -/
theorem Coherent.sameRoots_eq_false (h : hierarchy.Coherent index)
    (hscope : scope ∈ hierarchy.scopes) (hm : m ∈ (scope.lookup kind name).members)
    (hn : n ∈ (scope.lookup kind name).members) (hne : m.signature ≠ n.signature) :
    m.sameRoots n = false := by
  rw [← Bool.not_eq_true]
  intro hsame
  exact hne ((h.stemsFrom hscope hm).alike (h.stemsFrom hscope hn)
    (Member.sameRoots_iff.mp hsame)).signature_eq

/-- The members that a class has under a name have different roots. -/
theorem Coherent.pairwise_roots (h : hierarchy.Coherent index) (hscope : scope ∈ hierarchy.scopes)
    (kind : Callable) (name : Name) :
    (scope.lookup kind name).members.Pairwise fun m n => m.sameRoots n = false := by
  have hroots : ∀ m ∈ (scope.lookup kind name).members, ∀ n ∈ (scope.lookup kind name).members,
      m.signature ≠ n.signature → m.sameRoots n = false :=
    fun m hm n hn => h.sameRoots_eq_false hscope hm hn
  rw [ClassScope.lookup_eq, Resolution.members_of] at hroots ⊢
  refine List.pairwise_append.mpr ⟨scope.pairwise_roots_declared kind name, ?_, ?_⟩
  · -- Joined members are told apart by their signatures, of which each has one member.
    have hsignatures := nodup_signatures_joinedMembers scope.name name
      (candidates (scope.declared.ofKind kind.kind name)
        (ClassScope.membersOf kind name scope.supertypes))
    refine (List.pairwise_map.mp hsignatures).imp_of_mem fun {m n} hm hn hne => ?_
    exact hroots m (List.mem_append_right _ hm) n (List.mem_append_right _ hn) hne
  · intro d hd n hn
    exact hroots d (List.mem_append_left _ hd) n (List.mem_append_right _ hn)
      (ne_signature_of_mem_joinedMembers hn d hd)

/-- Every class of a hierarchy reports what it declares over an inherited member once to each of its
supertypes, however many ways there are to the member above the supertype. -/
theorem reportsOnceEach (classes : List (QualifiedName × Declaration)) (maxDepth : Nat)
    (hscope : scope ∈ (ofClasses classes maxDepth).1.scopes) (kind : Callable) (name : Name) :
    scope.ReportsOnceEach kind name := by
  have h := coherent_ofClasses classes maxDepth
  refine ⟨?_, fun supertype _ clash hclash => ?_, fun supertype hsupertype => ?_⟩
  · rw [ClassScope.lookup_eq, Resolution.filter_isOverride_clashes, inheritable,
      ClassScope.membersOf_eq_flatMap, List.filter_flatMap, hidingClashes_flatMap]
    rfl
  · obtain ⟨m, hm, d, kind, hhides, -, rfl⟩ := mem_hidingClashes.mp hclash
    exact ⟨m, (List.mem_filter.mp hm).1, d, List.mem_of_find?_eq_some hhides, rfl⟩
  · have hknown := h.mem_scopes_of_mem_supertypes hscope hsupertype
    exact pairwise_hidingClashes ((h.pairwise_roots hknown kind name).filter _)

/-! ### Reports about one function -/

/-- A function with the signature of the one in the diamond, and another type. -/
def measureFunction : Declaration :=
  .function { name := ⟨"draw"⟩ } none [] ⟨⟨"Int"⟩, [], false⟩

/-- A class below both sides of the diamond that declares the function with another type. -/
def canvas : ClassScope :=
  ⟨⟨"Canvas"⟩, openClass "Canvas" ["Left", "Right"] [measureFunction], [leftSide, rightSide]⟩

/-- A class that names its supertype twice and declares the function with another type. -/
def mural : ClassScope :=
  ⟨⟨"Mural"⟩, openClass "Mural" ["Shape", "Shape"] [measureFunction], [shape, shape]⟩

/-- The classes below the function, and those between. -/
def surfaces : List (QualifiedName × Declaration) :=
  [canvas, mural, leftSide, rightSide, shape].map fun scope => (scope.name, scope.declaration)

/-- The function of the class below, as a member. -/
def measured (owner : QualifiedName) : Member := .declared owner 0 measureFunction

/-- A clash of the function of the class below with an inherited one. -/
def measuredOver (owner : QualifiedName) (m : Member) : Clash :=
  ⟨owner, ⟨"draw"⟩, .incompatibleOverride, [m, measured owner]⟩

theorem clashes_canvas : (canvas.lookup .function ⟨"draw"⟩).clashes =
    [measuredOver ⟨"Canvas"⟩ (drawnBy ⟨"Left"⟩), measuredOver ⟨"Canvas"⟩ (drawnBy ⟨"Right"⟩)] := rfl

theorem clashes_mural : (mural.lookup .function ⟨"draw"⟩).clashes =
    [measuredOver ⟨"Mural"⟩ drawn, measuredOver ⟨"Mural"⟩ drawn] := rfl

/-- Each side of the diamond is answered once. -/
theorem reportsOnceEach_canvas : canvas ∈ (ofClasses surfaces 8).1.scopes ∧
    canvas.ReportsOnceEach .function ⟨"draw"⟩ := by
  have hcanvas : canvas ∈ (ofClasses surfaces 8).1.scopes := List.mem_cons_self
  exact ⟨hcanvas, reportsOnceEach surfaces 8 hcanvas .function ⟨"draw"⟩⟩

/-- An inherited function may be reported twice to the class that declares it again: once on each
side of a diamond, and once for each time that a supertype is named. -/
theorem not_forall_reported_once :
    (¬ ∀ (classes : List (QualifiedName × Declaration)) (maxDepth : Nat),
      ∀ scope ∈ (ofClasses classes maxDepth).1.scopes, ∀ kind name,
        ((scope.lookup kind name).clashes.filter fun clash => clash.kind.isOverride).Pairwise
          fun a b => ¬ a.Repeats b) ∧
    ¬ ∀ (classes : List (QualifiedName × Declaration)) (maxDepth : Nat),
      ∀ scope ∈ (ofClasses classes maxDepth).1.scopes, ∀ kind name,
        ((scope.lookup kind name).clashes.filter fun clash => clash.kind.isOverride).Pairwise
          fun a b => a.members ≠ b.members := by
  constructor
  · intro hclaim
    have hcanvas : canvas ∈ (ofClasses surfaces 8).1.scopes := List.mem_cons_self
    have honce := hclaim surfaces 8 canvas hcanvas .function ⟨"draw"⟩
    rw [clashes_canvas] at honce
    refine List.rel_of_pairwise_cons honce (List.mem_singleton_self _)
      ⟨drawnBy ⟨"Left"⟩, drawnBy ⟨"Right"⟩, measured ⟨"Canvas"⟩, rfl, rfl, ?_⟩
    decide
  · intro hclaim
    have hmural : mural ∈ (ofClasses surfaces 8).1.scopes :=
      List.mem_cons_of_mem _ List.mem_cons_self
    have honce := hclaim surfaces 8 mural hmural .function ⟨"draw"⟩
    rw [clashes_mural] at honce
    exact List.rel_of_pairwise_cons honce (List.mem_singleton_self _) rfl

end Hierarchy

end DeclMerge
