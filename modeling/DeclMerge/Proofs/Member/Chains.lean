import DeclMerge.Proofs.Hierarchy.Coverage

/-!
# No inherited member is lost

A member that passes down comes to every class below, on whatever chain of supertypes, as long as
no class of the chain declares a member with its signature or finds that the members with it cannot
be joined. A root belongs to one declared member of one class, so members that share a root have
one signature. This is why collapsing members with the same roots never drops a signature.

## Main definitions

* `Hierarchy.signature?` — the signature of the declared member with an identity
* `Hierarchy.HandsDown` — a class takes over what a direct supertype has under a signature

## Main results

* `Hierarchy.Coherent.signature?_of_mem_roots` — the roots of a member have its signature
* `Hierarchy.Coherent.exists_inherited` — one step down
* `Hierarchy.exists_inherited_of_chain` — a whole chain down
-/

namespace DeclMerge

namespace Hierarchy

variable {index : ClassIndex} {hierarchy : Hierarchy} {scope sub super : ClassScope}
  {kind : Callable} {name : Name} {signature : Signature} {m : Member} {id : MemberId}

/-- The signature of the declared member with an identity. -/
def signature? (hierarchy : Hierarchy) (id : MemberId) : Option Signature := do
  let scope ← hierarchy.get? id.owner
  let d ← scope.declaration.members[id.index]?
  return .of d

theorem Coherent.signature?_declared (h : hierarchy.Coherent index)
    (hscope : scope ∈ hierarchy.scopes) {place : Nat} {d : Declaration}
    (hget : scope.declaration.members[place]? = some d) :
    hierarchy.signature? ⟨scope.name, place⟩ = some (.of d) := by
  rw [signature?, get?_name h.nodup hscope]
  simp [hget]

/-- All roots of a member are declared members of classes in the hierarchy with its signature. -/
theorem Coherent.signature?_of_mem_roots (h : hierarchy.Coherent index)
    (hscope : scope ∈ hierarchy.scopes) (hm : m ∈ (scope.lookup kind name).members)
    (hid : id ∈ m.roots) : hierarchy.signature? id = some m.signature := by
  revert m
  refine h.induction (motive := fun scope => ∀ {m : Member},
    m ∈ (scope.lookup kind name).members → id ∈ m.roots →
      hierarchy.signature? id = some m.signature) ?_ scope hscope
  intro scope hscope ih m hm hid
  -- A declared member is its own root; the roots of a joined one are those of its sources.
  rcases ClassScope.mem_lookup_members hm with hdeclared | ⟨-, hroots⟩
  · obtain ⟨place, d, hget, rfl, -⟩ := ClassScope.mem_declared_ofKind.mp hdeclared
    rw [Member.roots, List.mem_singleton] at hid
    rw [hid]
    exact h.signature?_declared hscope hget
  · obtain ⟨supertype, hsupertype, n, hn, hsignature, hroot⟩ := hroots id hid
    rw [ih supertype hsupertype hn hroot, hsignature]

/-- A class names another one as a supertype and takes over what it has under a signature: the
class itself declares no member of the kind with that signature, and records no clash of
incompatible inherited members that have it. -/
structure HandsDown (hierarchy : Hierarchy) (kind : Callable) (signature : Signature)
    (sub super : ClassScope) : Prop where
  sub_mem : sub ∈ hierarchy.scopes
  super_mem : super ∈ hierarchy.scopes
  supertype : super.name ∈ sub.declaration.superclassifiers
  undeclared : ∀ d ∈ sub.declaration.members, d.kind = kind.kind → Signature.of d ≠ signature
  unclashed : ∀ clash ∈ sub.clashes, clash.kind = .incompatibleInherited →
    ∀ m ∈ clash.members, m.signature ≠ signature

theorem HandsDown.mem_supertypes (hdown : hierarchy.HandsDown kind signature sub super)
    (h : hierarchy.Coherent index) : super ∈ sub.supertypes := by
  have hindex : super.name ∈ index.names := by
    rw [ClassIndex.mem_names_iff, h.get?_eq super hdown.super_mem]
    rfl
  obtain ⟨supertype, hmem, hget⟩ := h.exists_mem_supertypes hdown.sub_mem
    (ClassIndex.mem_supertypes.mpr ⟨hdown.supertype, hindex⟩)
  rw [get?_name h.nodup hdown.super_mem] at hget
  exact Option.some.inj hget ▸ hmem

/-- What a class has under a signature, with a root that it passes down. -/
def Has (kind : Callable) (signature : Signature) (id : MemberId) (scope : ClassScope) : Prop :=
  ∃ m ∈ (scope.lookup kind signature.name).members, m.signature = signature ∧ id ∈ m.roots ∧
    m.declaration.visibility.passesDown = true

/-- A root that a supertype passes down is a root of the only member with its signature. -/
theorem Coherent.exists_inherited (h : hierarchy.Coherent index)
    (hdown : hierarchy.HandsDown kind signature sub super) (hsuper : Has kind signature id super) :
    ∃ m, partOf signature (sub.lookup kind signature.name).members = [m] ∧
      m.isInherited = true ∧ id ∈ m.roots ∧ m.declaration.visibility.passesDown = true := by
  obtain ⟨m, hm, rfl, hid, hpasses⟩ := hsuper
  have hsupertype := hdown.mem_supertypes h
  have hlisted := ClassScope.mem_listing_names_of_mem_supertypes hsupertype
    (ClassScope.mem_listing_names hm) hm
  rw [ClassScope.lookup_eq]
  refine Resolution.exists_inherited ?_ ?_ ?_ (ClassScope.mem_membersOf.mpr ⟨super, hsupertype, hm⟩)
    hpasses hid
  · intro n hn
    obtain ⟨place, d, hget, rfl, hkind, -⟩ := ClassScope.mem_declared_ofKind.mp hn
    exact hdown.undeclared d (List.mem_of_getElem? hget) hkind
  · rw [← ClassScope.lookup_eq]
    exact fun clash hclash => hdown.unclashed clash (ClassScope.mem_clashes hlisted hclash)
  · intro n hn hroot
    obtain ⟨supertype, hmem, hn⟩ := ClassScope.mem_membersOf.mp hn
    have hother := h.signature?_of_mem_roots
      (h.mem_scopes_of_mem_supertypes hdown.sub_mem hmem) hn hroot
    have hown := h.signature?_of_mem_roots hdown.super_mem hm hid
    exact Option.some.inj (hother.symm.trans hown)

/-- A declared member that passes down is there to be taken over. -/
theorem has_declared {place : Nat} {f : Declaration}
    (hget : scope.declaration.members[place]? = some f) (hkind : f.kind = kind.kind)
    (hpasses : f.visibility.passesDown = true) :
    Has kind (.of f) ⟨scope.name, place⟩ scope := by
  refine ⟨.declared scope.name place f, ?_, rfl, List.mem_singleton_self _, hpasses⟩
  rw [ClassScope.lookup_eq, Resolution.members_of, Signature.name_of]
  exact List.mem_append_left _
    (ClassScope.mem_declared_ofKind.mpr ⟨place, f, hget, rfl, hkind, rfl⟩)

/-! ### A diamond -/

/-- An open class with its supertypes. -/
def openClass (name : String) (supertypes : List String) (members : List Declaration) :
    Declaration :=
  .class { name := ⟨name⟩, modality := .open } .class
    (supertypes.map fun supertype => ⟨⟨supertype⟩, [], false⟩) members

/-- An open function without parameters. -/
def drawFunction : Declaration :=
  .function { name := ⟨"draw"⟩, modality := .open } none [] ⟨⟨"Unit"⟩, [], false⟩

/-- The class at the top of the diamond. -/
def shape : ClassScope := ⟨⟨"Shape"⟩, openClass "Shape" [] [drawFunction], []⟩

/-- One side of the diamond. -/
def leftSide : ClassScope := ⟨⟨"Left"⟩, openClass "Left" ["Shape"] [], [shape]⟩

/-- The other side of the diamond. -/
def rightSide : ClassScope := ⟨⟨"Right"⟩, openClass "Right" ["Shape"] [], [shape]⟩

/-- The class at the bottom of the diamond. -/
def square : ClassScope :=
  ⟨⟨"Square"⟩, openClass "Square" ["Left", "Right"] [], [leftSide, rightSide]⟩

/-- The classes of the diamond, from the bottom up. -/
def diamond : List (QualifiedName × Declaration) :=
  [square, leftSide, rightSide, shape].map fun scope => (scope.name, scope.declaration)

theorem ofClasses_diamond :
    ofClasses diamond 8 = (⟨[square, leftSide, rightSide, shape]⟩, []) := rfl

/-! ### Whole chains -/

/-- In every class of a hierarchy from which a chain of supertypes leads up to a class that
declares `f`, not private and not local, `f` is a root of the only member with its signature, which
is inherited, if every class of the chain below takes over what is above it. -/
theorem exists_inherited_of_chain (classes : List (QualifiedName × Declaration)) (maxDepth : Nat)
    {bottom top : ClassScope} {place : Nat} {f : Declaration}
    (hdeclared : top.declaration.members[place]? = some f) (hkind : f.kind = kind.kind)
    (hvisible : f.visibility ≠ .private ∧ f.visibility ≠ .local)
    (hchain : Relation.TransGen ((ofClasses classes maxDepth).1.HandsDown kind (.of f))
      bottom top) :
    ∃ m, (bottom.lookup kind f.name).members.filter (fun m => m.signature = .of f) = [m] ∧
      m.isInherited = true ∧ ⟨top.name, place⟩ ∈ m.roots := by
  have h := coherent_ofClasses classes maxDepth
  have hpasses : f.visibility.passesDown = true := by
    obtain ⟨hprivate, hlocal⟩ := hvisible
    cases hcase : f.visibility <;> first | rfl | contradiction
  suffices hstep : ∃ m, partOf (.of f) (bottom.lookup kind (Signature.of f).name).members = [m] ∧
      m.isInherited = true ∧ ⟨top.name, place⟩ ∈ m.roots ∧
        m.declaration.visibility.passesDown = true by
    obtain ⟨m, hpart, hinherited, hroot, -⟩ := hstep
    rw [Signature.name_of] at hpart
    exact ⟨m, hpart, hinherited, hroot⟩
  -- From the top of the chain down: each class has what the class below it takes over.
  induction hchain using Relation.TransGen.head_induction_on with
  | single hdown => exact h.exists_inherited hdown (has_declared hdeclared hkind hpasses)
  | head hdown _ ih =>
    obtain ⟨m, hpart, -, hroot, hm⟩ := ih
    have hmem := List.mem_filter.mp (hpart ▸ List.mem_singleton_self m : m ∈ partOf _ _)
    exact h.exists_inherited hdown ⟨m, hmem.1, by simpa using hmem.2, hroot, hm⟩

/-- A function comes down the diamond on one side, although it comes on the other as well. -/
theorem exists_inherited_of_chain_diamond :
    shape.declaration.members[0]? = some drawFunction ∧
    Relation.TransGen ((ofClasses diamond 8).1.HandsDown .function (.of drawFunction))
      square shape ∧
    ∃ m, (square.lookup .function ⟨"draw"⟩).members.filter
        (fun m => m.signature = .of drawFunction) = [m] ∧
      m.isInherited = true ∧ ⟨⟨"Shape"⟩, 0⟩ ∈ m.roots := by
  have hquiet : ∀ side ∈ [square, leftSide], side.declaration.members = [] ∧ side.clashes = [] :=
    List.forall_mem_cons.mpr ⟨⟨rfl, rfl⟩, List.forall_mem_singleton.mpr ⟨rfl, rfl⟩⟩
  have hdown : ∀ sub ∈ [square, leftSide], ∀ super ∈ [leftSide, shape],
      super.name ∈ sub.declaration.superclassifiers →
        (ofClasses diamond 8).1.HandsDown .function (.of drawFunction) sub super := by
    intro sub hsub super hsuper hname
    obtain ⟨hmembers, hclashes⟩ := hquiet sub hsub
    rw [ofClasses_diamond]
    refine ⟨?_, ?_, hname, by simp [hmembers], by simp [hclashes]⟩
    · exact List.mem_append_left [rightSide, shape] hsub
    · rcases List.mem_pair.mp hsuper with rfl | rfl <;> simp
  have hlower := hdown square (.head _) leftSide (.head _) (.head _)
  have hupper := hdown leftSide (.tail _ (.head _)) shape (.tail _ (.head _)) (.head _)
  have hchain := Relation.TransGen.head hlower (.single hupper)
  have hkind : drawFunction.kind = Callable.function.kind := rfl
  exact ⟨rfl, hchain, exists_inherited_of_chain diamond 8 rfl hkind (by decide) hchain⟩

end Hierarchy

end DeclMerge
