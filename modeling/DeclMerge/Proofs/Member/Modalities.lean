import DeclMerge.Proofs.Member.Genuine

/-!
# The modality of inherited members

Each class infers the modality of a member that it inherits from the members that its supertypes
have, and these may be inherited in their turn. What comes out is a function of the modalities of
the roots alone: whichever classes a member has come through, and however often, it is abstract if
all its roots are, else open if one of them is open or abstract, and else final. A sealed root
counts like a final one.

## Main definitions

* `Hierarchy.rootModalities` — the modalities of the roots of a member
* `Hierarchy.FollowsRoots` — a member with the modality that its roots give it

## Main results

* `ClassScope.modality_ne_sealed` — no class infers that a member is sealed
* `Hierarchy.followsRoots_of_isInherited` — every inherited member follows its roots
-/

namespace DeclMerge

namespace Modality

variable {modality : Modality}

theorem eq_open_iff : modality = .open ↔ modality ≠ .abstract ∧ modality.LeavesOpen := by
  cases modality <;> simp [LeavesOpen]

theorem eq_final_iff (hsealed : modality ≠ .sealed) :
    modality = .final ↔ modality ≠ .abstract ∧ ¬ modality.LeavesOpen := by
  cases modality with
  | «sealed» => exact absurd rfl hsealed
  | _ => simp [LeavesOpen]

end Modality

/-- No class infers that a member is sealed. -/
theorem ClassScope.modality_ne_sealed {scope : ClassScope} {kind : Callable} {name : Name}
    {m : Member} (hm : m ∈ (scope.lookup kind name).members) (hinherited : m.isInherited = true) :
    m.declaration.modality ≠ .sealed := by
  rw [lookup_eq, Resolution.mem_members_of_iff] at hm
  rcases hm with hdeclared | ⟨signature, hjoined⟩
  · obtain ⟨place, d, -, rfl, -⟩ := mem_declared_ofKind.mp hdeclared
    cases hinherited
  · obtain ⟨first, rest, -, -, rfl⟩ := mem_members_joinPart.mp hjoined
    rw [Member.modality_joinedMember]
    exact inheritedModality_ne_sealed _

namespace Hierarchy

variable {hierarchy : Hierarchy} {scope : ClassScope} {kind : Callable} {name : Name}
  {m n : Member} {modality : Modality}

/-- The modalities of the declared members at the bottom of a member. -/
def rootModalities (hierarchy : Hierarchy) (m : Member) : List Modality :=
  m.roots.filterMap fun id => (hierarchy.declaration? id).map Declaration.modality

theorem mem_rootModalities : modality ∈ hierarchy.rootModalities m ↔
    ∃ id ∈ m.roots, ∃ d, hierarchy.declaration? id = some d ∧ d.modality = modality := by
  simp [rootModalities]

/-- Members with the same roots have roots with the same modalities. -/
theorem mem_rootModalities_congr (h : ∀ id, id ∈ m.roots ↔ id ∈ n.roots) :
    modality ∈ hierarchy.rootModalities m ↔ modality ∈ hierarchy.rootModalities n := by
  simp only [mem_rootModalities, h]

/-- A member whose modality is what the modalities of its roots make it. -/
structure FollowsRoots (hierarchy : Hierarchy) (m : Member) : Prop where
  roots_ne_nil : m.roots ≠ []
  /-- Every root is a declared member of the hierarchy, so none of them is left out. -/
  roots_declared : ∀ id ∈ m.roots, ∃ d, hierarchy.declaration? id = some d
  abstract_iff : m.declaration.modality = .abstract ↔
    ∀ modality ∈ hierarchy.rootModalities m, modality = .abstract
  open_iff : m.declaration.modality = .open ↔
    (¬ ∀ modality ∈ hierarchy.rootModalities m, modality = .abstract) ∧
      ∃ modality ∈ hierarchy.rootModalities m, modality = .open ∨ modality = .abstract
  final_iff : m.declaration.modality = .final ↔
    (¬ ∀ modality ∈ hierarchy.rootModalities m, modality = .abstract) ∧
      ¬ ∃ modality ∈ hierarchy.rootModalities m, modality = .open ∨ modality = .abstract

/-- What stems from its roots follows them, unless it is sealed. -/
theorem followsRoots_of_stemsFrom (hstems : m.StemsFrom hierarchy.declaration?)
    (hsealed : m.declaration.modality ≠ .sealed) : hierarchy.FollowsRoots m := by
  have habstract : m.declaration.modality = .abstract ↔
      ∀ modality ∈ hierarchy.rootModalities m, modality = .abstract := by
    rw [hstems.abstract_iff]
    constructor
    · intro h modality hmodality
      obtain ⟨id, hid, d, hd, rfl⟩ := mem_rootModalities.mp hmodality
      exact h id hid d hd
    · exact fun h id hid d hd => h _ (mem_rootModalities.mpr ⟨id, hid, d, hd, rfl⟩)
  have hopen : m.declaration.modality.LeavesOpen ↔
      ∃ modality ∈ hierarchy.rootModalities m, modality = .open ∨ modality = .abstract := by
    rw [hstems.leavesOpen_iff]
    constructor
    · rintro ⟨id, hid, d, hd, hleaves⟩
      exact ⟨_, mem_rootModalities.mpr ⟨id, hid, d, hd, rfl⟩, hleaves⟩
    · rintro ⟨modality, hmodality, hleaves⟩
      obtain ⟨id, hid, d, hd, rfl⟩ := mem_rootModalities.mp hmodality
      exact ⟨id, hid, d, hd, hleaves⟩
  refine ⟨hstems.roots_ne_nil, fun id hid => ?_, habstract, ?_, ?_⟩
  · obtain ⟨d, hd, -⟩ := hstems.root id hid
    exact ⟨d, hd⟩
  · rw [Modality.eq_open_iff, hopen, Ne, habstract]
  · rw [Modality.eq_final_iff hsealed, hopen, Ne, habstract]

/-- Members with the same roots that follow them have one modality. -/
theorem FollowsRoots.modality_eq (hm : hierarchy.FollowsRoots m) (hn : hierarchy.FollowsRoots n)
    (hsealed : m.declaration.modality ≠ .sealed) (hroots : ∀ id, id ∈ m.roots ↔ id ∈ n.roots) :
    n.declaration.modality = m.declaration.modality := by
  have habstract : n.declaration.modality = .abstract ↔ m.declaration.modality = .abstract := by
    rw [hm.abstract_iff, hn.abstract_iff]
    simp only [mem_rootModalities_congr hroots]
  have hopen : n.declaration.modality = .open ↔ m.declaration.modality = .open := by
    rw [hm.open_iff, hn.open_iff]
    simp only [mem_rootModalities_congr hroots]
  have hfinal : n.declaration.modality = .final ↔ m.declaration.modality = .final := by
    rw [hm.final_iff, hn.final_iff]
    simp only [mem_rootModalities_congr hroots]
  -- The roots tell three modalities apart, and the fourth one is never inferred.
  cases hmodality : m.declaration.modality with
  | final => exact hfinal.mpr hmodality
  | «open» => exact hopen.mpr hmodality
  | «abstract» => exact habstract.mpr hmodality
  | «sealed» => exact absurd hmodality hsealed

/-- Whatever a class inherits has the modality that its roots make it, and so has every other
inherited member with the same roots, in whatever class. -/
theorem followsRoots_of_isInherited (classes : List (QualifiedName × Declaration)) (maxDepth : Nat)
    (hscope : scope ∈ (ofClasses classes maxDepth).1.scopes)
    (hm : m ∈ (scope.lookup kind name).members) (hinherited : m.isInherited = true) :
    (ofClasses classes maxDepth).1.FollowsRoots m ∧
    ∀ other ∈ (ofClasses classes maxDepth).1.scopes, ∀ kind name,
      ∀ n ∈ (other.lookup kind name).members, n.isInherited = true →
        (∀ id, id ∈ m.roots ↔ id ∈ n.roots) →
          n.declaration.modality = m.declaration.modality := by
  have h := coherent_ofClasses classes maxDepth
  have hfollows : ∀ other ∈ (ofClasses classes maxDepth).1.scopes, ∀ kind name,
      ∀ n ∈ (other.lookup kind name).members, n.isInherited = true →
        (ofClasses classes maxDepth).1.FollowsRoots n := by
    intro other hother kind name n hn hinherited
    exact followsRoots_of_stemsFrom (h.stemsFrom hother hn)
      (ClassScope.modality_ne_sealed hn hinherited)
  have hown := hfollows scope hscope kind name m hm hinherited
  refine ⟨hown, fun other hother kind name n hn hinherited' hroots => ?_⟩
  exact hown.modality_eq (hfollows other hother kind name n hn hinherited')
    (ClassScope.modality_ne_sealed hm hinherited) hroots

/-! ### Overlapping roots -/

/-- A class that declares a function with a modality. -/
def painter (name : String) (modality : Modality) : ClassScope :=
  ⟨⟨name⟩, openClass name []
    [.function { name := ⟨"draw"⟩, modality } none [] ⟨⟨"Unit"⟩, [], false⟩], []⟩

/-- A class that declares nothing and has an abstract and a sealed function above it. -/
def collage : ClassScope :=
  ⟨⟨"Collage"⟩, openClass "Collage" ["Sketch", "Stamp"] [],
    [painter "Sketch" .abstract, painter "Stamp" .sealed]⟩

/-- A class that meets the abstract function twice, once by itself. -/
def poster : ClassScope :=
  ⟨⟨"Poster"⟩, openClass "Poster" ["Collage", "Sketch"] [],
    [collage, painter "Sketch" .abstract]⟩

/-- The classes of both functions. -/
def painters : List (QualifiedName × Declaration) :=
  [poster, collage, painter "Sketch" .abstract, painter "Stamp" .sealed].map fun scope =>
    (scope.name, scope.declaration)

/-- The function of a painter, as a member. -/
def paint (name : String) (modality : Modality) : Member :=
  .declared ⟨name⟩ 0 (.function { name := ⟨"draw"⟩, modality } none [] ⟨⟨"Unit"⟩, [], false⟩)

/-- The function that comes from both painters. -/
def paintOfCollage : Member :=
  joinedMember ⟨"Collage"⟩ (paint "Sketch" .abstract)
    [paint "Sketch" .abstract, paint "Stamp" .sealed]

/-- The function that comes from both painters, and from one of them again. -/
def paintOfPoster : Member :=
  joinedMember ⟨"Poster"⟩ paintOfCollage [paintOfCollage, paint "Sketch" .abstract]

/-- Of an abstract and a sealed function comes an open one, on either way. -/
theorem followsRoots_paintOfPoster :
    poster ∈ (ofClasses painters 8).1.scopes ∧
    paintOfPoster ∈ (poster.lookup .function ⟨"draw"⟩).members ∧
    paintOfPoster.isInherited = true ∧ paintOfPoster.declaration.modality = .open ∧
    (ofClasses painters 8).1.FollowsRoots paintOfPoster ∧
    paintOfCollage.declaration.modality = paintOfPoster.declaration.modality := by
  have hposter : poster ∈ (ofClasses painters 8).1.scopes := List.mem_cons_self
  have hcollage : collage ∈ (ofClasses painters 8).1.scopes :=
    List.mem_cons_of_mem _ List.mem_cons_self
  have hpaint : paintOfPoster ∈ (poster.lookup .function ⟨"draw"⟩).members :=
    List.mem_singleton_self _
  have hsource : paintOfCollage ∈ (collage.lookup .function ⟨"draw"⟩).members :=
    List.mem_singleton_self _
  have hroots : paintOfPoster.sameRoots paintOfCollage = true := by decide
  obtain ⟨hfollows, hothers⟩ := followsRoots_of_isInherited painters 8 hposter hpaint rfl
  exact ⟨hposter, hpaint, rfl, rfl, hfollows, hothers collage hcollage .function ⟨"draw"⟩
    paintOfCollage hsource rfl (Member.sameRoots_iff.mp hroots)⟩

end Hierarchy

end DeclMerge
