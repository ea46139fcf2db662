import DeclMerge.Proofs.Hierarchy.Reordering
import DeclMerge.Proofs.Member.Genuine
import DeclMerge.Proofs.Member.Overriding

/-!
# Where visibilities are ambiguous

The visibility of an inherited member is ambiguous if none of its sources dominates all of them.
Mostly this takes several sources, which have different roots. A single source will do if its own
visibility is unknown, since an unknown visibility dominates nothing, not even itself. So what is
ambiguous in one class is reported again by every class that has it from there alone. Each unknown
visibility can be followed up to a class where it comes from: the class declares a root with it, or
several members meet there.

## Main definitions

* `ClassScope.gathered` — the sources of one signature
* `ClassScope.LosesVisibility` — what makes the visibility of a member unknown in a class
* `Hierarchy.Ambiguity` — what the sources of an ambiguous visibility can be
* `ClassScope.RedeclaresNothing` — a class that hides nothing of what it inherits
* `ClassScope.DeclaresAlike` — several members that a class declares with one signature
* `Hierarchy.TracesAmbiguity` — a class whose ambiguities come from where members meet

## Main results

* `Hierarchy.Coherent.exists_losesVisibility` — where an unknown visibility comes from
* `ClassScope.unknown_or_declaresAlike` — the clashes of a class that only inherits
* `Hierarchy.tracesAmbiguity` — the ambiguities of every class of a hierarchy
* `Hierarchy.not_forall_two_le_length` — an ambiguity of a single source
-/

namespace DeclMerge

variable {name : Name} {part : List Member} {m n : Member} {kind : Callable}
  {scope supertype top : ClassScope} {signature : Signature} {clash : Clash}

/-! ### Sources without a common visibility -/

/-- One visibility dominates itself, unless it is unknown. -/
theorem Visibility.dominant?_singleton_eq_none_iff {v : Visibility} :
    Visibility.dominant? [v] = none ↔ v = .unknown := by
  cases v <;> decide

/-- The visibility that members share is unknown if none is found that dominates all. -/
theorem sharedVisibility_eq_unknown_iff :
    sharedVisibility part = .unknown ↔ Visibility.dominant? (visibilities part) = none := by
  rw [sharedVisibility]
  cases hdominant : Visibility.dominant? (visibilities part) with
  | none => simp
  | some v =>
    obtain ⟨hv, hall⟩ := Visibility.dominant?_eq_some hdominant
    simpa using Visibility.ne_unknown_of_dominates (hall v hv)

/-- Of members that share no visibility there are several, or one whose own is unknown. -/
theorem several_or_unknown (hne : part ≠ [])
    (hnone : Visibility.dominant? (visibilities part) = none) :
    2 ≤ part.length ∨ ∃ m, part = [m] ∧ m.declaration.visibility = .unknown := by
  match part with
  | [] => exact absurd rfl hne
  | [m] => exact .inr ⟨m, rfl, Visibility.dominant?_singleton_eq_none_iff.mp hnone⟩
  | _ :: _ :: rest => exact .inl (Nat.le_add_left 2 rest.length)

/-- Of members that are not compatible there are several. -/
theorem several_of_not_compatible (h : ¬ Compatible part) : 2 ≤ part.length := by
  match part with
  | [] => exact absurd (fun _ ha => nomatch ha) h
  | [m] => exact absurd (compatible_cons_iff.mpr rfl) h
  | _ :: _ :: rest => exact Nat.le_add_left 2 rest.length

namespace ClassScope

/-- The members of supertypes that a class gathers for a signature, which it does not declare. -/
def gathered (scope : ClassScope) (kind : Callable) (name : Name) (signature : Signature) :
    List Member :=
  partOf signature (candidates (scope.declared.ofKind kind.kind name)
    (membersOf kind name scope.supertypes))

theorem of_mem_gathered (h : m ∈ scope.gathered kind name signature) :
    (∃ supertype ∈ scope.supertypes, m ∈ (supertype.lookup kind name).members) ∧
      m.signature = signature := by
  obtain ⟨hcandidate, hsignature⟩ := mem_partOf.mp h
  exact ⟨mem_membersOf.mp (of_mem_candidates hcandidate).1, hsignature⟩

/-- The members that are gathered for a signature have different roots. -/
theorem pairwise_gathered (scope : ClassScope) (kind : Callable) (name : Name)
    (signature : Signature) :
    (scope.gathered kind name signature).Pairwise fun m n => m.sameRoots n = false :=
  (pairwise_distinctRoots _).filter _

/-- Clashes are with declared members, or among those that are gathered for a signature. -/
theorem mem_clashes_lookup_iff : clash ∈ (scope.lookup kind name).clashes ↔
    clash ∈ hidingClashes scope.name name (scope.declared.ofKind kind.kind name)
      (inheritable (membersOf kind name scope.supertypes)) ∨
    ∃ signature, scope.gathered kind name signature ≠ [] ∧
      (clash = ⟨scope.name, name, .incompatibleInherited, scope.gathered kind name signature⟩ ∧
          ¬ Compatible (scope.gathered kind name signature) ∨
        clash = ⟨scope.name, name, .ambiguousVisibility, scope.gathered kind name signature⟩ ∧
          Compatible (scope.gathered kind name signature) ∧
          Visibility.dominant? (visibilities (scope.gathered kind name signature)) = none) := by
  rw [lookup_eq, Resolution.mem_clashes_of_iff]
  exact or_congr_right (exists_congr fun _ => mem_clashes_joinPart)

/-- A clash of ambiguous visibilities is among members that share no visibility. -/
theorem exists_gathered_of_ambiguous (hclash : clash ∈ (scope.lookup kind name).clashes)
    (hambiguous : clash.kind = .ambiguousVisibility) :
    ∃ signature, clash.members = scope.gathered kind name signature ∧ clash.members ≠ [] ∧
      Visibility.dominant? (visibilities clash.members) = none := by
  -- All other clashes are of other kinds.
  rcases mem_clashes_lookup_iff.mp hclash with
    hhiding | ⟨signature, hne, ⟨rfl, -⟩ | ⟨rfl, -, hnone⟩⟩
  · obtain ⟨m, -, d, clashKind, -, hkind, rfl⟩ := mem_hidingClashes.mp hhiding
    rcases kind_of_hidingClash? hkind with rfl | rfl <;> cases hambiguous
  · cases hambiguous
  · exact ⟨signature, rfl, hne, hnone⟩

/-- An inherited member of unknown visibility comes with a clash among its sources. -/
theorem ambiguous_of_isInherited (hm : m ∈ (scope.lookup kind name).members)
    (hinherited : m.isInherited = true) (hunknown : m.declaration.visibility = .unknown) :
    ⟨scope.name, name, .ambiguousVisibility, m.sources⟩ ∈ (scope.lookup kind name).clashes := by
  rw [lookup_eq, Resolution.mem_members_of_iff] at hm
  rcases hm with hdeclared | ⟨signature, hjoined⟩
  · obtain ⟨place, d, -, rfl, -⟩ := mem_declared_ofKind.mp hdeclared
    cases hinherited
  · obtain ⟨first, rest, hpart, hcompatible, rfl⟩ := mem_members_joinPart.mp hjoined
    rw [Member.visibility_joinedMember, sharedVisibility_eq_unknown_iff] at hunknown
    have hne : scope.gathered kind name signature ≠ [] :=
      fun hnil => List.cons_ne_nil first rest (hpart.symm.trans hnil)
    exact mem_clashes_lookup_iff.mpr (.inr ⟨signature, hne, .inr ⟨rfl, hcompatible, hunknown⟩⟩)

/-! ### Where unknown visibilities come from -/

/-- The visibility of a member is unknown from a class `top` on: `top` declares one of its roots
with an unknown visibility, or several members that share none meet there, and all roots of these
are roots of the member. -/
inductive LosesVisibility (top : ClassScope) (kind : Callable) (name : Name) (m : Member) :
    Prop where
  | declared (place : Nat) (d : Declaration) (declares : top.declaration.members[place]? = some d)
      (unknown : d.visibility = .unknown) (root : ⟨top.name, place⟩ ∈ m.roots)
  | met (clash : Clash) (clashes : clash ∈ (top.lookup kind name).clashes)
      (ambiguous : clash.kind = .ambiguousVisibility) (several : 2 ≤ clash.members.length)
      (roots : ∀ source ∈ clash.members, ∀ id ∈ source.roots, id ∈ m.roots)

/-- A member with more roots has lost its visibility in the same class. -/
theorem LosesVisibility.mono (h : top.LosesVisibility kind name m)
    (hroots : ∀ id ∈ m.roots, id ∈ n.roots) : top.LosesVisibility kind name n := by
  cases h with
  | declared place d hdeclares hunknown hroot =>
    exact .declared place d hdeclares hunknown (hroots _ hroot)
  | met clash hclash hambiguous hseveral hsources =>
    exact .met clash hclash hambiguous hseveral fun source hsource id hid =>
      hroots id (hsources source hsource id hid)

/-- A class that has a member of unknown visibility has lost it itself, or has the member from a
single one of its supertypes, with an unknown visibility. -/
theorem losesVisibility_or_single (hm : m ∈ (scope.lookup kind name).members)
    (hunknown : m.declaration.visibility = .unknown) :
    scope.LosesVisibility kind name m ∨
    ∃ supertype ∈ scope.supertypes, ∃ source ∈ (supertype.lookup kind name).members,
      m.sources = [source] ∧ source.declaration.visibility = .unknown ∧
        ∀ id ∈ source.roots, id ∈ m.roots := by
  rcases declared_or_joins hm with ⟨place, d, hget, rfl⟩ | hjoins
  · exact .inl (.declared place d hget hunknown (List.mem_singleton_self _))
  · have hclash := ambiguous_of_isInherited hm hjoins.isInherited hunknown
    have hroots : ∀ source ∈ m.sources, ∀ id ∈ source.roots, id ∈ m.roots :=
      fun source hsource id hid => (hjoins.mem_roots_iff id).mpr ⟨source, hsource, hid⟩
    obtain ⟨-, -, -, hnone⟩ := exists_gathered_of_ambiguous hclash rfl
    rcases several_or_unknown hjoins.sources_ne_nil hnone with
      hseveral | ⟨source, hsource, hsourceUnknown⟩
    · exact .inl (.met _ hclash rfl hseveral hroots)
    · have hmem : source ∈ m.sources := hsource ▸ List.mem_singleton_self source
      obtain ⟨-, supertype, hsupertype, hfound⟩ := hjoins.of_mem_sources source hmem
      exact .inr ⟨supertype, hsupertype, source, hfound, hsource, hsourceUnknown,
        hroots source hmem⟩

end ClassScope

namespace Hierarchy

variable {index : ClassIndex} {hierarchy : Hierarchy}

/-- An unknown visibility comes from the class itself or from a class above it. -/
theorem Coherent.exists_losesVisibility (h : hierarchy.Coherent index)
    (hscope : scope ∈ hierarchy.scopes) (hm : m ∈ (scope.lookup kind name).members)
    (hunknown : m.declaration.visibility = .unknown) :
    ∃ top ∈ hierarchy.scopes, hierarchy.Upward scope.name top.name ∧
      top.LosesVisibility kind name m := by
  revert m
  refine h.induction (motive := fun scope => ∀ {m : Member},
    m ∈ (scope.lookup kind name).members → m.declaration.visibility = .unknown →
      ∃ top ∈ hierarchy.scopes, hierarchy.Upward scope.name top.name ∧
        top.LosesVisibility kind name m) ?_ scope hscope
  intro scope hscope ih m hm hunknown
  -- As long as there is one source only, the visibility was unknown one step further up.
  rcases ClassScope.losesVisibility_or_single hm hunknown with
    hloses | ⟨supertype, hsupertype, source, hsource, -, hsourceUnknown, hroots⟩
  · exact ⟨scope, hscope, .refl, hloses⟩
  · obtain ⟨top, htop, hupward, hloses⟩ := ih supertype hsupertype hsource hsourceUnknown
    exact ⟨top, htop, (h.upward_iff hscope).mpr (.inr ⟨supertype, hsupertype, hupward⟩),
      hloses.mono hroots⟩

/-- What the sources of an ambiguous visibility can be: several members with different roots, or one
whose own visibility is unknown, and has been so from a class further up. -/
inductive Ambiguity (hierarchy : Hierarchy) (scope : ClassScope) (kind : Callable) (name : Name)
    (sources : List Member) : Prop where
  | met (several : 2 ≤ sources.length)
      (roots_differ : sources.Pairwise fun m n => m.sameRoots n = false)
  | handedDown (m : Member) (sources_eq : sources = [m])
      (unknown : m.declaration.visibility = .unknown) (top : ClassScope)
      (top_mem : top ∈ hierarchy.scopes)
      (above : Relation.TransGen hierarchy.DirectSupertype scope.name top.name)
      (loses : top.LosesVisibility kind name m)

/-- Every ambiguity is among members that meet, or comes from where members have met. -/
theorem Coherent.ambiguity (h : hierarchy.Coherent index) (hscope : scope ∈ hierarchy.scopes)
    (hclash : clash ∈ (scope.lookup kind name).clashes)
    (hambiguous : clash.kind = .ambiguousVisibility) :
    hierarchy.Ambiguity scope kind name clash.members := by
  obtain ⟨signature, hmembers, hne, hnone⟩ :=
    ClassScope.exists_gathered_of_ambiguous hclash hambiguous
  rcases several_or_unknown hne hnone with hseveral | ⟨m, hm, hunknown⟩
  · refine .met hseveral ?_
    rw [hmembers]
    exact scope.pairwise_gathered kind name signature
  · have hgathered : m ∈ scope.gathered kind name signature :=
      hmembers ▸ hm ▸ List.mem_singleton_self m
    obtain ⟨⟨supertype, hsupertype, hfound⟩, -⟩ := ClassScope.of_mem_gathered hgathered
    obtain ⟨top, htop, hupward, hloses⟩ := h.exists_losesVisibility
      (h.mem_scopes_of_mem_supertypes hscope hsupertype) hfound hunknown
    exact .handedDown m hm hunknown top htop
      ((h.transGen_iff hscope).mpr ⟨supertype, hsupertype, hupward⟩) hloses

end Hierarchy

/-! ### Classes that only inherit -/

namespace ClassScope

/-- A class declares nothing with the signature of a member that it inherits. -/
def RedeclaresNothing (scope : ClassScope) : Prop :=
  ∀ kind name, ∀ m ∈ inheritable (membersOf kind name scope.supertypes),
    ∀ d ∈ scope.declaration.members, Signature.of d ≠ m.signature

/-- Several members that a class declares with one signature. -/
structure DeclaresAlike (scope : ClassScope) (members : List Member) : Prop where
  several : 2 ≤ members.length
  declares : ∀ m ∈ members, ∃ place d, scope.declaration.members[place]? = some d ∧
    m = .declared scope.name place d
  signature_eq : ∀ m ∈ members, ∀ n ∈ members, m.signature = n.signature
  roots_differ : members.Pairwise fun m n => m.sameRoots n = false

/-- No other member of a class has the signature of an inherited one. -/
theorem eq_of_isInherited (hm : m ∈ (scope.lookup kind name).members)
    (hinherited : m.isInherited = true) (hn : n ∈ (scope.lookup kind name).members)
    (hsignature : n.signature = m.signature) : n = m := by
  rw [lookup_eq, Resolution.members_of, List.mem_append] at hm hn
  rcases hm with hdeclared | hjoined
  · obtain ⟨place, d, -, rfl, -⟩ := mem_declared_ofKind.mp hdeclared
    cases hinherited
  · rcases hn with hdeclared | hjoined'
    · exact absurd hsignature (ne_signature_of_mem_joinedMembers hjoined n hdeclared)
    · exact List.inj_on_of_nodup_map (nodup_signatures_joinedMembers ..) hjoined' hjoined hsignature

/-- Several members with one signature that come from one class are declared there. -/
theorem declaresAlike_of_several (hsingle : ∀ other ∈ scope.supertypes, other = supertype)
    (hseveral : 2 ≤ (scope.gathered kind name signature).length) :
    supertype.DeclaresAlike (scope.gathered kind name signature) := by
  have hpairwise := scope.pairwise_gathered kind name signature
  have hfrom : ∀ m ∈ scope.gathered kind name signature,
      m ∈ (supertype.lookup kind name).members ∧ m.signature = signature := by
    intro m hm
    obtain ⟨⟨other, hother, hmem⟩, hsignature⟩ := of_mem_gathered hm
    exact ⟨hsingle other hother ▸ hmem, hsignature⟩
  refine ⟨hseveral, fun m hm => ?_, fun m hm n hn => ?_, hpairwise⟩
  · rcases declared_or_joins (hfrom m hm).1 with hdeclared | hjoins
    · exact hdeclared
    · -- A member that is joined there is the only one with its signature, but there are several.
      have hsame : ∀ n ∈ scope.gathered kind name signature, n = m := fun n hn =>
        eq_of_isInherited (hfrom m hm).1 hjoins.isInherited (hfrom n hn).1
          ((hfrom n hn).2.trans (hfrom m hm).2.symm)
      match hgathered : scope.gathered kind name signature, hseveral with
      | a :: b :: rest, _ =>
        rw [hgathered] at hsame hpairwise
        have hdiffer := List.rel_of_pairwise_cons hpairwise List.mem_cons_self
        rw [hsame a List.mem_cons_self, hsame b (List.mem_cons_of_mem a List.mem_cons_self),
          m.sameRoots_self] at hdiffer
        cases hdiffer
  · exact (hfrom m hm).2.trans (hfrom n hn).2.symm

/-- A class that only inherits from one supertype has no clashes but with an ambiguity that it is
handed down, and among members that the supertype declares. -/
theorem unknown_or_declaresAlike (hsingle : ∀ other ∈ scope.supertypes, other = supertype)
    (hnothing : scope.RedeclaresNothing) (hclash : clash ∈ scope.clashes) :
    (clash.kind = .ambiguousVisibility ∧
      ∃ m, clash.members = [m] ∧ m.declaration.visibility = .unknown) ∨
    supertype.DeclaresAlike clash.members := by
  obtain ⟨kind, name, hlookup⟩ := mem_clashes_iff.mp hclash
  rcases mem_clashes_lookup_iff.mp hlookup with
    hhiding | ⟨signature, hne, ⟨rfl, hincompatible⟩ | ⟨rfl, -, hnone⟩⟩
  · -- A declared member that hides an inherited one has been redeclared.
    obtain ⟨m, hm, d, clashKind, hhides, -, rfl⟩ := mem_hidingClashes.mp hhiding
    obtain ⟨place, declaration, hget, rfl, -⟩ :=
      mem_declared_ofKind.mp (List.mem_of_find?_eq_some hhides)
    have hsignature : (Member.declared scope.name place declaration).signature = m.signature := by
      simpa using List.find?_some hhides
    exact absurd hsignature (hnothing kind name m hm declaration (List.mem_of_getElem? hget))
  · exact .inr (declaresAlike_of_several hsingle (several_of_not_compatible hincompatible))
  · rcases several_or_unknown hne hnone with hseveral | hunknown
    · exact .inr (declaresAlike_of_several hsingle hseveral)
    · exact .inl ⟨rfl, hunknown⟩

end ClassScope

namespace Hierarchy

/-- The ambiguities of a class come from where members meet, and so do those that it has without
redeclaring anything. -/
structure TracesAmbiguity (hierarchy : Hierarchy) (scope : ClassScope) : Prop where
  ambiguous : ∀ kind name, ∀ clash ∈ (scope.lookup kind name).clashes,
    clash.kind = .ambiguousVisibility → hierarchy.Ambiguity scope kind name clash.members
  /-- What clashes in a class that only inherits from one supertype. -/
  inheriting : ∀ supertype, (∀ other ∈ scope.supertypes, other = supertype) →
    scope.RedeclaresNothing → ∀ clash ∈ scope.clashes,
      (clash.kind = .ambiguousVisibility ∧
        ∃ m, clash.members = [m] ∧ m.declaration.visibility = .unknown) ∨
      supertype.DeclaresAlike clash.members

/-- Every class of a hierarchy has ambiguities where members meet, or below. -/
theorem tracesAmbiguity (classes : List (QualifiedName × Declaration)) (maxDepth : Nat)
    (hscope : scope ∈ (ofClasses classes maxDepth).1.scopes) :
    (ofClasses classes maxDepth).1.TracesAmbiguity scope :=
  ⟨fun _ _ _ hclash hambiguous =>
      (coherent_ofClasses classes maxDepth).ambiguity hscope hclash hambiguous,
    fun _ hsingle hnothing _ hclash =>
      ClassScope.unknown_or_declaresAlike hsingle hnothing hclash⟩

/-! ### Classes below an ambiguity -/

/-- A class that inherits from the one where two functions meet, and declares nothing. -/
def heir : ClassScope := derived "Heir" [pair]

/-- The classes above it, and the class itself. -/
def heirs : List (QualifiedName × Declaration) :=
  [heir, pair, handler "Guarded" .protected, handler "Inner" .internal].map fun scope =>
    (scope.name, scope.declaration)

/-- A class that declares two functions with one signature and different types. -/
def studio : ClassScope :=
  ⟨⟨"Studio"⟩, openClass "Studio" [] [drawFunction, measureFunction], []⟩

/-- A class that inherits from it, and declares nothing. -/
def annex : ClassScope := derived "Annex" [studio]

/-- Both of these classes. -/
def annexes : List (QualifiedName × Declaration) :=
  [annex, studio].map fun scope => (scope.name, scope.declaration)

/-- A class that declares no members redeclares nothing. -/
theorem redeclaresNothing_derived (name : String) (supertypes : List ClassScope) :
    (derived name supertypes).RedeclaresNothing :=
  fun _ _ _ _ _ hd => nomatch hd

/-- A function of one of the classes that declare it, as a member. -/
def handled (owner : String) (visibility : Visibility) : Member :=
  .declared ⟨owner⟩ 0
    (.function { name := ⟨"handle"⟩, visibility, modality := .open } none [] ⟨⟨"Unit"⟩, [], false⟩)

/-- The function that is inherited where both meet. -/
def handledByPair : Member :=
  joinedMember ⟨"Pair"⟩ (handled "Guarded" .protected)
    [handled "Guarded" .protected, handled "Inner" .internal]

theorem clashes_heir : (heir.lookup .function ⟨"handle"⟩).clashes =
    [⟨⟨"Heir"⟩, ⟨"handle"⟩, .ambiguousVisibility, [handledByPair]⟩] := rfl

theorem clashes_annex : (annex.lookup .function ⟨"draw"⟩).clashes =
    [⟨⟨"Annex"⟩, ⟨"draw"⟩, .incompatibleInherited,
      [.declared ⟨"Studio"⟩ 0 drawFunction, .declared ⟨"Studio"⟩ 1 measureFunction]⟩] := rfl

/-- The class below reports the ambiguity once more, and it is traced to the one above. -/
theorem tracesAmbiguity_heir :
    heir ∈ (ofClasses heirs 8).1.scopes ∧
    (∃ clash ∈ (heir.lookup .function ⟨"handle"⟩).clashes, clash.kind = .ambiguousVisibility ∧
      clash.members = [handledByPair] ∧ handledByPair.declaration.visibility = .unknown) ∧
    (ofClasses heirs 8).1.TracesAmbiguity heir := by
  have hheir : heir ∈ (ofClasses heirs 8).1.scopes := List.mem_cons_self
  exact ⟨hheir, ⟨_, List.mem_singleton_self _, rfl, rfl, rfl⟩, tracesAmbiguity heirs 8 hheir⟩

/-- An ambiguity may be reported with a single source, and a class that only inherits from one
supertype may have a clash, even one that is no ambiguity. -/
theorem not_forall_two_le_length :
    (¬ ∀ (classes : List (QualifiedName × Declaration)) (maxDepth : Nat),
      ∀ scope ∈ (ofClasses classes maxDepth).1.scopes, ∀ kind name,
        ∀ clash ∈ (scope.lookup kind name).clashes, clash.kind = .ambiguousVisibility →
          2 ≤ clash.members.length) ∧
    ¬ ∀ (classes : List (QualifiedName × Declaration)) (maxDepth : Nat),
      ∀ scope ∈ (ofClasses classes maxDepth).1.scopes, ∀ supertype,
        scope.supertypes = [supertype] → scope.RedeclaresNothing →
          ∀ clash ∈ scope.clashes, clash.kind = .ambiguousVisibility := by
  constructor
  · intro hclaim
    have hheir : heir ∈ (ofClasses heirs 8).1.scopes := List.mem_cons_self
    have htwo := hclaim heirs 8 heir hheir .function ⟨"handle"⟩
    rw [clashes_heir] at htwo
    exact absurd (htwo _ (List.mem_singleton_self _) rfl) (by decide)
  · intro hclaim
    have hannex : annex ∈ (ofClasses annexes 8).1.scopes := List.mem_cons_self
    have hclash : _ ∈ annex.clashes :=
      ClassScope.mem_clashes_iff.mpr
        ⟨.function, ⟨"draw"⟩, clashes_annex ▸ List.mem_singleton_self _⟩
    cases hclaim annexes 8 annex hannex studio rfl (redeclaresNothing_derived _ _) _ hclash

end Hierarchy

end DeclMerge
