import DeclMerge.Proofs.Member.Listing
import Mathlib.Data.List.Sigma

/-!
# Classes without supertypes

A class that has nothing to inherit answers for every name like the flat scope of its declarations.
Its listing is put together from such answers. So it has the functions and properties of the flat
listing, although in another order, but of several classifiers with one name it has the first only.

## Main definitions

* `FlatScope.isFirst` — whether a classifier is the one that is found under its name

## Main results

* `ClassScope.lookup_of_supertypes_eq_nil` — the members and clashes of a name
* `ClassScope.refines_flatScope` — look-ups and listings of both scopes
* `ClassScope.not_forall_listed_perm_listing` — the flat listing has more than that
-/

namespace DeclMerge

/-- Lists that have the same values under every key are permutations of each other. -/
theorem perm_of_forall_filter {α κ : Type} [DecidableEq κ] (keyOf : α → κ) {as bs : List α}
    (h : ∀ key, (as.filter fun a => keyOf a = key).Perm (bs.filter fun b => keyOf b = key)) :
    as.Perm bs := by
  classical
  rw [List.perm_iff_count]
  intro a
  have hcount := (h (keyOf a)).count_eq a
  rwa [List.count_filter (by simp), List.count_filter (by simp)] at hcount

/-- Parts of a list that exclude one another are together a part of it. -/
theorem filter_append_filter_perm {α : Type} {p q : α → Bool} {as : List α}
    (h : ∀ a ∈ as, p a = true → q a = false) :
    (as.filter p ++ as.filter q).Perm (as.filter fun a => p a || q a) := by
  have hsplit := List.filter_append_perm p (as.filter fun a => p a || q a)
  rw [List.filter_filter, List.filter_filter] at hsplit
  refine .trans (.of_eq ?_) hsplit
  congr 1
  · refine List.filter_congr fun a _ => ?_
    cases p a <;> rfl
  · refine List.filter_congr fun a ha => ?_
    cases hp : p a with
    | true => simp [h a ha hp]
    | false => simp

namespace FlatScope

variable {scope : FlatScope} {name : Name} {m n : Member}

/-- Whether a member is the one that is found if its name is looked up as a classifier. -/
def isFirst (scope : FlatScope) (m : Member) : Bool :=
  (scope.classifier? m.name).any m.sameRoots

/-- Whether a member is found if its name is looked up: functions and properties always are, but of
the classifiers with one name only the first is. Values cannot be looked up. -/
def isFound (scope : FlatScope) (m : Member) : Bool :=
  m.kind ≠ .value && (!m.kind.isClassifier || scope.isFirst m)

theorem mem_members : m ∈ scope.members ↔
    ∃ place d, scope.declarations[place]? = some d ∧ m = .declared scope.owner place d := by
  rw [members, List.mem_map]
  constructor
  · rintro ⟨⟨d, place⟩, hmem, rfl⟩
    exact ⟨place, d, List.mem_zipIdx_iff_getElem?.mp hmem, rfl⟩
  · rintro ⟨place, d, hget, rfl⟩
    exact ⟨(d, place), List.mem_zipIdx_iff_getElem?.mpr hget, rfl⟩

/-- Members of one container are told apart by their places. -/
theorem eq_of_sameRoots (hm : m ∈ scope.members) (hn : n ∈ scope.members)
    (hsame : m.sameRoots n = true) : m = n := by
  obtain ⟨place, d, hget, rfl⟩ := mem_members.mp hm
  obtain ⟨place', d', hget', rfl⟩ := mem_members.mp hn
  have hplace : place = place' := by
    have hroot := (Member.sameRoots_iff.mp hsame ⟨scope.owner, place⟩).mp (by simp [Member.roots])
    simpa [Member.roots] using hroot
  subst hplace
  rw [Option.some.inj (hget.symm.trans hget')]

theorem nodup_members (scope : FlatScope) : scope.members.Nodup := by
  rw [members]
  refine (List.nodup_zipIdx_map_snd scope.declarations).of_map.map_on ?_
  rintro ⟨d, place⟩ - ⟨d', place'⟩ - heq
  simp only [Member.declared.injEq] at heq
  rw [heq.2.1, heq.2.2]

theorem isFirst_iff (hm : m ∈ scope.members) :
    scope.isFirst m = true ↔ scope.classifier? m.name = some m := by
  rw [isFirst]
  cases hfound : scope.classifier? m.name with
  | none => simp
  | some first =>
    have hfirst := (isClassifier_and_name_of_classifier? hfound).1
    rw [Option.any_some, Option.some_inj]
    constructor
    · exact fun hsame => (eq_of_sameRoots hm hfirst hsame).symm
    · rintro rfl
      exact Member.sameRoots_iff.mpr fun _ => Iff.rfl

/-- Of the classifiers with a name the first one is left. -/
theorem filter_isFirst (scope : FlatScope) (name : Name) :
    (scope.members.filter fun m => m.kind.isClassifier && m.name = name && scope.isFirst m) =
      (scope.classifier? name).toList := by
  have hiff : ∀ m ∈ scope.members,
      (m.kind.isClassifier && m.name = name && scope.isFirst m) = true ↔
        scope.classifier? name = some m := by
    intro m hm
    simp only [Bool.and_eq_true, decide_eq_true_eq]
    constructor
    · rintro ⟨⟨-, rfl⟩, hfirst⟩
      exact (isFirst_iff hm).mp hfirst
    · intro hfound
      obtain ⟨-, hkind, rfl⟩ := isClassifier_and_name_of_classifier? hfound
      exact ⟨⟨hkind, rfl⟩, (isFirst_iff hm).mpr hfound⟩
  cases hfound : scope.classifier? name with
  | none =>
    apply List.filter_eq_nil_iff.mpr
    intro m hm hadmitted
    exact absurd (hfound.symm.trans ((hiff m hm).mp hadmitted)) nofun
  | some first =>
    refine filter_eq_singleton scope.nodup_members
      (isClassifier_and_name_of_classifier? hfound).1 fun m hm => ?_
    rw [hiff m hm, hfound, Option.some_inj, eq_comm]

end FlatScope

namespace ClassScope

variable {scope : ClassScope} {kind : Callable} {name : Name}

/-- A class that inherits nothing finds what it declares, without clashes. -/
theorem lookup_of_supertypes_eq_nil (h : scope.supertypes = []) :
    scope.lookup kind name = ⟨scope.declared.ofKind kind.kind name, []⟩ := by
  rw [lookup_eq, h]
  change Resolution.mk (_ ++ []) [] = _
  rw [List.append_nil]

/-- What a class without supertypes lists under a name, by what it declares. -/
theorem filter_name_listing_perm (h : scope.supertypes = []) (name : Name) :
    (scope.listing.members.filter fun m => m.name = name).Perm
      ((scope.declared.members.filter scope.declared.isFound).filter fun m => m.name = name) := by
  have hfunctions : scope.functions name = scope.declared.members.filter
      fun m => m.kind = .function && m.name = name := by
    rw [functions, lookup_of_supertypes_eq_nil h]
    rfl
  have hproperties : scope.properties name = scope.declared.members.filter
      fun m => m.kind = .property && m.name = name := by
    rw [properties, lookup_of_supertypes_eq_nil h]
    rfl
  rw [filter_listing_members, hfunctions, hproperties, classifier?, ← FlatScope.filter_isFirst]
  -- The three parts of the listing exclude one another.
  refine ((filter_append_filter_perm ?_).append_right _).trans
    ((filter_append_filter_perm ?_).trans ?_)
  · intro m _
    cases m.kind <;> simp
  · intro m _
    cases m.kind <;> simp [DeclarationKind.isClassifier]
  · rw [List.filter_filter]
    refine .of_eq (List.filter_congr fun m _ => ?_)
    rw [FlatScope.isFound]
    cases m.kind <;> simp [DeclarationKind.isClassifier, Bool.and_comm]

/-- A class without supertypes lists those of its members that are found under their names. -/
theorem listing_perm (h : scope.supertypes = []) :
    scope.listing.members.Perm (scope.declared.members.filter scope.declared.isFound) :=
  perm_of_forall_filter Member.name (filter_name_listing_perm h)

/-- A class that has nothing to inherit has the functions, properties and classifiers of the flat
scope of its declarations. But for values, which cannot be looked up, its listing has the functions
and properties of the flat one, and of the classifiers those that are the first with their names. -/
theorem refines_flatScope (scope : ClassScope) (h : scope.supertypes = []) :
    (∀ name, scope.functions name = scope.declared.functions name ∧
      scope.properties name = scope.declared.properties name ∧
      scope.classifier? name = scope.declared.classifier? name) ∧
    ∀ kinds wanted, ((scope.listed kinds wanted).filter fun m => m.kind ≠ .value).Perm
      ((scope.declared.listing kinds wanted).filter fun m =>
        m.kind ≠ .value && (!m.kind.isClassifier || scope.declared.isFirst m)) := by
  refine ⟨fun name => ⟨?_, ?_, rfl⟩, fun kinds wanted => ?_⟩
  · rw [functions, lookup_of_supertypes_eq_nil h]
    rfl
  · rw [properties, lookup_of_supertypes_eq_nil h]
    rfl
  · refine (((listing_perm h).filter _).filter _).trans (.of_eq ?_)
    rw [FlatScope.listing, List.filter_filter, List.filter_filter, List.filter_filter]
    refine List.filter_congr fun m _ => ?_
    rw [FlatScope.isFound]
    cases m.kind <;> simp [Bool.and_comm]

/-! ### A class and an alias with one name -/

/-- A class without supertypes that declares some members. -/
def holder (members : List Declaration) : ClassScope :=
  ⟨⟨"Holder"⟩, .class { name := ⟨"Holder"⟩ } .class [] members, []⟩

/-- The type without arguments that a name stands for. -/
def plain (classifier : String) : TypeExpr := ⟨⟨classifier⟩, [], false⟩

/-- Two classifiers with one name. -/
def twins : List Declaration :=
  [.class { name := ⟨"Twin"⟩ } .class [] [],
    .typeAlias { name := ⟨"Twin"⟩ } (plain "Int") (plain "Int")]

/-- A value. -/
def constant : Declaration := .value { name := ⟨"constant"⟩ } (plain "Int")

/-- Of the two the listing has the first, which is found under their name. -/
theorem refines_flatScope_twins :
    (holder twins).supertypes = [] ∧
    (∀ name, (holder twins).functions name = (holder twins).declared.functions name ∧
      (holder twins).properties name = (holder twins).declared.properties name ∧
      (holder twins).classifier? name = (holder twins).declared.classifier? name) ∧
    ∀ kinds wanted, (((holder twins).listed kinds wanted).filter fun m => m.kind ≠ .value).Perm
      (((holder twins).declared.listing kinds wanted).filter fun m =>
        m.kind ≠ .value && (!m.kind.isClassifier || (holder twins).declared.isFirst m)) :=
  ⟨rfl, refines_flatScope (holder twins) rfl⟩

/-- The two listings need not have the same members. A second classifier with one name is in the
flat one only, and so is a value. -/
theorem not_forall_listed_perm_listing :
    (¬ ∀ scope : ClassScope, scope.supertypes = [] →
      (∀ m ∈ scope.declared.members, m.kind ≠ .value) → ∀ kinds wanted,
        (scope.listed kinds wanted).Perm (scope.declared.listing kinds wanted)) ∧
    ¬ ∀ scope : ClassScope, scope.supertypes = [] →
      (scope.declared.members.map Member.name).Nodup → ∀ kinds wanted,
        (scope.listed kinds wanted).Perm (scope.declared.listing kinds wanted) := by
  constructor
  · intro hclaim
    have hlength := (hclaim (holder twins) rfl (by decide) .all fun _ => true).length_eq
    have hlisted : ((holder twins).listed .all fun _ => true).length = 1 := by decide
    have hflat : ((holder twins).declared.listing .all fun _ => true).length = 2 := by decide
    omega
  · intro hclaim
    have hlength := (hclaim (holder [constant]) rfl (by decide) .all fun _ => true).length_eq
    have hlisted : ((holder [constant]).listed .all fun _ => true).length = 0 := by decide
    have hflat : ((holder [constant]).declared.listing .all fun _ => true).length = 1 := by decide
    omega

end ClassScope

end DeclMerge
