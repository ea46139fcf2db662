import DeclMerge.Proofs.Member.Joining
import DeclMerge.Proofs.Member.Lookup

/-!
# The listing of a class

The listing of a class goes through the names of its callable members, and a name that it does not
go through has nothing to it: no member, and no clash either. So what the listing has under a name
is what the name has when it is looked up, in the same order, and likewise for clashes. A name whose
members have all clashed somewhere above is not passed down, but then there is nothing below to be
found under it.

## Main definitions

* `ClassScope.ListsExactly` — a listing that has under a name what the name has

## Main results

* `ClassScope.lookup_of_not_mem_names` — there is nothing under a name that is not listed
* `ClassScope.listsExactly` — every listing has under every name what the name has
-/

namespace DeclMerge

namespace Resolution

variable {owner : QualifiedName} {name : Name} {declared fromSupertypes : List Member}

theorem of_nil (owner : QualifiedName) (name : Name) : Resolution.of owner name [] [] = ⟨[], []⟩ :=
  rfl

/-- The clashes of a name are clashes of that name. -/
theorem name_of_mem_clashes {clash : Clash}
    (h : clash ∈ (Resolution.of owner name declared fromSupertypes).clashes) :
    clash.name = name := by
  rcases mem_clashes_of_iff.mp h with hhiding | ⟨signature, hjoining⟩
  · obtain ⟨m, -, d, kind, -, -, rfl⟩ := mem_hidingClashes.mp hhiding
    rfl
  · obtain ⟨-, ⟨rfl, -⟩ | ⟨rfl, -⟩⟩ := mem_clashes_joinPart.mp hjoining <;> rfl

end Resolution

namespace FlatScope

variable {scope : FlatScope} {name : Name} {m : Member}

theorem isClassifier_and_name_of_classifier? (h : scope.classifier? name = some m) :
    m ∈ scope.members ∧ m.kind.isClassifier = true ∧ m.name = name := by
  have hfound := List.find?_some h
  rw [Bool.and_eq_true, decide_eq_true_iff] at hfound
  exact ⟨List.mem_of_find?_eq_some h, hfound⟩

theorem admits_classifiers {m : Member} (h : m.kind.isClassifier = true) :
    KindSet.admits { classifiers := true } m.declaration = true := by
  rw [Member.kind] at h
  rw [KindSet.admits]
  revert h
  cases m.declaration.kind <;> decide

/-- A name of no classifier has none. -/
theorem classifier?_of_not_mem_names (h : name ∉ scope.names { classifiers := true }) :
    scope.classifier? name = none := by
  refine Option.eq_none_iff_forall_ne_some.mpr fun m hm => h ?_
  obtain ⟨hmem, hkind, rfl⟩ := isClassifier_and_name_of_classifier? hm
  exact List.mem_eraseDups.mpr
    (List.mem_map_of_mem (List.mem_filter.mpr ⟨hmem, admits_classifiers hkind⟩))

end FlatScope

/-- What is collected under different names can be told by its name. -/
theorem filter_flatMap_names {α : Type} {nameOf : α → Name} {f : Name → List α} {names : List Name}
    (hnodup : names.Nodup) (hname : ∀ name, ∀ value ∈ f name, nameOf value = name)
    (hnone : ∀ name, name ∉ names → f name = []) (name : Name) :
    (names.flatMap f).filter (fun value => nameOf value = name) = f name := by
  rw [filter_flatMap_of_nodup hname hnodup]
  split
  · rfl
  · rename_i habsent
    exact (hnone name habsent).symm

namespace ClassScope

variable {scope : ClassScope} {kind : Callable} {name : Name} {m : Member}

theorem nodup_listing_names (scope : ClassScope) : scope.listing.names.Nodup := by
  obtain ⟨owner, declaration, supertypes⟩ := scope
  rw [listing]
  exact nodup_eraseDups _

/-- There is nothing under a name that is not listed. -/
theorem lookup_of_not_mem_names (h : name ∉ scope.listing.names) :
    scope.lookup kind name = ⟨[], []⟩ := by
  have hdeclared : scope.declared.ofKind kind.kind name = [] := by
    refine List.eq_nil_iff_forall_not_mem.mpr fun m hm => ?_
    have hmem : m ∈ (scope.lookup kind name).members := by
      rw [lookup_eq, Resolution.members_of]
      exact List.mem_append_left _ hm
    exact h (mem_listing_names hmem)
  have hinherited : membersOf kind name scope.supertypes = [] := by
    refine List.eq_nil_iff_forall_not_mem.mpr fun m hm => h ?_
    obtain ⟨supertype, hsupertype, hmem⟩ := mem_membersOf.mp hm
    exact mem_listing_names_of_mem_supertypes hsupertype (mem_listing_names hmem) hmem
  rw [lookup_eq, hdeclared, hinherited, Resolution.of_nil]

/-- The clashes of a class are those of all names. -/
theorem mem_clashes_iff {clash : Clash} : clash ∈ scope.clashes ↔
    ∃ kind name, clash ∈ (scope.lookup kind name).clashes := by
  rw [clashes, List.mem_flatMap]
  constructor
  · rintro ⟨name, -, hclash⟩
    rcases List.mem_append.mp hclash with hfunction | hproperty
    · exact ⟨.function, name, hfunction⟩
    · exact ⟨.property, name, hproperty⟩
  · rintro ⟨kind, name, hclash⟩
    refine ⟨name, by_contra fun habsent => ?_, List.mem_append.mpr ?_⟩
    · simp [lookup_of_not_mem_names habsent] at hclash
    · cases kind with
      | function => exact .inl hclash
      | property => exact .inr hclash

/-- The callable members of a name, functions first. -/
def callables (scope : ClassScope) (name : Name) : List Member :=
  scope.functions name ++ scope.properties name

/-- The clashes of a name, those of functions first. -/
def clashesOf (scope : ClassScope) (name : Name) : List Clash :=
  (scope.lookup .function name).clashes ++ (scope.lookup .property name).clashes

theorem listing_members_eq (scope : ClassScope) : scope.listing.members =
    scope.listing.names.flatMap scope.callables ++ classifiers scope.declared := by
  obtain ⟨owner, declaration, supertypes⟩ := scope
  rw [listing]
  rfl

/-- The listed callable members of a name are those found by looking it up. -/
theorem filter_callables (scope : ClassScope) (name : Name) :
    (scope.listing.names.flatMap scope.callables).filter (fun m => m.name = name) =
      scope.callables name := by
  refine filter_flatMap_names scope.nodup_listing_names (fun name m hm => ?_)
    (fun name h => ?_) name
  · rcases List.mem_append.mp hm with hfunction | hproperty
    · exact (kind_eq_and_name_eq hfunction).2
    · exact (kind_eq_and_name_eq hproperty).2
  · rw [callables, functions, properties, lookup_of_not_mem_names h, lookup_of_not_mem_names h]
    rfl

/-- The listed classifier of a name is the one found by looking it up. -/
theorem filter_classifiers (scope : ClassScope) (name : Name) :
    (classifiers scope.declared).filter (fun m => m.name = name) =
      (scope.classifier? name).toList := by
  rw [classifiers, List.filterMap_eq_flatMap_toList]
  refine filter_flatMap_names (nodup_eraseDups _) (fun name m hm => ?_) (fun name h => ?_) name
  · exact (FlatScope.isClassifier_and_name_of_classifier? (Option.mem_toList.mp hm)).2.2
  · rw [FlatScope.classifier?_of_not_mem_names h]
    rfl

/-- What the listing has under a name: functions, properties and a classifier, in this order. -/
theorem filter_listing_members (scope : ClassScope) (name : Name) :
    scope.listing.members.filter (fun m => m.name = name) =
      scope.functions name ++ scope.properties name ++ (scope.classifier? name).toList := by
  rw [listing_members_eq, List.filter_append, filter_callables, filter_classifiers, callables]

/-- Members of one kind are admitted by a set of kinds together. -/
theorem filter_admits {kinds : KindSet} {members : List Member} {admitted : Bool}
    (h : ∀ m ∈ members, kinds.admits m.declaration = admitted) :
    members.filter (fun m => kinds.admits m.declaration) = if admitted then members else [] := by
  cases admitted with
  | true => exact List.filter_eq_self.mpr h
  | false => exact List.filter_eq_nil_iff.mpr fun m hm => by simp [h m hm]

theorem admits_functions (kinds : KindSet) :
    ∀ m ∈ scope.functions name, kinds.admits m.declaration = kinds.functions := by
  intro m hm
  rw [KindSet.admits, show m.declaration.kind = .function from (kind_eq_and_name_eq hm).1]
  rfl

theorem admits_properties (kinds : KindSet) :
    ∀ m ∈ scope.properties name, kinds.admits m.declaration = kinds.properties := by
  intro m hm
  rw [KindSet.admits, show m.declaration.kind = .property from (kind_eq_and_name_eq hm).1]
  rfl

theorem admits_classifier (kinds : KindSet) :
    ∀ m ∈ (scope.classifier? name).toList, kinds.admits m.declaration = kinds.classifiers := by
  intro m hm
  obtain ⟨-, hkind, -⟩ := FlatScope.isClassifier_and_name_of_classifier? (Option.mem_toList.mp hm)
  rw [Member.kind] at hkind
  rw [KindSet.admits]
  cases hcases : m.declaration.kind with
  | «class» => rfl
  | typeAlias => rfl
  | _ => simp [hcases, DeclarationKind.isClassifier] at hkind

/-- What is listed of some kinds under a name. -/
theorem filter_listed (scope : ClassScope) (kinds : KindSet) (name : Name) :
    (scope.listed kinds fun _ => true).filter (fun m => m.name = name) =
      (if kinds.functions then scope.functions name else []) ++
        (if kinds.properties then scope.properties name else []) ++
        (if kinds.classifiers then (scope.classifier? name).toList else []) := by
  simp only [listed, Bool.and_true]
  rw [List.filter_comm, filter_listing_members, List.filter_append, List.filter_append,
    filter_admits (admits_functions kinds), filter_admits (admits_properties kinds),
    filter_admits (admits_classifier kinds)]

/-- A listing has under a name what the name has when it is looked up, no more and no less. -/
structure ListsExactly (scope : ClassScope) (name : Name) : Prop where
  functions_eq : (scope.listed { functions := true } fun _ => true).filter
    (fun m => m.name = name) = scope.functions name
  properties_eq : (scope.listed { properties := true } fun _ => true).filter
    (fun m => m.name = name) = scope.properties name
  classifiers_eq : (scope.listed { classifiers := true } fun _ => true).filter
    (fun m => m.name = name) = (scope.classifier? name).toList
  clashes_eq : scope.clashes.filter (fun clash => clash.name = name) =
    (scope.lookup .function name).clashes ++ (scope.lookup .property name).clashes

theorem filter_clashes (scope : ClassScope) (name : Name) :
    scope.clashes.filter (fun clash => clash.name = name) = scope.clashesOf name := by
  change (scope.listing.names.flatMap scope.clashesOf).filter _ = _
  refine filter_flatMap_names scope.nodup_listing_names (fun name clash hclash => ?_)
    (fun name h => ?_) name
  · rw [clashesOf, lookup_eq, lookup_eq, List.mem_append] at hclash
    exact hclash.elim Resolution.name_of_mem_clashes Resolution.name_of_mem_clashes
  · rw [clashesOf, lookup_of_not_mem_names h, lookup_of_not_mem_names h]
    rfl

/-- The listing of a class has under every name what the name has when it is looked up, and a
listing of some kinds and names is the part of it that they admit. -/
theorem listsExactly (scope : ClassScope) :
    (∀ name, scope.ListsExactly name) ∧
    ∀ kinds wanted, scope.listed kinds wanted =
      (scope.listed .all fun _ => true).filter
        fun m => kinds.admits m.declaration && wanted m.name := by
  refine ⟨fun name => ⟨?_, ?_, ?_, scope.filter_clashes name⟩, fun kinds wanted => ?_⟩
  · simpa using scope.filter_listed { functions := true } name
  · simpa using scope.filter_listed { properties := true } name
  · simpa using scope.filter_listed { classifiers := true } name
  · have hall : ∀ m ∈ scope.listing.members,
        (KindSet.all.admits m.declaration && true) = true := by
      intro m _
      rw [KindSet.admits]
      cases m.declaration.kind <;> rfl
    rw [listed, listed, List.filter_eq_self.mpr hall]

end ClassScope

end DeclMerge
