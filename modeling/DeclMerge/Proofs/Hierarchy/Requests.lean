import DeclMerge.Proofs.Hierarchy.Progress

/-!
# Requests with caches

A request to a class gives what the class has by itself, whatever the caches have come to. A class
passes every look-up on to its supertypes, so it comes to all classes above. A listing makes the
listings of all classes above, and looks up all the names of each of them.

## Main definitions

* `Hierarchy.lookUps`, `Hierarchy.listingLookUps` — the look-ups that come with a request

## Main results

* `Hierarchy.Coherent.request_eq` — a look-up with caches
* `Hierarchy.Coherent.requestEach_eq` — the look-ups of several names
* `Hierarchy.Coherent.requestListing_eq` — a listing with caches
-/

namespace DeclMerge.Hierarchy

variable {index : ClassIndex} {hierarchy : Hierarchy} {scope : ClassScope}
  {scopes : List ClassScope} {kind : Callable} {name : Name} {running done : Set Slot}
  {listings : Set QualifiedName} {caches : Caches}

/-- A look-up of a class, and with it the same look-up of all classes above. -/
def lookUps (hierarchy : Hierarchy) (owner : QualifiedName) (kind : Callable) (name : Name) :
    Set Slot :=
  {slot | hierarchy.Upward owner slot.owner ∧ slot.kind = kind ∧ slot.name = name}

/-- If each scope of a list answers with its members and comes to look up what goes with that, so
do all of them together. -/
theorem exists_requestMembers
    (hrequest : ∀ scope ∈ scopes, ∀ done caches, hierarchy.Progress running done listings caches →
      ∃ caches', scope.request kind name caches = (scope.lookup kind name, caches') ∧
        hierarchy.Progress running (done ∪ hierarchy.lookUps scope.name kind name) listings caches')
    (h : hierarchy.Progress running done listings caches) :
    ∃ caches', ClassScope.requestMembers kind name scopes caches =
        (ClassScope.membersOf kind name scopes, caches') ∧
      hierarchy.Progress running
        (done ∪ {slot | ∃ scope ∈ scopes, slot ∈ hierarchy.lookUps scope.name kind name}) listings
        caches' := by
  induction scopes generalizing done caches with
  | nil => exact ⟨caches, rfl, by simpa using h⟩
  | cons first rest ih =>
    -- A scope may find that the scopes before it have done part of its work.
    obtain ⟨middle, hfirst, hmiddle⟩ := hrequest first List.mem_cons_self done caches h
    obtain ⟨caches', hrest, hafter⟩ :=
      ih (fun scope hscope => hrequest scope (List.mem_cons_of_mem first hscope)) hmiddle
    refine ⟨caches', ?_, ?_⟩
    · rw [ClassScope.requestMembers, ClassScope.membersOf]
      simp only [hfirst, hrest]
    · simpa [Set.union_assoc, Set.ofPred_or] using hafter

/-- The look-ups above a class are those that go with the same look-up of its supertypes. -/
theorem Coherent.insert_lookUps (h : hierarchy.Coherent index) (hscope : scope ∈ hierarchy.scopes)
    (done : Set Slot) :
    insert ⟨scope.name, kind, name⟩
      (done ∪ {slot | ∃ supertype ∈ scope.supertypes,
        slot ∈ hierarchy.lookUps supertype.name kind name}) =
      done ∪ hierarchy.lookUps scope.name kind name := by
  ext ⟨owner, kind', name'⟩
  simp only [lookUps, Set.mem_insert_iff, Set.mem_union, Set.mem_ofPred_eq, Slot.mk.injEq,
    h.upward_iff hscope]
  constructor
  · rintro (⟨rfl, rfl, rfl⟩ | hdone | ⟨supertype, hsupertype, hupward, hpair⟩)
    · exact .inr ⟨.inl rfl, rfl, rfl⟩
    · exact .inl hdone
    · exact .inr ⟨.inr ⟨supertype, hsupertype, hupward⟩, hpair⟩
  · rintro (hdone | ⟨rfl | ⟨supertype, hsupertype, hupward⟩, hpair⟩)
    · exact .inr (.inl hdone)
    · exact .inl ⟨rfl, hpair⟩
    · exact .inr (.inr ⟨supertype, hsupertype, hupward, hpair⟩)

/-- A request gives the value that the class has by itself, and afterwards the look-up is done of
the class and of all above, if none of these is running it. -/
theorem Coherent.request_eq (h : hierarchy.Coherent index) (hscope : scope ∈ hierarchy.scopes)
    (kind : Callable) (name : Name)
    (hidle : ∀ slot ∈ running, ¬ hierarchy.Upward scope.name slot.owner)
    (hprogress : hierarchy.Progress running done listings caches) :
    ∃ caches', scope.request kind name caches = (scope.lookup kind name, caches') ∧
      hierarchy.Progress running (done ∪ hierarchy.lookUps scope.name kind name) listings
        caches' := by
  revert running done caches
  refine h.induction (motive := fun scope => ∀ {running done : Set Slot} {caches : Caches},
    (∀ slot ∈ running, ¬ hierarchy.Upward scope.name slot.owner) →
    hierarchy.Progress running done listings caches →
    ∃ caches', scope.request kind name caches = (scope.lookup kind name, caches') ∧
      hierarchy.Progress running (done ∪ hierarchy.lookUps scope.name kind name) listings
        caches') ?_ scope hscope
  intro scope hscope ih running done caches hidle hprogress
  have hnew : (⟨scope.name, kind, name⟩ : Slot) ∉ running := fun hmem => hidle _ hmem .refl
  by_cases hdone : ⟨scope.name, kind, name⟩ ∈ done
  · -- What is done of the class is done of all classes above.
    have hcell := (hprogress.full_iff scope hscope kind name _).mpr ⟨hdone, rfl⟩
    refine ⟨caches, ClassScope.request_of_full hcell, ?_⟩
    have hsubset : hierarchy.lookUps scope.name kind name ⊆ done := by
      rintro ⟨owner, _, _⟩ ⟨hupward, rfl, rfl⟩
      exact hprogress.done_upward _ hdone owner hupward
    rwa [Set.union_eq_self_of_subset_right hsubset]
  · have hcell := hprogress.cell?_eq_none hscope hnew hdone
    -- No supertype leads back to the class, so none of them is running anything either.
    have hidle' : ∀ supertype ∈ scope.supertypes,
        ∀ slot ∈ insert ⟨scope.name, kind, name⟩ running,
          ¬ hierarchy.Upward supertype.name slot.owner := by
      intro supertype hsupertype slot hslot hupward
      have hstep := (h.directSupertype_iff hscope).mpr ⟨supertype, hsupertype, rfl⟩
      rcases Set.mem_insert_iff.mp hslot with rfl | hslot
      · exact h.acyclic scope.name (.head' hstep hupward)
      · exact hidle slot hslot (.head hstep hupward)
    obtain ⟨caches', hmembers, hafter⟩ := exists_requestMembers
      (fun supertype hsupertype done caches =>
        ih supertype hsupertype (hidle' supertype hsupertype)) (hprogress.begin hcell hdone)
    have hlookup : ClassScope.lookupFrom scope.name scope.declaration kind name
        (ClassScope.membersOf kind name scope.supertypes) = scope.lookup kind name :=
      (ClassScope.lookup_eq kind name scope).symm
    refine ⟨_, (ClassScope.request_of_absent hcell hmembers).trans (by rw [hlookup]), ?_⟩
    rw [← h.insert_lookUps hscope]
    refine hafter.finish h.nodup hscope hnew fun top htop => .inr ?_
    obtain ⟨supertype, hsupertype, hupward⟩ := (h.transGen_iff hscope).mp htop
    exact ⟨supertype, hsupertype, hupward, rfl, rfl⟩

/-! ### Listings -/

/-- The look-ups of several names, for both kinds, of a class and of all classes above. -/
def lookUpsOf (hierarchy : Hierarchy) (owner : QualifiedName) (names : List Name) : Set Slot :=
  {slot | hierarchy.Upward owner slot.owner ∧ slot.name ∈ names}

theorem union_lookUps_union_lookUpsOf (owner : QualifiedName) (name : Name) (names : List Name)
    (done : Set Slot) :
    done ∪ hierarchy.lookUps owner .function name ∪ hierarchy.lookUps owner .property name ∪
      hierarchy.lookUpsOf owner names = done ∪ hierarchy.lookUpsOf owner (name :: names) := by
  ext ⟨owner', kind, name'⟩
  cases kind <;>
    simp only [lookUps, lookUpsOf, Set.mem_union, Set.mem_ofPred_eq, List.mem_cons, reduceCtorEq,
      false_and, and_false, or_false, true_and] <;>
    tauto

/-- Several names are looked up one after the other, functions before properties. -/
theorem Coherent.requestEach_eq (h : hierarchy.Coherent index) (hscope : scope ∈ hierarchy.scopes)
    {α : Type} (collect : Resolution → List α) (names : List Name)
    (hprogress : hierarchy.Progress ∅ done listings caches) :
    ∃ caches', scope.requestEach collect names caches =
        (names.flatMap fun name =>
          collect (scope.lookup .function name) ++ collect (scope.lookup .property name), caches') ∧
      hierarchy.Progress ∅ (done ∪ hierarchy.lookUpsOf scope.name names) listings caches' := by
  induction names generalizing done caches with
  | nil => exact ⟨caches, rfl, by simpa [lookUpsOf] using hprogress⟩
  | cons name names ih =>
    have hidle : ∀ slot ∈ (∅ : Set Slot), ¬ hierarchy.Upward scope.name slot.owner :=
      fun slot hslot => absurd hslot (Set.notMem_empty slot)
    obtain ⟨caches₁, hfunctions, hafter⟩ := h.request_eq hscope .function name hidle hprogress
    obtain ⟨caches₂, hproperties, hafter⟩ := h.request_eq hscope .property name hidle hafter
    obtain ⟨caches', hrest, hafter⟩ := ih hafter
    refine ⟨caches', ?_, union_lookUps_union_lookUpsOf scope.name name names done ▸ hafter⟩
    rw [ClassScope.requestEach]
    simp only [hfunctions, hproperties, hrest, List.flatMap_cons]

/-- The look-ups that a listing asks for: all names of the class and of each class above. -/
def listingLookUps (hierarchy : Hierarchy) (owner : QualifiedName) : Set Slot :=
  {slot | ∃ scope ∈ hierarchy.scopes, hierarchy.Upward owner scope.name ∧
    slot ∈ hierarchy.lookUpsOf scope.name scope.listing.names}

/-- If each scope of a list gives its listing and comes to look up what goes with that, so do all of
them together. -/
theorem exists_requestListedNames
    (hrequest : ∀ scope ∈ scopes, ∀ done listings caches,
      hierarchy.Progress ∅ done listings caches →
      ∃ caches', scope.requestListing caches = (scope.listing, caches') ∧
        hierarchy.Progress ∅ (done ∪ hierarchy.listingLookUps scope.name)
          (listings ∪ {owner | hierarchy.Upward scope.name owner}) caches')
    (h : hierarchy.Progress ∅ done listings caches) :
    ∃ caches', ClassScope.requestListedNames scopes caches =
        (ClassScope.listedNames scopes, caches') ∧
      hierarchy.Progress ∅
        (done ∪ {slot | ∃ scope ∈ scopes, slot ∈ hierarchy.listingLookUps scope.name})
        (listings ∪ {owner | ∃ scope ∈ scopes, hierarchy.Upward scope.name owner}) caches' := by
  induction scopes generalizing done listings caches with
  | nil => exact ⟨caches, rfl, by simpa using h⟩
  | cons first rest ih =>
    obtain ⟨middle, hfirst, hmiddle⟩ := hrequest first List.mem_cons_self done listings caches h
    obtain ⟨caches', hrest, hafter⟩ :=
      ih (fun scope hscope => hrequest scope (List.mem_cons_of_mem first hscope)) hmiddle
    refine ⟨caches', ?_, ?_⟩
    · rw [ClassScope.requestListedNames, ClassScope.listedNames]
      simp only [hfirst, hrest]
    · simpa [Set.union_assoc, Set.ofPred_or] using hafter

/-- The look-ups for a listing are those for the listings of the supertypes and those of the names
of the class. -/
theorem Coherent.union_listingLookUps (h : hierarchy.Coherent index)
    (hscope : scope ∈ hierarchy.scopes) (done : Set Slot) :
    done ∪ {slot | ∃ supertype ∈ scope.supertypes,
      slot ∈ hierarchy.listingLookUps supertype.name} ∪
      hierarchy.lookUpsOf scope.name scope.listing.names =
    done ∪ hierarchy.listingLookUps scope.name := by
  ext slot
  rw [Set.mem_union, Set.mem_union, Set.mem_union, or_assoc]
  refine or_congr_right ⟨?_, ?_⟩
  · rintro (⟨supertype, hsupertype, top, htop, hupward, hslot⟩ | hslot)
    · exact ⟨top, htop, (h.upward_iff hscope).mpr (.inr ⟨supertype, hsupertype, hupward⟩), hslot⟩
    · exact ⟨scope, hscope, .refl, hslot⟩
  · rintro ⟨top, htop, hupward, hslot⟩
    rcases (h.upward_iff hscope).mp hupward with hname | ⟨supertype, hsupertype, hupward⟩
    · exact .inr (eq_of_name_eq h.nodup hscope htop hname.symm ▸ hslot)
    · exact .inl ⟨supertype, hsupertype, top, htop, hupward, hslot⟩

/-- The classes above a class, and the class itself, by way of its supertypes. -/
theorem Coherent.insert_upward (h : hierarchy.Coherent index) (hscope : scope ∈ hierarchy.scopes)
    (listings : Set QualifiedName) :
    insert scope.name (listings ∪
      {owner | ∃ supertype ∈ scope.supertypes, hierarchy.Upward supertype.name owner}) =
      listings ∪ {owner | hierarchy.Upward scope.name owner} := by
  ext owner
  simp only [Set.mem_insert_iff, Set.mem_union, Set.mem_ofPred_eq, h.upward_iff hscope]
  rw [or_left_comm, eq_comm]

/-- A listing that has been made brings nothing new. -/
theorem Progress.listingLookUps_subset (h : hierarchy.Progress running done listings caches)
    {owner : QualifiedName} (howner : owner ∈ listings) :
    hierarchy.listingLookUps owner ⊆ done := by
  rintro ⟨top, kind, name⟩ ⟨scope, hscope, hupward, hupward', hname⟩
  have hlisted := h.listings_upward owner howner scope.name hupward
  exact h.done_upward _ (h.done_of_listed scope hscope hlisted name hname kind) top hupward'

/-- A request for a listing gives the listing that the class has by itself, and afterwards all its
names are looked up, and those of the classes above. -/
theorem Coherent.requestListing_eq (h : hierarchy.Coherent index)
    (hscope : scope ∈ hierarchy.scopes) (hprogress : hierarchy.Progress ∅ done listings caches) :
    ∃ caches', scope.requestListing caches = (scope.listing, caches') ∧
      hierarchy.Progress ∅ (done ∪ hierarchy.listingLookUps scope.name)
        (listings ∪ {owner | hierarchy.Upward scope.name owner}) caches' := by
  refine h.induction (motive := fun scope => ∀ done listings caches,
    hierarchy.Progress ∅ done listings caches →
    ∃ caches', scope.requestListing caches = (scope.listing, caches') ∧
      hierarchy.Progress ∅ (done ∪ hierarchy.listingLookUps scope.name)
        (listings ∪ {owner | hierarchy.Upward scope.name owner}) caches') ?_
    scope hscope done listings caches hprogress
  intro scope hscope ih done listings caches hprogress
  by_cases hlisted : scope.name ∈ listings
  · have hlisting := (hprogress.listing_iff scope hscope _).mpr ⟨hlisted, rfl⟩
    refine ⟨caches, ClassScope.requestListing_of_some hlisting, ?_⟩
    have habove : {owner | hierarchy.Upward scope.name owner} ⊆ listings :=
      fun top htop => hprogress.listings_upward scope.name hlisted top htop
    rwa [Set.union_eq_self_of_subset_right (hprogress.listingLookUps_subset hlisted),
      Set.union_eq_self_of_subset_right habove]
  · -- The supertypes make their listings first, and then the names of the class are looked up.
    have hlisting : caches.listing? scope.name = none :=
      Option.eq_none_iff_forall_ne_some.mpr fun value hvalue =>
        hlisted ((hprogress.listing_iff scope hscope value).mp hvalue).1
    obtain ⟨caches₁, hnames, hafter⟩ := exists_requestListedNames ih hprogress
    obtain ⟨caches₂, hcallables, hafter⟩ :=
      h.requestEach_eq hscope Resolution.members scope.listing.names hafter
    have heq : scope.listing = ⟨ClassScope.callableNamesFrom scope.declared
        (ClassScope.listedNames scope.supertypes), scope.listing.names.flatMap (fun name =>
          (scope.lookup .function name).members ++ (scope.lookup .property name).members) ++
        ClassScope.classifiers scope.declared⟩ := by
      obtain ⟨owner, declaration, supertypes⟩ := scope
      rw [ClassScope.listing]
      rfl
    refine ⟨caches₂.keepListing scope.name scope.listing, ?_, ?_⟩
    · rw [heq]
      exact ClassScope.requestListing_of_none hlisting hnames (heq ▸ hcallables)
    · rw [h.union_listingLookUps hscope] at hafter
      rw [← h.insert_upward hscope]
      exact hafter.keepListing h.nodup hscope
        (fun top htop => .inr ((h.transGen_iff hscope).mp htop))
        fun name hname kind => .inr ⟨scope, hscope, .refl, .refl, hname⟩

end DeclMerge.Hierarchy
