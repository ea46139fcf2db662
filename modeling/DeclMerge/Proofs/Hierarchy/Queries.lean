import DeclMerge.Hierarchy.Queries
import DeclMerge.Proofs.Hierarchy.Requests

/-!
# Caches are invisible

With caches every query gets the answer that it gets without them, and a class computes each
look-up once. A look-up that is requested of a class comes to all classes above it, and a query for
a listing requests all callable names of the class and of each class above. Nothing else is looked
up, so the number of look-ups that a class has computed can be told from the queries, whatever their
order.

## Main definitions

* `ClassScope.KnowsCallable` — the callable names of a class and of its supertypes' listings
* `Hierarchy.requested` — the look-ups that a query requests
* `Hierarchy.reached` — the look-ups that come to classes for a query
* `Hierarchy.CachesInvisible` — what can be seen of the caches

## Main results

* `Hierarchy.Coherent.ask_eq`, `Hierarchy.Coherent.mapM_ask_eq` — one query, and several
* `Hierarchy.cachesInvisible_ofClasses` — any number of queries, in any order
-/

namespace DeclMerge

/-- The name of a callable member that a class declares or that one of its direct supertypes
lists. -/
def ClassScope.KnowsCallable (scope : ClassScope) (name : Name) : Prop :=
  name ∈ scope.declared.names .callables ∨
    ∃ supertype ∈ scope.supertypes, ∃ m ∈ supertype.listed .callables fun _ => true, m.name = name

theorem ClassScope.knowsCallable_iff {scope : ClassScope} {name : Name} :
    scope.KnowsCallable name ↔ name ∈ scope.listing.names := by
  simp only [KnowsCallable, mem_listing_names_iff, mem_listedNames, namesAmong, listed,
    List.mem_map, Bool.and_true]

/-- What a step leaves is where the next one begins. -/
theorem bind_eq {σ α β : Type} {x : StateM σ α} {f : α → StateM σ β} {s s' : σ} {a : α}
    (h : x.run s = (a, s')) : (x >>= f).run s = (f a).run s' := by
  change (match x.run s with | (a, s) => (f a).run s) = _
  rw [h]

namespace Hierarchy

variable {index : ClassIndex} {hierarchy : Hierarchy} {scope : ClassScope} {running done : Set Slot}
  {listings : Set QualifiedName} {caches : Caches}

/-- The look-ups that a query to a class requests. A query for a listing or for all clashes requests
both kinds of every callable name, of the class and of each class above. -/
def requested (hierarchy : Hierarchy) (scope : ClassScope) : Query → Set Slot
  | .functions name => {⟨scope.name, .function, name⟩}
  | .properties name => {⟨scope.name, .property, name⟩}
  | .classifier _ => ∅
  | .all _ _ | .clashes =>
    {slot | ∃ top ∈ hierarchy.scopes, hierarchy.Upward scope.name top.name ∧
      slot.owner = top.name ∧ top.KnowsCallable slot.name}

/-- The look-ups that come to classes for a query: those that it requests of the class or of a class
below. -/
def reached (hierarchy : Hierarchy) (asked : QualifiedName × Query) : Set Slot :=
  {slot | ∃ scope, hierarchy.get? asked.1 = some scope ∧ ∃ bottom,
    ⟨bottom, slot.kind, slot.name⟩ ∈ hierarchy.requested scope asked.2 ∧
      hierarchy.Upward bottom slot.owner}

theorem reached_of_get?_eq_none {asked : QualifiedName × Query}
    (h : hierarchy.get? asked.1 = none) : hierarchy.reached asked = ∅ := by
  refine Set.eq_empty_iff_forall_notMem.mpr fun slot => ?_
  rintro ⟨scope, hget, -⟩
  simp [h] at hget

theorem reached_of_get?_eq_some {name : QualifiedName} {query : Query}
    (h : hierarchy.get? name = some scope) : hierarchy.reached (name, query) =
      {slot | ∃ bottom, ⟨bottom, slot.kind, slot.name⟩ ∈ hierarchy.requested scope query ∧
        hierarchy.Upward bottom slot.owner} := by
  simp [reached, h]

/-- A look-up that is requested comes to the class and to all classes above. -/
theorem lookUps_eq (owner : QualifiedName) (kind : Callable) (name : Name) :
    {slot : Slot | ∃ bottom, (⟨bottom, slot.kind, slot.name⟩ : Slot) ∈
        ({⟨owner, kind, name⟩} : Set Slot) ∧ hierarchy.Upward bottom slot.owner} =
      hierarchy.lookUps owner kind name := by
  ext ⟨owner', kind', name'⟩
  simp only [lookUps, Set.mem_ofPred_eq, Set.mem_singleton_iff, Slot.mk.injEq]
  constructor
  · rintro ⟨bottom, ⟨rfl, rfl, rfl⟩, hupward⟩
    exact ⟨hupward, rfl, rfl⟩
  · rintro ⟨hupward, rfl, rfl⟩
    exact ⟨owner, ⟨rfl, rfl, rfl⟩, hupward⟩

/-- The look-ups that a listing requests come to the classes that they are requested of and to all
classes above these. -/
theorem listingLookUps_eq (hierarchy : Hierarchy) (scope : ClassScope) :
    {slot | ∃ bottom, ⟨bottom, slot.kind, slot.name⟩ ∈ hierarchy.requested scope .clashes ∧
      hierarchy.Upward bottom slot.owner} = hierarchy.listingLookUps scope.name := by
  ext ⟨owner, kind, name⟩
  simp only [requested, listingLookUps, lookUpsOf, Set.mem_ofPred_eq,
    ClassScope.knowsCallable_iff]
  constructor
  · rintro ⟨_, ⟨top, htop, hupward, rfl, hname⟩, hupward'⟩
    exact ⟨top, htop, hupward, hupward', hname⟩
  · rintro ⟨top, htop, hupward, hupward', hname⟩
    exact ⟨top.name, ⟨top, htop, hupward, rfl, hname⟩, hupward'⟩

/-- A query for clashes gives the clashes of all names. -/
theorem Coherent.requestClashes_eq (h : hierarchy.Coherent index)
    (hscope : scope ∈ hierarchy.scopes) (hprogress : hierarchy.Progress ∅ done listings caches) :
    ∃ caches' listings', scope.requestClashes caches = (scope.clashes, caches') ∧
      hierarchy.Progress ∅ (done ∪ hierarchy.listingLookUps scope.name) listings' caches' := by
  obtain ⟨caches₁, hlisting, hlisted⟩ := h.requestListing_eq hscope hprogress
  obtain ⟨caches₂, hclashes, hafter⟩ :=
    h.requestEach_eq hscope Resolution.clashes scope.listing.names hlisted
  -- The listing has looked all its names up already.
  have hsubset : hierarchy.lookUpsOf scope.name scope.listing.names ⊆
      done ∪ hierarchy.listingLookUps scope.name :=
    fun slot hslot => .inr ⟨scope, hscope, .refl, hslot⟩
  rw [Set.union_eq_self_of_subset_right hsubset] at hafter
  exact ⟨caches₂, _, (bind_eq hlisting).trans hclashes, hafter⟩

/-- A query to a class gets the answer that the class has by itself, and what it requests has been
looked up. -/
theorem Coherent.scopeAsk_eq (h : hierarchy.Coherent index) (hscope : scope ∈ hierarchy.scopes)
    (query : Query) (hprogress : hierarchy.Progress ∅ done listings caches) :
    ∃ caches' listings', scope.ask query caches = (scope.answer query, caches') ∧
      hierarchy.Progress ∅ (done ∪ hierarchy.reached (scope.name, query)) listings' caches' := by
  rw [reached_of_get?_eq_some (get?_name h.nodup hscope)]
  have hidle : ∀ slot ∈ (∅ : Set Slot), ¬ hierarchy.Upward scope.name slot.owner :=
    fun slot hslot => absurd hslot (Set.notMem_empty slot)
  cases query with
  | functions name =>
    obtain ⟨caches', heq, hafter⟩ := h.request_eq hscope .function name hidle hprogress
    rw [← lookUps_eq] at hafter
    exact ⟨caches', listings, bind_eq heq, hafter⟩
  | properties name =>
    obtain ⟨caches', heq, hafter⟩ := h.request_eq hscope .property name hidle hprogress
    rw [← lookUps_eq] at hafter
    exact ⟨caches', listings, bind_eq heq, hafter⟩
  | classifier name =>
    -- Classifiers are found among the declared members, without a cache.
    refine ⟨caches, listings, rfl, ?_⟩
    simpa [requested] using hprogress
  | all kinds wanted =>
    obtain ⟨caches', heq, hafter⟩ := h.requestListing_eq hscope hprogress
    rw [← listingLookUps_eq] at hafter
    exact ⟨caches', _, bind_eq (bind_eq heq), hafter⟩
  | clashes =>
    obtain ⟨caches', listings', heq, hafter⟩ := h.requestClashes_eq hscope hprogress
    rw [← listingLookUps_eq] at hafter
    exact ⟨caches', listings', bind_eq heq, hafter⟩

/-- A query gets the answer that the class has by itself, if it has a scope. -/
theorem Coherent.ask_eq (h : hierarchy.Coherent index) (asked : QualifiedName × Query)
    (hprogress : hierarchy.Progress ∅ done listings caches) :
    ∃ caches' listings', (hierarchy.ask asked).run caches =
        ((hierarchy.get? asked.1).map fun scope => scope.answer asked.2, caches') ∧
      hierarchy.Progress ∅ (done ∪ hierarchy.reached asked) listings' caches' := by
  obtain ⟨name, query⟩ := asked
  cases hget : hierarchy.get? name with
  | none =>
    refine ⟨caches, listings, ?_, ?_⟩
    · rw [ask, hget]
      rfl
    · rwa [reached_of_get?_eq_none hget, Set.union_empty]
  | some scope =>
    obtain ⟨hscope, rfl⟩ := get?_eq_some hget
    obtain ⟨caches', listings', heq, hafter⟩ := h.scopeAsk_eq hscope query hprogress
    refine ⟨caches', listings', ?_, hafter⟩
    rw [ask, hget]
    exact bind_eq heq

/-- Queries get the answers that the classes have by themselves, one after the other. -/
theorem Coherent.mapM_ask_eq (h : hierarchy.Coherent index) (asked : List (QualifiedName × Query))
    (hprogress : hierarchy.Progress ∅ done listings caches) :
    ∃ caches' listings', (asked.mapM hierarchy.ask).run caches =
        (asked.map fun query => (hierarchy.get? query.1).map fun scope => scope.answer query.2,
          caches') ∧
      hierarchy.Progress ∅ (done ∪ {slot | ∃ query ∈ asked, slot ∈ hierarchy.reached query})
        listings' caches' := by
  induction asked generalizing done listings caches with
  | nil => exact ⟨caches, listings, rfl, by simpa using hprogress⟩
  | cons first rest ih =>
    -- The caches that one query leaves are those that the next one finds.
    obtain ⟨middle, listings₁, hfirst, hmiddle⟩ := h.ask_eq first hprogress
    obtain ⟨caches', listings', hrest, hafter⟩ := ih hmiddle
    refine ⟨caches', listings', ?_, ?_⟩
    · rw [List.mapM_cons]
      exact (bind_eq hfirst).trans (bind_eq hrest)
    · simpa [Set.union_assoc, Set.ofPred_or] using hafter

/-- What can be seen of the caches of a hierarchy: nothing in the answers, and in the number of
look-ups of a class only how many different ones have come to it. -/
structure CachesInvisible (hierarchy : Hierarchy) : Prop where
  answers_eq : ∀ asked : List (QualifiedName × Query), ((asked.mapM hierarchy.ask).run {}).1 =
    asked.map fun query => ((hierarchy.ask query).run {}).1
  count_eq : ∀ (asked : List (QualifiedName × Query)) owner,
    (((asked.mapM hierarchy.ask).run {}).2.count owner : ℕ∞) = {pair : Callable × Name |
      ∃ query ∈ asked, ⟨owner, pair.1, pair.2⟩ ∈ hierarchy.reached query}.encard
  count_repeated : ∀ asked : List (QualifiedName × Query), ∀ query ∈ asked, ∀ owner,
    (((asked ++ [query]).mapM hierarchy.ask).run {}).2.count owner =
      ((asked.mapM hierarchy.ask).run {}).2.count owner

/-- In the hierarchy of any list of classes every query gets the answer that it gets first of all,
whatever has been asked before, and a class has computed each look-up that has come to it once. -/
theorem cachesInvisible_ofClasses (classes : List (QualifiedName × Declaration))
    (maxDepth : Nat) : (ofClasses classes maxDepth).1.CachesInvisible := by
  have h := coherent_ofClasses classes maxDepth
  generalize (ofClasses classes maxDepth).1 = hierarchy at h
  have hcount : ∀ (asked : List (QualifiedName × Query)) owner,
      (((asked.mapM hierarchy.ask).run {}).2.count owner : ℕ∞) = {pair : Callable × Name |
        ∃ query ∈ asked, ⟨owner, pair.1, pair.2⟩ ∈ hierarchy.reached query}.encard := by
    intro asked owner
    obtain ⟨caches, listings, heq, hprogress⟩ := h.mapM_ask_eq asked (progress_empty hierarchy)
    rw [heq, hprogress.count_eq]
    simp
  refine ⟨fun asked => ?_, hcount, fun asked query hquery owner => ?_⟩
  · obtain ⟨caches, listings, heq, -⟩ := h.mapM_ask_eq asked (progress_empty hierarchy)
    rw [heq]
    refine List.map_congr_left fun query _ => ?_
    obtain ⟨caches', listings', hquery, -⟩ := h.ask_eq query (progress_empty hierarchy)
    rw [hquery]
  · -- What a repeated query reaches has been reached before.
    have hsame : ∀ slot, (∃ other ∈ asked ++ [query], slot ∈ hierarchy.reached other) ↔
        ∃ other ∈ asked, slot ∈ hierarchy.reached other := by
      intro slot
      simp only [List.mem_append, List.mem_singleton, or_and_right, exists_or, exists_eq_left]
      exact or_iff_left_of_imp fun hslot => ⟨query, hquery, hslot⟩
    rw [← Nat.cast_inj (R := ℕ∞), hcount, hcount]
    simp only [hsame]

end Hierarchy

end DeclMerge
