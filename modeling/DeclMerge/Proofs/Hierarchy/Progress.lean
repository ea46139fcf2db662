import DeclMerge.Hierarchy.Basic
import DeclMerge.Proofs.Hierarchy.Coverage
import DeclMerge.Proofs.Member.Caches
import Mathlib.Data.Set.Card

/-!
# How far the caches of a hierarchy have come

At every moment some look-ups are running and some are done, and some classes have their listings.
That is all there is to the caches: every look-up that is done has the value that the class has by
itself, and each class has computed as many look-ups as it has running or done. Whatever is done of
a class is done of all classes above it, since a class asks its supertypes for everything that it is
asked for.

## Main definitions

* `Hierarchy.Progress` — the caches, given what is running, done and listed

## Main results

* `Hierarchy.Progress.begin`, `Hierarchy.Progress.finish`, `Hierarchy.Progress.keepListing` — the
  steps of requests
-/

namespace DeclMerge.Hierarchy

variable {index : ClassIndex} {hierarchy : Hierarchy} {scope : ClassScope} {kind : Callable}
  {name : Name} {running done : Set Slot} {listings : Set QualifiedName} {caches : Caches}
  {slot : Slot}

/-- What the caches hold when some look-ups are running, some are done and some classes have their
listings. -/
structure Progress (hierarchy : Hierarchy) (running done : Set Slot)
    (listings : Set QualifiedName) (caches : Caches) : Prop where
  full_iff : ∀ scope ∈ hierarchy.scopes, ∀ kind name value,
    caches.cell? ⟨scope.name, kind, name⟩ = some (some value) ↔
      ⟨scope.name, kind, name⟩ ∈ done ∧ value = scope.lookup kind name
  empty_iff : ∀ slot, caches.cell? slot = some none ↔ slot ∈ running
  listing_iff : ∀ scope ∈ hierarchy.scopes, ∀ value,
    caches.listing? scope.name = some value ↔ scope.name ∈ listings ∧ value = scope.listing
  count_eq : ∀ owner, (caches.count owner : ℕ∞) =
    {pair : Callable × Name | ⟨owner, pair.1, pair.2⟩ ∈ running ∪ done}.encard
  /-- What is done of a class is done of its supertypes. -/
  done_upward : ∀ slot ∈ done, ∀ top, hierarchy.Upward slot.owner top →
    ⟨top, slot.kind, slot.name⟩ ∈ done
  listings_upward : ∀ bottom ∈ listings, ∀ top, hierarchy.Upward bottom top → top ∈ listings
  /-- A listing needs the look-ups of all its names. -/
  done_of_listed : ∀ scope ∈ hierarchy.scopes, scope.name ∈ listings →
    ∀ name ∈ scope.listing.names, ∀ kind, ⟨scope.name, kind, name⟩ ∈ done

/-- At first nothing has been asked for. -/
theorem progress_empty (hierarchy : Hierarchy) : hierarchy.Progress ∅ ∅ ∅ {} where
  full_iff scope _ kind name value := iff_of_false (by cases kind <;> exact nofun) fun h => h.1
  empty_iff slot := iff_of_false (by obtain ⟨owner, kind, name⟩ := slot; cases kind <;> exact nofun)
    id
  listing_iff scope _ value := iff_of_false nofun fun h => h.1
  count_eq owner := by simp [Caches.count, Caches.get]
  done_upward slot h := h.elim
  listings_upward bottom h := h.elim
  done_of_listed scope _ h := h.elim

/-- A look-up that is neither running nor done has no cell. -/
theorem Progress.cell?_eq_none (h : hierarchy.Progress running done listings caches)
    (hscope : scope ∈ hierarchy.scopes) (hrunning : ⟨scope.name, kind, name⟩ ∉ running)
    (hdone : ⟨scope.name, kind, name⟩ ∉ done) : caches.cell? ⟨scope.name, kind, name⟩ = none := by
  cases hcell : caches.cell? ⟨scope.name, kind, name⟩ with
  | none => rfl
  | some cell =>
    cases cell with
    | none => exact absurd ((h.empty_iff _).mp hcell) hrunning
    | some value => exact absurd ((h.full_iff scope hscope kind name value).mp hcell).1 hdone

/-- A look-up begins. -/
theorem Progress.begin (h : hierarchy.Progress running done listings caches)
    (hcell : caches.cell? slot = none) (hdone : slot ∉ done) :
    hierarchy.Progress (insert slot running) done listings (caches.begin slot) := by
  have hrunning : slot ∉ running := fun hmem => by simp [(h.empty_iff slot).mpr hmem] at hcell
  refine ⟨?_, ?_, ?_, ?_, h.done_upward, h.listings_upward, h.done_of_listed⟩
  · intro scope hscope kind name value
    rw [Caches.cell?_begin hcell]
    split
    · rename_i hslot
      exact iff_of_false nofun fun hmem => hdone (hslot ▸ hmem.1)
    · exact h.full_iff scope hscope kind name value
  · intro other
    rw [Caches.cell?_begin hcell, Set.mem_insert_iff]
    split
    · rename_i hslot
      exact iff_of_true rfl (.inl hslot)
    · rename_i hslot
      rw [h.empty_iff, or_iff_right hslot]
  · intro scope hscope value
    rw [Caches.listing?_begin]
    exact h.listing_iff scope hscope value
  · intro owner
    rw [Caches.count_begin, Nat.cast_add, h.count_eq, Set.insert_union]
    by_cases howner : owner = slot.owner
    · -- The class has one more pair, since the look-up was neither running nor done.
      have hset : {pair : Callable × Name |
          ⟨owner, pair.1, pair.2⟩ ∈ insert slot (running ∪ done)} =
          insert (slot.kind, slot.name) {pair | ⟨owner, pair.1, pair.2⟩ ∈ running ∪ done} := by
        ext ⟨kind, name⟩
        obtain ⟨_, _, _⟩ := slot
        simp [howner]
      have hnew : (slot.kind, slot.name) ∉
          {pair : Callable × Name | ⟨owner, pair.1, pair.2⟩ ∈ running ∪ done} := by
        rw [howner]
        exact fun hmem => hmem.elim hrunning hdone
      rw [hset, Set.encard_insert_of_notMem hnew, if_pos howner]
      rfl
    · have hset : {pair : Callable × Name |
          ⟨owner, pair.1, pair.2⟩ ∈ insert slot (running ∪ done)} =
          {pair | ⟨owner, pair.1, pair.2⟩ ∈ running ∪ done} := by
        ext ⟨kind, name⟩
        refine or_iff_right fun hslot => howner ?_
        rw [← hslot]
      rw [hset, if_neg howner]
      simp

/-- A look-up that is running ends with the value that the class has by itself, once it is done of
all classes above. -/
theorem Progress.finish (hnodup : hierarchy.names.Nodup) (hscope : scope ∈ hierarchy.scopes)
    (h : hierarchy.Progress (insert ⟨scope.name, kind, name⟩ running) done listings caches)
    (hrunning : ⟨scope.name, kind, name⟩ ∉ running)
    (habove : ∀ top, Relation.TransGen hierarchy.DirectSupertype scope.name top →
      ⟨top, kind, name⟩ ∈ done) :
    hierarchy.Progress running (insert ⟨scope.name, kind, name⟩ done) listings
      (caches.finish ⟨scope.name, kind, name⟩ (scope.lookup kind name)) := by
  have hcell : caches.cell? ⟨scope.name, kind, name⟩ = some none :=
    (h.empty_iff _).mpr (Set.mem_insert _ _)
  refine ⟨?_, ?_, ?_, ?_, ?_, h.listings_upward, ?_⟩
  · intro other hother kind' name' value
    rw [Caches.cell?_finish hcell, Set.mem_insert_iff]
    split
    · rename_i hslot
      obtain ⟨hname, rfl, rfl⟩ := Slot.mk.inj hslot
      obtain rfl := eq_of_name_eq hnodup hscope hother hname
      simp [eq_comm]
    · rename_i hslot
      rw [or_iff_right hslot]
      exact h.full_iff other hother kind' name' value
  · intro other
    rw [Caches.cell?_finish hcell]
    split
    · rename_i hslot
      exact iff_of_false nofun fun hmem => hrunning (hslot ▸ hmem)
    · rename_i hslot
      rw [h.empty_iff, Set.mem_insert_iff, or_iff_right hslot]
  · intro other hother value
    rw [Caches.listing?_finish]
    exact h.listing_iff other hother value
  · intro owner
    rw [Caches.count_finish, h.count_eq, Set.insert_union, Set.union_insert]
  · intro slot hslot top hupward
    rcases Set.mem_insert_iff.mp hslot with rfl | hdone
    · rcases Relation.reflTransGen_iff_eq_or_transGen.mp hupward with rfl | htop
      · exact Set.mem_insert _ _
      · exact Set.mem_insert_of_mem _ (habove top htop)
    · exact Set.mem_insert_of_mem _ (h.done_upward slot hdone top hupward)
  · exact fun other hother hlisted name' hname' kind' =>
      Set.mem_insert_of_mem _ (h.done_of_listed other hother hlisted name' hname' kind')

/-- A class keeps its listing once all classes above have theirs and all its names are looked up. -/
theorem Progress.keepListing (hnodup : hierarchy.names.Nodup) (hscope : scope ∈ hierarchy.scopes)
    (h : hierarchy.Progress running done listings caches)
    (habove : ∀ top, Relation.TransGen hierarchy.DirectSupertype scope.name top → top ∈ listings)
    (hnames : ∀ name ∈ scope.listing.names, ∀ kind, ⟨scope.name, kind, name⟩ ∈ done) :
    hierarchy.Progress running done (insert scope.name listings)
      (caches.keepListing scope.name scope.listing) := by
  refine ⟨?_, ?_, ?_, ?_, h.done_upward, ?_, ?_⟩
  · intro other hother kind name value
    rw [Caches.cell?_keepListing]
    exact h.full_iff other hother kind name value
  · intro slot
    rw [Caches.cell?_keepListing]
    exact h.empty_iff slot
  · intro other hother value
    rw [Caches.listing?_keepListing, Set.mem_insert_iff]
    split
    · rename_i hname
      obtain rfl := eq_of_name_eq hnodup hscope hother hname
      simp [eq_comm]
    · rename_i hname
      rw [or_iff_right hname]
      exact h.listing_iff other hother value
  · intro owner
    rw [Caches.count_keepListing, h.count_eq]
  · intro bottom hbottom top hupward
    rcases Set.mem_insert_iff.mp hbottom with rfl | hlisted
    · rcases Relation.reflTransGen_iff_eq_or_transGen.mp hupward with rfl | htop
      · exact Set.mem_insert _ _
      · exact Set.mem_insert_of_mem _ (habove top htop)
    · exact Set.mem_insert_of_mem _ (h.listings_upward bottom hlisted top hupward)
  · intro other hother hlisted
    rcases Set.mem_insert_iff.mp hlisted with hname | hlisted
    · obtain rfl := eq_of_name_eq hnodup hscope hother hname
      exact hnames
    · exact h.done_of_listed other hother hlisted

end DeclMerge.Hierarchy
