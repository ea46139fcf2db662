import DeclMerge.Member.Caches
import DeclMerge.Proofs.Memo

/-!
# The caches of all classes

The caches of all classes are seen through the cells of their look-ups, their listings, and the
numbers of look-ups that they have computed. A look-up that begins or ends changes its own cell and
the number of its class, and a listing that is kept changes nothing else.

## Main definitions

* `Slot` — the place of one look-up: a class, a kind and a name
* `Caches.cell?`, `Caches.listing?` — what the caches hold
* `Caches.begin`, `Caches.finish`, `Caches.keepListing` — the steps of a request

## Main results

* `Caches.cell?_begin`, `Caches.cell?_finish` — the cells after a step
* `Caches.count_begin`, `Caches.count_finish` — the numbers of look-ups after a step
-/

namespace DeclMerge

/-- The place of one look-up. -/
structure Slot where
  owner : QualifiedName
  kind : Callable
  name : Name
deriving DecidableEq

namespace Caches

variable {caches : Caches} {name owner : QualifiedName} {slot : Slot}

theorem lookup_setIn (name other : QualifiedName) (cache : ClassCache)
    (entries : List (QualifiedName × ClassCache)) :
    (setIn name cache entries).lookup other =
      if other = name then some cache else entries.lookup other := by
  induction entries with
  | nil =>
    by_cases h : other = name
    · simp [setIn, h]
    · simp [setIn, List.lookup_cons, h, beq_eq_false_iff_ne.mpr h]
  | cons entry entries ih =>
    obtain ⟨n, c⟩ := entry
    rw [setIn]
    by_cases hn : n = name
    · subst hn
      by_cases ho : other = n
      · simp [ho]
      · simp [List.lookup_cons, ho, beq_eq_false_iff_ne.mpr ho]
    · rw [if_neg hn, List.lookup_cons, List.lookup_cons, ih]
      by_cases ho : other = n
      · subst ho
        simp [hn]
      · simp [beq_eq_false_iff_ne.mpr ho]

@[simp] theorem get_set (caches : Caches) (name other : QualifiedName) (cache : ClassCache) :
    (caches.set name cache).get other = if other = name then cache else caches.get other := by
  rw [get, set, lookup_setIn, get]
  split <;> rfl

/-- The cell of a look-up, if there is one. -/
def cell? (caches : Caches) (slot : Slot) : Option (Option Resolution) :=
  ((resolutions slot.owner slot.kind).read caches).cell? slot.name

/-- The listing of a class, if it has been made. -/
def listing? (caches : Caches) (owner : QualifiedName) : Option ClassScope.Listing :=
  ((listing owner).read caches).value?

/-- The caches with another memo for the look-ups of a kind by a class. -/
def withMemo (caches : Caches) (owner : QualifiedName) (kind : Callable)
    (memo : Memo Name Resolution) : Caches := (resolutions owner kind).write memo caches

theorem read_withMemo (caches : Caches) (owner other : QualifiedName) (kind kind' : Callable)
    (memo : Memo Name Resolution) :
    (resolutions other kind').read (caches.withMemo owner kind memo) =
      if other = owner ∧ kind' = kind then memo else (resolutions other kind').read caches := by
  by_cases howner : other = owner
  · subst howner
    cases kind <;> cases kind' <;> simp [withMemo, resolutions]
  · cases kind <;> cases kind' <;> simp [withMemo, resolutions, howner]

@[simp] theorem listing?_withMemo (caches : Caches) (owner other : QualifiedName) (kind : Callable)
    (memo : Memo Name Resolution) :
    (caches.withMemo owner kind memo).listing? other = caches.listing? other := by
  by_cases howner : other = owner
  · subst howner
    cases kind <;> simp [withMemo, resolutions, listing?, listing]
  · cases kind <;> simp [withMemo, resolutions, listing?, listing, howner]

theorem count_eq (caches : Caches) (owner : QualifiedName) : caches.count owner =
    ((resolutions owner .function).read caches).computations +
      ((resolutions owner .property).read caches).computations := rfl

/-- The number of a class goes up by what its memo has computed more than before. -/
theorem count_withMemo (caches : Caches) (owner other : QualifiedName) (kind : Callable)
    (memo : Memo Name Resolution) (more : Nat)
    (h : memo.computations = ((resolutions owner kind).read caches).computations + more) :
    (caches.withMemo owner kind memo).count other =
      caches.count other + if other = owner then more else 0 := by
  rw [count_eq, count_eq, read_withMemo, read_withMemo]
  by_cases howner : other = owner
  · subst howner
    cases kind <;> simp [h] <;> omega
  · simp [howner]

/-- The caches while a look-up runs. -/
def begin (caches : Caches) (slot : Slot) : Caches :=
  caches.withMemo slot.owner slot.kind
    (((resolutions slot.owner slot.kind).read caches).begin slot.name)

/-- The caches after a look-up has run. -/
def finish (caches : Caches) (slot : Slot) (value : Resolution) : Caches :=
  caches.withMemo slot.owner slot.kind
    (((resolutions slot.owner slot.kind).read caches).finish slot.name value)

/-- The caches with the listing of a class. -/
def keepListing (caches : Caches) (owner : QualifiedName) (value : ClassScope.Listing) : Caches :=
  (listing owner).write ⟨some value⟩ caches

theorem cell?_begin (h : caches.cell? slot = none) (other : Slot) :
    (caches.begin slot).cell? other = if other = slot then some none else caches.cell? other := by
  obtain ⟨owner, kind, name⟩ := slot
  obtain ⟨owner', kind', name'⟩ := other
  rw [begin, cell?, read_withMemo]
  by_cases hsame : owner' = owner ∧ kind' = kind
  · obtain ⟨rfl, rfl⟩ := hsame
    rw [if_pos ⟨rfl, rfl⟩, Memo.cell?_begin h]
    simp [cell?]
  · rw [if_neg hsame, if_neg (by simpa using fun ho hk _ => hsame ⟨ho, hk⟩), cell?]

theorem cell?_finish (h : caches.cell? slot = some none) (value : Resolution) (other : Slot) :
    (caches.finish slot value).cell? other =
      if other = slot then some (some value) else caches.cell? other := by
  obtain ⟨owner, kind, name⟩ := slot
  obtain ⟨owner', kind', name'⟩ := other
  rw [finish, cell?, read_withMemo]
  by_cases hsame : owner' = owner ∧ kind' = kind
  · obtain ⟨rfl, rfl⟩ := hsame
    rw [if_pos ⟨rfl, rfl⟩, Memo.cell?_finish h]
    simp [cell?]
  · rw [if_neg hsame, if_neg (by simpa using fun ho hk _ => hsame ⟨ho, hk⟩), cell?]

@[simp] theorem cell?_keepListing (caches : Caches) (owner : QualifiedName)
    (value : ClassScope.Listing) (slot : Slot) :
    (caches.keepListing owner value).cell? slot = caches.cell? slot := by
  obtain ⟨other, kind, name⟩ := slot
  by_cases h : other = owner
  · subst h
    cases kind <;> simp [keepListing, listing, cell?, resolutions]
  · cases kind <;> simp [keepListing, listing, cell?, resolutions, h]

theorem count_begin (caches : Caches) (slot : Slot) (other : QualifiedName) :
    (caches.begin slot).count other = caches.count other + if other = slot.owner then 1 else 0 :=
  count_withMemo caches slot.owner other slot.kind _ 1 (Memo.computations_begin ..)

@[simp] theorem count_finish (caches : Caches) (slot : Slot) (value : Resolution)
    (other : QualifiedName) : (caches.finish slot value).count other = caches.count other := by
  rw [finish, count_withMemo caches slot.owner other slot.kind _ 0 (Memo.computations_finish ..)]
  simp

@[simp] theorem count_keepListing (caches : Caches) (owner other : QualifiedName)
    (value : ClassScope.Listing) :
    (caches.keepListing owner value).count other = caches.count other := by
  by_cases h : other = owner
  · subst h
    simp [keepListing, listing, count]
  · simp [keepListing, listing, count, h]

@[simp] theorem listing?_begin (caches : Caches) (slot : Slot) (other : QualifiedName) :
    (caches.begin slot).listing? other = caches.listing? other := listing?_withMemo ..

@[simp] theorem listing?_finish (caches : Caches) (slot : Slot) (value : Resolution)
    (other : QualifiedName) : (caches.finish slot value).listing? other = caches.listing? other :=
  listing?_withMemo ..

theorem listing?_keepListing (caches : Caches) (owner other : QualifiedName)
    (value : ClassScope.Listing) : (caches.keepListing owner value).listing? other =
      if other = owner then some value else caches.listing? other := by
  by_cases h : other = owner
  · subst h
    simp [keepListing, listing, listing?]
  · simp [keepListing, listing, listing?, h]

end Caches

namespace ClassScope

variable {scope : ClassScope} {kind : Callable} {name : Name} {caches caches' : Caches}

/-- A look-up that has been computed is read, and nothing changes. -/
theorem request_of_full {value : Resolution}
    (h : caches.cell? ⟨scope.name, kind, name⟩ = some (some value)) :
    scope.request kind name caches = (value, caches) := by
  obtain ⟨owner, declaration, supertypes⟩ := scope
  rw [request]
  exact Memo.request_of_full h

/-- A look-up that has not begun asks the supertypes between its beginning and its end. -/
theorem request_of_absent {inherited : List Member}
    (h : caches.cell? ⟨scope.name, kind, name⟩ = none)
    (hinherited : requestMembers kind name scope.supertypes
      (caches.begin ⟨scope.name, kind, name⟩) = (inherited, caches')) :
    scope.request kind name caches =
      (lookupFrom scope.name scope.declaration kind name inherited,
        caches'.finish ⟨scope.name, kind, name⟩
          (lookupFrom scope.name scope.declaration kind name inherited)) := by
  obtain ⟨owner, declaration, supertypes⟩ := scope
  rw [request]
  refine Memo.request_of_absent h ?_
  exact congrArg (fun r => (lookupFrom owner declaration kind name r.1, r.2)) hinherited

/-- A listing that has been made is read, and nothing changes. -/
theorem requestListing_of_some {value : Listing} (h : caches.listing? scope.name = some value) :
    scope.requestListing caches = (value, caches) := by
  obtain ⟨owner, declaration, supertypes⟩ := scope
  rw [requestListing]
  exact Once.request_of_some h

/-- A listing is made from the listings of the supertypes and from the look-ups of its names. -/
theorem requestListing_of_none {inherited : List Name} {callables : List Member}
    {caches'' : Caches} (h : caches.listing? scope.name = none)
    (hinherited : requestListedNames scope.supertypes caches = (inherited, caches'))
    (hcallables : scope.requestEach Resolution.members
      (callableNamesFrom scope.declared inherited) caches' = (callables, caches'')) :
    scope.requestListing caches =
      (⟨callableNamesFrom scope.declared inherited, callables ++ classifiers scope.declared⟩,
        caches''.keepListing scope.name
          ⟨callableNamesFrom scope.declared inherited,
            callables ++ classifiers scope.declared⟩) := by
  obtain ⟨owner, declaration, supertypes⟩ := scope
  rw [requestListing]
  refine Once.request_of_none h ?_
  simp only [hinherited]
  exact congrArg (fun r => (Listing.mk _ (r.1 ++ classifiers _), r.2)) hcallables

end ClassScope

end DeclMerge
