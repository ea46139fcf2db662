import DeclMerge.Proofs.Hierarchy.Index

/-!
# What holds during a walk

At every moment of a walk the failed classes are those with an error, each with one, and the scope
of a class is made of the scopes of its supertypes. A walk goes on by few steps: a class is pushed
on the path and popped from it, it fails, or it gets its scope. Each step keeps these facts, and
what is once known of a class stays known.

## Main definitions

* `Walk.Made` — a scope that is made of the class with its name and of known scopes
* `Walk.Valid` — what always holds of the state of a walk
* `Walk.Keeps` — what is known of a class stays known
* `Walk.Advances` — a part of a walk that begins and ends with the same path
* `Walk.failAll` — the walk after several classes have failed

## Main results

* `Walk.Valid.fail`, `Walk.Valid.build`, `Walk.Valid.push`, `Walk.Valid.pop` — the steps of a walk
* `Walk.closeCycle_eq`, `Walk.Valid.failAll` — all classes of a cycle fail at once
* `Guard.enter_cases` — the answers of a guard
-/

namespace DeclMerge

namespace Guard

variable {κ : Type} [DecidableEq κ]

/-- The guard after one more request. -/
def count (guard : Guard κ) : Guard κ :=
  { guard with iterations := min (guard.iterations + 1) maxCount }

/-- The guard after a key has been entered. -/
def withActive (guard : Guard κ) (key : κ) : Guard κ :=
  { guard.count with active := key :: guard.active, depth := guard.depth + 1 }

/-- Every request is counted, and only a key that is not being visited is entered. -/
theorem enter_cases (guard : Guard κ) (key : κ) :
    (guard.maxIterations < guard.count.iterations ∧
      guard.enter key = (.iterationExceeded, guard.count)) ∨
    (key ∈ guard.active ∧ guard.enter key = (.cycle, guard.count)) ∨
    (guard.maxDepth ≤ guard.depth ∧ guard.enter key = (.depthExceeded, guard.count)) ∨
    (key ∉ guard.active ∧ guard.depth < guard.maxDepth ∧
      guard.enter key = (.entered, guard.withActive key)) := by
  unfold enter withActive count
  by_cases hcount : guard.maxIterations < min (guard.iterations + 1) maxCount
  · exact .inl ⟨hcount, by simp [hcount]⟩
  by_cases hkey : key ∈ guard.active
  · exact .inr (.inl ⟨hkey, by simp [hcount, hkey]⟩)
  by_cases hdepth : guard.maxDepth ≤ guard.depth
  · exact .inr (.inr (.inl ⟨hdepth, by simp [hcount, hkey, hdepth]⟩))
  · exact .inr (.inr (.inr ⟨hkey, by omega, by simp [hcount, hkey, hdepth]⟩))

end Guard

namespace Walk

variable {index : ClassIndex} {walk before after : Walk} {name : QualifiedName}
  {scope : ClassScope} {error : HierarchyError}

/-- A scope is made of the class with its name and of the scopes of that class's supertypes. -/
structure Made (index : ClassIndex) (walk : Walk) (scope : ClassScope) : Prop where
  get?_eq : index.get? scope.name = some scope.declaration
  supertypes_eq :
    (index.supertypes scope.declaration).map walk.status = scope.supertypes.map Status.built

/-- What always holds of the state of a walk. -/
structure Valid (index : ClassIndex) (walk : Walk) : Prop where
  names_eq : walk.names = index.names
  active_eq : walk.guard.active = walk.path.reverse
  path_nodup : walk.path.Nodup
  path_subset : walk.path ⊆ index.names
  errors_nodup : (walk.errors.map HierarchyError.className).Nodup
  /-- The failed classes are those with an error. -/
  failed_iff : ∀ name, walk.status name = .failed ↔
    name ∈ walk.errors.map HierarchyError.className
  name_of_built : ∀ name scope, walk.status name = .built scope → scope.name = name
  made : ∀ name scope, walk.status name = .built scope → walk.Made index scope

/-- Something is known only of the classes that the walk is about. -/
theorem Valid.mem_names (h : walk.Valid index) (hknown : walk.status name ≠ .pending) :
    name ∈ index.names := by
  rw [← h.names_eq]
  by_contra hmem
  apply hknown
  rw [status, Option.not_isSome_iff_eq_none.mp fun hsome => hmem (isSome_lookup_iff.mp hsome)]
  rfl

/-- What is known of a class stays known. -/
def Keeps (before after : Walk) : Prop :=
  ∀ name, before.status name ≠ .pending → after.status name = before.status name

theorem Keeps.refl (walk : Walk) : walk.Keeps walk := fun _ _ => rfl

theorem Keeps.trans {middle : Walk} (h : before.Keeps middle) (h' : middle.Keeps after) :
    before.Keeps after := by
  intro name hname
  rw [h' name (h name hname ▸ hname), h name hname]

theorem Made.mono (h : before.Made index scope) (hkeeps : before.Keeps after) :
    after.Made index scope := by
  refine ⟨h.get?_eq, ?_⟩
  rw [← h.supertypes_eq]
  apply List.map_congr_left
  intro name hname
  have hmem := List.mem_map_of_mem (f := before.status) hname
  rw [h.supertypes_eq, List.mem_map] at hmem
  obtain ⟨supertype, -, hbuilt⟩ := hmem
  exact hkeeps name (by simp [← hbuilt])

/-- Changing the status of a pending class takes nothing back. -/
theorem keeps_setStatus (hname : name ∈ walk.names) (hpending : walk.status name = .pending)
    (status : Status) : walk.Keeps (walk.setStatus name status) := by
  intro other hother
  rw [status_setStatus hname, if_neg]
  rintro rfl
  exact hother hpending

/-- A part of a walk that takes nothing back and ends with the path that it began with. -/
structure Advances (index : ClassIndex) (before after : Walk) : Prop where
  valid : after.Valid index
  keeps : before.Keeps after
  path_eq : after.path = before.path

theorem Advances.refl (h : walk.Valid index) : walk.Advances index walk :=
  ⟨h, .refl walk, rfl⟩

theorem Advances.trans {middle : Walk} (h : before.Advances index middle)
    (h' : middle.Advances index after) : before.Advances index after :=
  ⟨h'.valid, h.keeps.trans h'.keeps, h'.path_eq.trans h.path_eq⟩

theorem status_fail (h : error.className ∈ walk.names) (other : QualifiedName) :
    (walk.fail error).status other =
      if other = error.className then .failed else walk.status other :=
  status_setStatus h .failed other

/-- A pending class may fail: it has no error yet. -/
theorem Valid.fail (h : walk.Valid index) (hmem : error.className ∈ index.names)
    (hpending : walk.status error.className = .pending) :
    walk.Advances index (walk.fail error) := by
  have hknown : error.className ∈ walk.names := h.names_eq ▸ hmem
  have hkeeps : walk.Keeps (walk.fail error) := keeps_setStatus hknown hpending .failed
  -- No scope is made and none is lost, and the error is the first one of its class.
  have hbuilt : ∀ name scope, (walk.fail error).status name = .built scope →
      walk.status name = .built scope := by
    intro name scope hstatus
    rw [status_fail hknown] at hstatus
    split at hstatus
    · cases hstatus
    · exact hstatus
  have herrors : (walk.fail error).errors.map HierarchyError.className =
      walk.errors.map HierarchyError.className ++ [error.className] := by
    simp [Walk.fail]
  have hnew : error.className ∉ walk.errors.map HierarchyError.className := by
    rw [← h.failed_iff, hpending]
    simp
  refine ⟨⟨?_, h.active_eq, h.path_nodup, h.path_subset, ?_, ?_, ?_, ?_⟩, hkeeps, rfl⟩
  · exact (names_setStatus walk _ _).trans h.names_eq
  · rw [herrors]
    exact nodup_append_singleton_iff.mpr ⟨h.errors_nodup, hnew⟩
  · intro name
    rw [herrors, status_fail hknown, List.mem_append, List.mem_singleton, ← h.failed_iff]
    by_cases hname : name = error.className <;> simp [hname]
  · exact fun name scope hstatus => h.name_of_built name scope (hbuilt name scope hstatus)
  · exact fun name scope hstatus => (h.made name scope (hbuilt name scope hstatus)).mono hkeeps

/-- A pending class may get its scope once the scopes of its supertypes exist. -/
theorem Valid.build (h : walk.Valid index) (hmem : scope.name ∈ index.names)
    (hpending : walk.status scope.name = .pending) (hmade : walk.Made index scope) :
    walk.Advances index (walk.setStatus scope.name (.built scope)) := by
  have hknown : scope.name ∈ walk.names := h.names_eq ▸ hmem
  have hkeeps := keeps_setStatus hknown hpending (.built scope)
  have hbuilt : ∀ name other,
      (walk.setStatus scope.name (.built scope)).status name = .built other →
        other = scope ∧ name = scope.name ∨ walk.status name = .built other := by
    intro name other hstatus
    rw [status_setStatus hknown] at hstatus
    split at hstatus
    · rename_i hname
      cases hstatus
      exact .inl ⟨rfl, hname⟩
    · exact .inr hstatus
  refine ⟨⟨?_, h.active_eq, h.path_nodup, h.path_subset, h.errors_nodup, ?_, ?_, ?_⟩, hkeeps, rfl⟩
  · exact (names_setStatus walk _ _).trans h.names_eq
  · intro name
    rw [status_setStatus hknown]
    by_cases hname : name = scope.name
    · subst hname
      have hnone : scope.name ∉ walk.errors.map HierarchyError.className := by
        rw [← h.failed_iff, hpending]
        simp
      rw [if_pos rfl]
      exact iff_of_false (by simp) hnone
    · rw [if_neg hname]
      exact h.failed_iff name
  · intro name other hstatus
    rcases hbuilt name other hstatus with ⟨rfl, rfl⟩ | hold
    · rfl
    · exact h.name_of_built name other hold
  · intro name other hstatus
    rcases hbuilt name other hstatus with ⟨rfl, -⟩ | hold
    · exact hmade.mono hkeeps
    · exact (h.made name other hold).mono hkeeps

/-- The guard may count. -/
theorem Valid.withGuard (h : walk.Valid index) (guard : Guard QualifiedName)
    (hactive : guard.active = walk.guard.active) :
    walk.Advances index { walk with guard } :=
  ⟨{ h with active_eq := hactive.trans h.active_eq, made := fun name scope hstatus =>
      (h.made name scope hstatus).mono fun _ _ => rfl }, fun _ _ => rfl, rfl⟩

theorem Valid.push (h : walk.Valid index) {guard : Guard QualifiedName}
    (hactive : guard.active = name :: walk.guard.active) (hmem : name ∈ index.names)
    (hnew : name ∉ walk.path) : (walk.push guard name).Valid index where
  names_eq := h.names_eq
  active_eq := by
    change guard.active = (walk.path ++ [name]).reverse
    rw [hactive, h.active_eq, List.reverse_append]
    rfl
  path_nodup := nodup_append_singleton_iff.mpr ⟨h.path_nodup, hnew⟩
  path_subset := List.append_subset.mpr ⟨h.path_subset, by simpa using hmem⟩
  errors_nodup := h.errors_nodup
  failed_iff := h.failed_iff
  name_of_built := h.name_of_built
  made := fun other scope hstatus => (h.made other scope hstatus).mono fun _ _ => rfl

/-- The last class of the path can be popped. -/
theorem Valid.pop (h : walk.Valid index) {path : List QualifiedName}
    (hpath : walk.path = path ++ [name]) :
    ∃ popped, walk.pop name = .ok popped ∧ popped.Valid index ∧ popped.path = path ∧
      popped.status = walk.status := by
  have hactive : walk.guard.active = name :: path.reverse := by
    rw [h.active_eq, hpath, List.reverse_append]
    rfl
  refine ⟨{ walk with
    guard := { walk.guard with
      active := walk.guard.active.erase name, depth := walk.guard.depth - 1 }
    path := walk.path.dropLast }, ?_, ?_, ?_, rfl⟩
  · rw [Walk.pop, Guard.leave?, if_pos (hactive ▸ List.mem_cons_self)]
  · have hlast : walk.path.dropLast = path := by rw [hpath, List.dropLast_concat]
    refine { h with active_eq := ?_, path_nodup := ?_, path_subset := ?_, made := ?_ }
    · change walk.guard.active.erase name = walk.path.dropLast.reverse
      rw [hactive, hlast, List.erase_cons_head]
    · exact h.path_nodup.sublist (List.dropLast_sublist _)
    · exact fun other hother => h.path_subset ((List.dropLast_sublist _).subset hother)
    · exact fun other scope hstatus => (h.made other scope hstatus).mono fun _ _ => rfl
  · change walk.path.dropLast = path
    rw [hpath, List.dropLast_concat]

/-- The walk after classes have failed one after the other. -/
def failAll (walk : Walk) (errors : List HierarchyError) : Walk := errors.foldl fail walk

/-- Different pending classes may fail one after the other. -/
theorem Valid.failAll (h : walk.Valid index) {errors : List HierarchyError}
    (hnodup : (errors.map HierarchyError.className).Nodup)
    (hmem : ∀ error ∈ errors, error.className ∈ index.names)
    (hpending : ∀ error ∈ errors, walk.status error.className = .pending) :
    walk.Advances index (walk.failAll errors) ∧
      ∀ name, (walk.failAll errors).status name =
        if name ∈ errors.map HierarchyError.className then .failed else walk.status name := by
  induction errors generalizing walk with
  | nil => exact ⟨.refl h, fun _ => rfl⟩
  | cons error errors ih =>
    rw [List.map_cons, List.nodup_cons] at hnodup
    have hfirst := h.fail (hmem error List.mem_cons_self) (hpending error List.mem_cons_self)
    have hstatus := status_fail (h.names_eq ▸ hmem error List.mem_cons_self : _ ∈ walk.names)
    obtain ⟨hrest, hall⟩ := ih hfirst.valid hnodup.2
      (fun e he => hmem e (List.mem_cons_of_mem _ he)) fun e he => by
        rw [hstatus, if_neg]
        · exact hpending e (List.mem_cons_of_mem _ he)
        · intro heq
          exact hnodup.1 (heq ▸ List.mem_map_of_mem he)
    refine ⟨hfirst.trans hrest, fun name => ?_⟩
    -- A class fails with the first error, with a later one, or not at all.
    change ((walk.fail error).failAll errors).status name = _
    rw [hall, hstatus, List.map_cons]
    by_cases hlater : name ∈ errors.map HierarchyError.className
    · rw [if_pos hlater, if_pos (List.mem_cons_of_mem _ hlater)]
    · rw [if_neg hlater]
      by_cases hname : name = error.className <;> simp [hname, hlater]

/-- Of a list, the rotations start with each of its elements in turn. -/
theorem map_fst_rotations (seen rest : List QualifiedName) :
    (rotations seen rest).map Prod.fst = rest := by
  induction rest generalizing seen with
  | nil => rfl
  | cons name rest ih => rw [rotations, List.map_cons, ih]

/-- The errors of the classes on a cycle. -/
def cycleErrors (cycle : List QualifiedName) : List HierarchyError :=
  (rotations [] cycle).map fun rotation => .cyclicSupertypes rotation.1 rotation.2

theorem map_className_cycleErrors (cycle : List QualifiedName) :
    (cycleErrors cycle).map HierarchyError.className = cycle := by
  rw [cycleErrors, List.map_map]
  exact map_fst_rotations [] cycle

theorem closeCycle_eq (h : name ∈ walk.path) :
    walk.closeCycle name = .ok (walk.failAll (cycleErrors (walk.path.dropWhile (· ≠ name)))) := by
  rw [closeCycle, if_pos h, failAll, cycleErrors, List.foldl_map]

end Walk

end DeclMerge
