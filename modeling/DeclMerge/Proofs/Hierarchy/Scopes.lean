import DeclMerge.Hierarchy.Basic
import DeclMerge.Proofs.Hierarchy.Visits

/-!
# The scopes of a hierarchy

A hierarchy takes the scopes that have been built when a run is finished. Each belongs to the class
with its name, and is made of the scopes that the hierarchy has for that class's supertypes, so the
supertypes of a scope are scopes of the hierarchy themselves.

## Main definitions

* `Hierarchy.Coherent` — scopes that are made of classes and of one another

## Main results

* `Hierarchy.coherent_ofClasses` — the hierarchy of a list of classes is coherent
* `Hierarchy.Coherent.mem_scopes_of_mem_supertypes` — it has the supertypes of its scopes
-/

namespace DeclMerge

namespace Walk

variable {index : ClassIndex} {walk : Walk} {scope : ClassScope}

/-- The scopes are those that some class has got. -/
theorem Valid.mem_scopes (h : walk.Valid index) (hnodup : index.names.Nodup) :
    scope ∈ walk.scopes ↔ walk.status scope.name = .built scope := by
  have hnames : walk.names.Nodup := h.names_eq ▸ hnodup
  rw [scopes, List.mem_filterMap]
  constructor
  · rintro ⟨⟨name, status⟩, hmem, hscope⟩
    cases status with
    | pending => cases hscope
    | failed => cases hscope
    | built other =>
      cases hscope
      have hstatus : walk.status name = .built scope := by
        rw [Walk.status, lookup_eq_some_of_mem hnames hmem]
        rfl
      rw [h.name_of_built name scope hstatus, hstatus]
  · intro hstatus
    have hmem : scope.name ∈ walk.names := by
      rw [h.names_eq]
      exact h.mem_names (by simp [hstatus])
    obtain ⟨status, hlookup⟩ := Option.isSome_iff_exists.mp (isSome_lookup_iff.mpr hmem)
    have heq : status = .built scope := by rw [← hstatus, Walk.status, hlookup]; rfl
    exact ⟨(scope.name, status), mem_of_lookup_eq_some hlookup, by rw [heq]⟩

/-- The scopes stand in the order of their classes. -/
theorem Valid.names_scopes_sublist (h : walk.Valid index) (hnodup : index.names.Nodup) :
    (walk.scopes.map ClassScope.name).Sublist index.names := by
  have hnames : walk.names.Nodup := h.names_eq ▸ hnodup
  have hname : ∀ entry ∈ walk.statuses, ∀ scope, entry.2 = .built scope →
      scope.name = entry.1 := by
    rintro ⟨name, status⟩ hmem scope rfl
    apply h.name_of_built
    rw [Walk.status, lookup_eq_some_of_mem hnames hmem]
    rfl
  -- The statuses carry all that is needed, so the induction may forget the walk.
  rw [← h.names_eq, Walk.names, scopes]
  generalize walk.statuses = statuses at hname
  induction statuses with
  | nil => exact .slnil
  | cons entry statuses ih =>
    have hrest := ih fun e he => hname e (List.mem_cons_of_mem _ he)
    obtain ⟨name, status⟩ := entry
    cases status with
    | pending => exact hrest.cons _
    | failed => exact hrest.cons _
    | built scope =>
      obtain rfl := hname _ List.mem_cons_self scope rfl
      exact hrest.cons_cons _

end Walk

namespace Hierarchy

variable {index : ClassIndex} {hierarchy : Hierarchy} {name : QualifiedName}
  {scope supertype : ClassScope}

/-- Each scope is made of the class with its name and of the scopes of that class's supertypes. -/
structure Coherent (index : ClassIndex) (hierarchy : Hierarchy) : Prop where
  nodup : hierarchy.names.Nodup
  get?_eq : ∀ scope ∈ hierarchy.scopes, index.get? scope.name = some scope.declaration
  supertypes_eq : ∀ scope ∈ hierarchy.scopes,
    (index.supertypes scope.declaration).map hierarchy.get? = scope.supertypes.map some

theorem get?_eq_some (h : hierarchy.get? name = some scope) :
    scope ∈ hierarchy.scopes ∧ scope.name = name :=
  ⟨List.mem_of_find?_eq_some h, by simpa using List.find?_some h⟩

theorem mem_names_of_get? (h : hierarchy.get? name = some scope) : name ∈ hierarchy.names := by
  obtain ⟨hmem, rfl⟩ := get?_eq_some h
  exact List.mem_map_of_mem hmem

/-- Two scopes with one name are the same scope. -/
theorem eq_of_name_eq {other : ClassScope} (hnodup : hierarchy.names.Nodup)
    (hscope : scope ∈ hierarchy.scopes) (hother : other ∈ hierarchy.scopes)
    (hname : other.name = scope.name) : other = scope :=
  List.inj_on_of_nodup_map hnodup hother hscope hname

theorem get?_name (hnodup : hierarchy.names.Nodup) (h : scope ∈ hierarchy.scopes) :
    hierarchy.get? scope.name = some scope := by
  cases hget : hierarchy.get? scope.name with
  | none => simpa using List.find?_eq_none.mp hget scope h
  | some other =>
    obtain ⟨hmem, hname⟩ := get?_eq_some hget
    rw [eq_of_name_eq hnodup h hmem hname]

theorem exists_of_mem_names (h : name ∈ hierarchy.names) :
    ∃ scope ∈ hierarchy.scopes, scope.name = name := List.mem_map.mp h

/-- The supertypes of a scope are scopes of the hierarchy. -/
theorem Coherent.mem_scopes_of_mem_supertypes (h : hierarchy.Coherent index)
    (hscope : scope ∈ hierarchy.scopes) (hsuper : supertype ∈ scope.supertypes) :
    supertype ∈ hierarchy.scopes := by
  have hmem := List.mem_map_of_mem (f := some) hsuper
  rw [← h.supertypes_eq scope hscope, List.mem_map] at hmem
  obtain ⟨name, -, hget⟩ := hmem
  exact (get?_eq_some hget).1

/-- A supertype of a class that is in the index has its scope among the supertypes of the class's
scope. -/
theorem Coherent.exists_mem_supertypes (h : hierarchy.Coherent index)
    (hscope : scope ∈ hierarchy.scopes) (hname : name ∈ index.supertypes scope.declaration) :
    ∃ supertype ∈ scope.supertypes, hierarchy.get? name = some supertype := by
  have hmem := List.mem_map_of_mem (f := hierarchy.get?) hname
  rw [h.supertypes_eq scope hscope, List.mem_map] at hmem
  obtain ⟨supertype, hsuper, heq⟩ := hmem
  exact ⟨supertype, hsuper, heq.symm⟩

/-- A finished run gives a coherent hierarchy. -/
theorem coherent_of_finished {walk : Walk} (h : walk.Finished index)
    (hnodup : index.names.Nodup) : Coherent index ⟨walk.scopes⟩ := by
  have hnames : (names ⟨walk.scopes⟩).Nodup :=
    hnodup.sublist (h.valid.names_scopes_sublist hnodup)
  have hmade : ∀ scope ∈ walk.scopes, walk.Made index scope := fun scope hscope =>
    h.valid.made scope.name scope ((h.valid.mem_scopes hnodup).mp hscope)
  refine ⟨hnames, fun scope hscope => (hmade scope hscope).get?_eq, ?_⟩
  intro scope hscope
  refine map_eq_map_of_imp (hmade scope hscope).supertypes_eq fun name _ supertype _ hbuilt => ?_
  obtain rfl := h.valid.name_of_built name supertype hbuilt
  exact get?_name hnames ((h.valid.mem_scopes hnodup).mpr hbuilt)

/-- The hierarchy of a list of classes is what a finished run has built. -/
theorem exists_ofClasses_eq (classes : List (QualifiedName × Declaration)) (maxDepth : Nat) :
    ∃ walk : Walk, ofClasses classes maxDepth = (⟨walk.scopes⟩, walk.errors) ∧
      walk.Finished (.ofList classes) := by
  obtain ⟨walk, hrun, hfinished⟩ := Walk.exists_run (.ofList classes) maxDepth
  exact ⟨walk, by rw [ofClasses, hrun], hfinished⟩

theorem coherent_ofClasses (classes : List (QualifiedName × Declaration)) (maxDepth : Nat) :
    (ofClasses classes maxDepth).1.Coherent (.ofList classes) := by
  obtain ⟨walk, heq, hfinished⟩ := exists_ofClasses_eq classes maxDepth
  rw [heq]
  exact coherent_of_finished hfinished (ClassIndex.nodup_names_ofList classes)

end Hierarchy

end DeclMerge
