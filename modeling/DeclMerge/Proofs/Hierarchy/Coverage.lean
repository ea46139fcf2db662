import DeclMerge.Proofs.Hierarchy.Scopes
import DeclMerge.Proofs.Member.Lookup
import Mathlib.Logic.Relation

/-!
# Every class has a scope or an error

The scopes and the errors of a hierarchy divide the classes of the list among them, and the scopes
are closed under supertypes. As the supertypes of a scope are smaller values than the scope itself,
no chain of supertypes within a hierarchy leads back to where it began.

## Main definitions

* `Hierarchy.DirectSupertype` — the supertype relation among the classes that have scopes
* `Hierarchy.Upward` — from a class to itself and the classes above it
* `Hierarchy.Covers` — a hierarchy and errors that divide the classes of a list

## Main results

* `Hierarchy.Coherent.induction` — what passes from supertypes to a class holds of all classes
* `Hierarchy.Coherent.directSupertype_iff` — the relation, by the scopes that a scope is made of
* `Hierarchy.Coherent.acyclic` — no class with a scope is its own supertype
* `Hierarchy.Coherent.get?_eq_of_upward` — two hierarchies that agree on the classes above a class
  have the same scope for it
* `Hierarchy.covers_ofClasses` — the hierarchy of a list of classes covers it
-/

namespace DeclMerge

namespace Hierarchy

variable {index : ClassIndex} {hierarchy : Hierarchy} {sub super name : QualifiedName}

/-- A class that has a scope names another one as a supertype. -/
def DirectSupertype (hierarchy : Hierarchy) (sub super : QualifiedName) : Prop :=
  ∃ scope, hierarchy.get? sub = some scope ∧ super ∈ scope.declaration.superclassifiers ∧
    super ∈ hierarchy.names

theorem Coherent.mem_index (h : hierarchy.Coherent index) (hname : name ∈ hierarchy.names) :
    name ∈ index.names := by
  obtain ⟨scope, hscope, rfl⟩ := exists_of_mem_names hname
  rw [ClassIndex.mem_names_iff, h.get?_eq scope hscope]
  rfl

/-- What passes from the supertypes to a class holds of all classes of a hierarchy. -/
theorem Coherent.induction (h : hierarchy.Coherent index) {motive : ClassScope → Prop}
    (step : ∀ scope ∈ hierarchy.scopes, (∀ supertype ∈ scope.supertypes, motive supertype) →
      motive scope) : ∀ scope ∈ hierarchy.scopes, motive scope := by
  intro scope
  induction scope using ClassScope.induction with
  | step scope ih =>
    intro hscope
    exact step scope hscope fun supertype hsupertype =>
      ih supertype hsupertype (h.mem_scopes_of_mem_supertypes hscope hsupertype)

/-- The direct supertypes of a class are those that its scope is made of. -/
theorem Coherent.directSupertype_iff (h : hierarchy.Coherent index) {scope : ClassScope}
    (hscope : scope ∈ hierarchy.scopes) :
    hierarchy.DirectSupertype scope.name super ↔
      ∃ supertype ∈ scope.supertypes, supertype.name = super := by
  have hget := get?_name h.nodup hscope
  constructor
  · rintro ⟨scope', hget', hmem, hknown⟩
    obtain rfl := Option.some.inj (hget.symm.trans hget')
    obtain ⟨supertype, hsupertype, hsuper⟩ := h.exists_mem_supertypes hscope
      (ClassIndex.mem_supertypes.mpr ⟨hmem, h.mem_index hknown⟩)
    exact ⟨supertype, hsupertype, (get?_eq_some hsuper).2⟩
  · rintro ⟨supertype, hsupertype, rfl⟩
    have hmem := List.mem_map_of_mem (f := some) hsupertype
    rw [← h.supertypes_eq scope hscope, List.mem_map] at hmem
    obtain ⟨name, hname, hsuper⟩ := hmem
    obtain ⟨hscope', rfl⟩ := get?_eq_some hsuper
    exact ⟨scope, hget, (ClassIndex.mem_supertypes.mp hname).1, List.mem_map_of_mem hscope'⟩

/-- From a class to itself and the classes above it. -/
def Upward (hierarchy : Hierarchy) : QualifiedName → QualifiedName → Prop :=
  Relation.ReflTransGen hierarchy.DirectSupertype

/-- Whatever is above a class is reached by way of its supertypes. -/
theorem Coherent.transGen_iff (h : hierarchy.Coherent index) {scope : ClassScope}
    (hscope : scope ∈ hierarchy.scopes) {top : QualifiedName} :
    Relation.TransGen hierarchy.DirectSupertype scope.name top ↔
      ∃ supertype ∈ scope.supertypes, hierarchy.Upward supertype.name top := by
  rw [Relation.TransGen.head'_iff]
  constructor
  · rintro ⟨middle, hstep, hrest⟩
    obtain ⟨supertype, hsupertype, rfl⟩ := (h.directSupertype_iff hscope).mp hstep
    exact ⟨supertype, hsupertype, hrest⟩
  · rintro ⟨supertype, hsupertype, hrest⟩
    exact ⟨supertype.name, (h.directSupertype_iff hscope).mpr ⟨supertype, hsupertype, rfl⟩, hrest⟩

theorem Coherent.upward_iff (h : hierarchy.Coherent index) {scope : ClassScope}
    (hscope : scope ∈ hierarchy.scopes) {top : QualifiedName} : hierarchy.Upward scope.name top ↔
      scope.name = top ∨ ∃ supertype ∈ scope.supertypes, hierarchy.Upward supertype.name top := by
  rw [Upward, Relation.reflTransGen_iff_eq_or_transGen, h.transGen_iff hscope]
  exact or_congr_left eq_comm

/-- The scope of a supertype is a smaller value. -/
theorem Coherent.sizeOf_lt (h : hierarchy.Coherent index)
    (hsuper : hierarchy.DirectSupertype sub super) :
    sizeOf (hierarchy.get? super) < sizeOf (hierarchy.get? sub) := by
  obtain ⟨scope, hget, hmem, hknown⟩ := hsuper
  obtain ⟨supertype, hsupertype, heq⟩ := h.exists_mem_supertypes (get?_eq_some hget).1
    (ClassIndex.mem_supertypes.mpr ⟨hmem, h.mem_index hknown⟩)
  have hless := ClassScope.sizeOf_lt_of_mem_supertypes hsupertype
  rw [heq, hget, Option.some.sizeOf_spec, Option.some.sizeOf_spec]
  omega

/-- No class that has a scope is its own supertype, on whatever way. -/
theorem Coherent.acyclic (h : hierarchy.Coherent index) (name : QualifiedName) :
    ¬ Relation.TransGen hierarchy.DirectSupertype name name := by
  -- Scopes get smaller along the relation, and no value is smaller than itself.
  have hless : ∀ {sub super}, Relation.TransGen hierarchy.DirectSupertype sub super →
      sizeOf (hierarchy.get? super) < sizeOf (hierarchy.get? sub) := by
    intro sub super hpath
    induction hpath with
    | single hstep => exact h.sizeOf_lt hstep
    | tail _ hstep ih => exact (h.sizeOf_lt hstep).trans ih
  exact fun hcycle => lt_irrefl _ (hless hcycle)

theorem Upward.mem_names (h : hierarchy.Upward sub super) (hsub : sub ∈ hierarchy.names) :
    super ∈ hierarchy.names := by
  rcases Relation.ReflTransGen.cases_tail h with rfl | ⟨middle, -, hstep⟩
  · exact hsub
  · obtain ⟨scope, -, -, hsuper⟩ := hstep
    exact hsuper

/-- A scope is made of the classes above it and of nothing else. Two hierarchies that have scopes for
these, made of the same classes, have the same scope. -/
theorem Coherent.get?_eq_of_upward {index' : ClassIndex} {hierarchy' : Hierarchy}
    {scope : ClassScope} (h : hierarchy.Coherent index) (h' : hierarchy'.Coherent index')
    (hsupertypes : ∀ declaration, index'.supertypes declaration = index.supertypes declaration)
    (hscope : scope ∈ hierarchy.scopes)
    (habove : ∀ name, hierarchy.Upward scope.name name →
      name ∈ hierarchy'.names ∧ index'.get? name = index.get? name) :
    hierarchy'.get? scope.name = some scope := by
  revert habove
  refine h.induction (motive := fun scope => (∀ name, hierarchy.Upward scope.name name →
    name ∈ hierarchy'.names ∧ index'.get? name = index.get? name) →
      hierarchy'.get? scope.name = some scope) ?_ scope hscope
  intro scope hscope ih habove
  obtain ⟨hname, hindex⟩ := habove scope.name .refl
  obtain ⟨scope', hscope', hname'⟩ := exists_of_mem_names hname
  have hdeclaration : scope'.declaration = scope.declaration := by
    have hget' := h'.get?_eq scope' hscope'
    rw [hname', hindex, h.get?_eq scope hscope] at hget'
    exact (Option.some.inj hget').symm
  -- What is above a supertype is above the class, so the supertypes have the same scopes.
  have hscopes : scope'.supertypes.map some = scope.supertypes.map some := by
    rw [← h'.supertypes_eq scope' hscope', ← h.supertypes_eq scope hscope, hdeclaration,
      hsupertypes]
    refine List.map_congr_left fun super hsuper => ?_
    obtain ⟨supertype, hmem, hget⟩ := h.exists_mem_supertypes hscope hsuper
    obtain ⟨-, rfl⟩ := get?_eq_some hget
    have hstep := (h.directSupertype_iff hscope).mpr ⟨supertype, hmem, rfl⟩
    rw [hget]
    exact ih supertype hmem fun name hupward => habove name (.head hstep hupward)
  have hsame := List.map_injective_iff.mpr (fun _ _ => Option.some.inj) hscopes
  have hget' := get?_name h'.nodup hscope'
  obtain ⟨_, _, _⟩ := scope
  obtain ⟨_, _, _⟩ := scope'
  simp only at hname' hdeclaration hsame
  rwa [hname', hdeclaration, hsame] at hget'

/-- Each class of a list has either a scope or one error, and the scopes are made of one another
along the supertypes that are in the list. -/
structure Covers (classes : List (QualifiedName × Declaration)) (hierarchy : Hierarchy)
    (errors : List HierarchyError) : Prop where
  scope_or_error : ∀ name ∈ classNames classes,
    (name ∈ hierarchy.names ∧ (errors.map HierarchyError.className).count name = 0) ∨
    (name ∉ hierarchy.names ∧ (errors.map HierarchyError.className).count name = 1)
  only_classes : ∀ name, name ∈ hierarchy.names ∨ name ∈ errors.map HierarchyError.className →
    name ∈ classNames classes
  /-- The scopes stand in the order in which their names first appear. -/
  ordered : hierarchy.names.Sublist (classNames classes).eraseDups
  declaration_eq : ∀ scope ∈ hierarchy.scopes,
    (classes.find? fun entry => entry.2.isClass && entry.1 = scope.name).map Prod.snd =
      some scope.declaration
  supertypes_known : ∀ scope ∈ hierarchy.scopes, ∀ name ∈ scope.declaration.superclassifiers,
    name ∈ classNames classes → name ∈ hierarchy.names
  supertypes_eq : ∀ scope ∈ hierarchy.scopes, scope.supertypes.map some =
    (scope.declaration.superclassifiers.filter fun name => name ∈ classNames classes).map
      hierarchy.get?
  acyclic : ∀ name, ¬ Relation.TransGen hierarchy.DirectSupertype name name

/-- The supertypes of a class that are in the list. -/
theorem supertypes_ofList (classes : List (QualifiedName × Declaration))
    (declaration : Declaration) :
    (ClassIndex.ofList classes).supertypes declaration =
      declaration.superclassifiers.filter fun name => name ∈ classNames classes := by
  rw [ClassIndex.supertypes]
  congr 1
  funext name
  rw [Bool.eq_iff_iff, ← ClassIndex.mem_names_iff, ClassIndex.mem_names_ofList, decide_eq_true_iff]

/-- The hierarchy has the names of those classes that have got their scope. -/
theorem mem_names_scopes_iff {walk : Walk} (h : walk.Valid index) (hnodup : index.names.Nodup) :
    name ∈ names ⟨walk.scopes⟩ ↔ ∃ scope, walk.status name = .built scope := by
  constructor
  · intro hmem
    obtain ⟨scope, hscope, rfl⟩ := exists_of_mem_names hmem
    exact ⟨scope, (h.mem_scopes hnodup).mp hscope⟩
  · rintro ⟨scope, hstatus⟩
    obtain rfl := h.name_of_built name scope hstatus
    exact List.mem_map_of_mem ((h.mem_scopes hnodup).mpr hstatus)

/-- After a finished run a class has either a scope or one error. -/
theorem scope_or_error_of_finished {walk : Walk} (h : walk.Finished index)
    (hnodup : index.names.Nodup) (hname : name ∈ index.names) :
    (name ∈ names ⟨walk.scopes⟩ ∧ (walk.errors.map HierarchyError.className).count name = 0) ∨
    (name ∉ names ⟨walk.scopes⟩ ∧ (walk.errors.map HierarchyError.className).count name = 1) := by
  have hfailed := h.valid.failed_iff name
  have hbuilt : name ∈ names ⟨walk.scopes⟩ ↔ _ := mem_names_scopes_iff h.valid hnodup
  cases hstatus : walk.status name with
  | pending => exact absurd hstatus (h.known name hname)
  | built scope =>
    refine .inl ⟨hbuilt.mpr ⟨scope, hstatus⟩, List.count_eq_zero.mpr ?_⟩
    rw [← hfailed, hstatus]
    simp
  | failed =>
    refine .inr ⟨?_, List.count_eq_one_of_mem h.valid.errors_nodup (hfailed.mp hstatus)⟩
    rw [hbuilt, hstatus]
    simp

/-- Each class of a list has either a scope in the hierarchy or one of the errors, whatever the
limit on the depth, and the supertypes of the classes that have scopes form no cycle. -/
theorem covers_ofClasses (classes : List (QualifiedName × Declaration)) (maxDepth : Nat) :
    (ofClasses classes maxDepth).1.Covers classes (ofClasses classes maxDepth).2 := by
  have hcoherent := coherent_ofClasses classes maxDepth
  obtain ⟨walk, heq, hfinished⟩ := exists_ofClasses_eq classes maxDepth
  have hnodup := ClassIndex.nodup_names_ofList classes
  rw [heq] at hcoherent ⊢
  refine ⟨?_, ?_, ?_, ?_, ?_, ?_, hcoherent.acyclic⟩
  · intro name hname
    exact scope_or_error_of_finished hfinished hnodup (ClassIndex.mem_names_ofList.mpr hname)
  · rintro name (hmem | herror)
    · exact ClassIndex.mem_names_ofList.mp (hcoherent.mem_index hmem)
    · have hfailed := (hfinished.valid.failed_iff name).mpr herror
      exact ClassIndex.mem_names_ofList.mp
        (hfinished.valid.mem_names (by simp [hfailed]))
  · rw [← ClassIndex.names_ofList]
    exact hfinished.valid.names_scopes_sublist hnodup
  · intro scope hscope
    rw [← ClassIndex.get?_ofList]
    exact hcoherent.get?_eq scope hscope
  · intro scope hscope name hname hclass
    obtain ⟨supertype, -, hget⟩ := hcoherent.exists_mem_supertypes hscope
      (ClassIndex.mem_supertypes.mpr ⟨hname, ClassIndex.mem_names_ofList.mpr hclass⟩)
    exact mem_names_of_get? hget
  · intro scope hscope
    rw [← supertypes_ofList]
    exact (hcoherent.supertypes_eq scope hscope).symm

end Hierarchy

end DeclMerge
