import DeclMerge.Proofs.Member.Reordering

/-!
# Supertypes in another order

A class whose supertypes are put in another order stays above the same classes, and no class above
it is changed by that. So its scope has the scopes of the same supertypes, and members and clashes
agree but for visibilities that are blurred. These do depend on the order: of two members with the
same roots the first is kept, and one way down may have lost the visibility that the other one still
has.

## Main definitions

* `ClassIndex.Reorders` — an index with the supertypes of one class in another order
* `Hierarchy.Complete` — a hierarchy with scopes for all classes

## Main results

* `Hierarchy.Complete.get?_eq_of_reorders` — classes that are not below the class keep their scopes
* `Hierarchy.agreesWith_of_perm_supertypes` — the class itself keeps what is not blurred
* `Hierarchy.not_forall_agreesWith` — a visibility that depends on the order
-/

namespace DeclMerge

variable {index index' : ClassIndex} {bottom name : QualifiedName}

/-- Two indexes that have the same classes, but for one whose supertypes come in another order. -/
structure ClassIndex.Reorders (index index' : ClassIndex) (bottom : QualifiedName) : Prop where
  get?_eq : ∀ name, name ≠ bottom → index.get? name = index'.get? name
  exists_get? : ∃ d d', index.get? bottom = some d ∧ index'.get? bottom = some d' ∧
    d.members = d'.members ∧ ∀ name, name ∈ d.superclassifiers ↔ name ∈ d'.superclassifiers

namespace ClassIndex.Reorders

theorem symm (h : index.Reorders index' bottom) : index'.Reorders index bottom := by
  obtain ⟨d, d', hget, hget', hmembers, hsupers⟩ := h.exists_get?
  exact ⟨fun name hname => (h.get?_eq name hname).symm,
    d', d, hget', hget, hmembers.symm, fun name => (hsupers name).symm⟩

theorem mem_names_iff (h : index.Reorders index' bottom) :
    name ∈ index.names ↔ name ∈ index'.names := by
  rw [ClassIndex.mem_names_iff, ClassIndex.mem_names_iff]
  by_cases hname : name = bottom
  · obtain ⟨d, d', hget, hget', -⟩ := h.exists_get?
    rw [hname, hget, hget']
    exact iff_of_true rfl rfl
  · rw [h.get?_eq name hname]

/-- The known supertypes of any declaration are the same, and in the same order. -/
theorem supertypes_eq (h : index.Reorders index' bottom) (declaration : Declaration) :
    index.supertypes declaration = index'.supertypes declaration := by
  rw [ClassIndex.supertypes, ClassIndex.supertypes]
  congr 1
  ext name
  rw [Bool.eq_iff_iff, ← ClassIndex.mem_names_iff, ← ClassIndex.mem_names_iff, h.mem_names_iff]

end ClassIndex.Reorders

/-- Two lists of classes that have the supertypes of one class in another order. -/
theorem ClassIndex.reorders_ofList (bottom : QualifiedName)
    (before after : List (QualifiedName × Declaration)) (header : Header) (kind : ClassKind)
    {supertypes supertypes' : List TypeExpr} (members : List Declaration)
    (hperm : supertypes.Perm supertypes') :
    (ofList (before ++ (bottom, .class header kind supertypes members) :: after)).Reorders
      (ofList (before ++ (bottom, .class header kind supertypes' members) :: after)) bottom := by
  constructor
  · intro name hname
    rw [get?_ofList, get?_ofList]
    simp [List.find?_append, hname.symm]
  · simp only [get?_ofList, List.find?_append]
    -- An earlier class with the name counts in both lists, and the one that is changed does not.
    cases hearlier : before.find? fun entry => entry.2.isClass && entry.1 = bottom with
    | some entry =>
      exact ⟨entry.2, entry.2, rfl, rfl, rfl, fun _ => Iff.rfl⟩
    | none =>
      refine ⟨.class header kind supertypes members, .class header kind supertypes' members, ?_, ?_,
        rfl, fun name => ?_⟩
      · simp [Declaration.isClass, Declaration.kind]
      · simp [Declaration.isClass, Declaration.kind]
      · exact (hperm.map TypeExpr.classifier).mem_iff

namespace Hierarchy

variable {hierarchy hierarchy' : Hierarchy} {scope scope' supertype : ClassScope}

/-- A hierarchy with scopes for all classes. -/
structure Complete (index : ClassIndex) (hierarchy : Hierarchy) : Prop
    extends hierarchy.Coherent index where
  mem_names : ∀ name ∈ index.names, name ∈ hierarchy.names

theorem Complete.exists_get? (h : hierarchy.Complete index) (hname : name ∈ index.names) :
    ∃ scope ∈ hierarchy.scopes, scope.name = name ∧ hierarchy.get? name = some scope := by
  obtain ⟨scope, hscope, rfl⟩ := exists_of_mem_names (h.mem_names name hname)
  exact ⟨scope, hscope, rfl, get?_name h.nodup hscope⟩

/-- Without errors all classes have scopes. -/
theorem complete_ofClasses {classes : List (QualifiedName × Declaration)} {maxDepth : Nat}
    (h : (ofClasses classes maxDepth).2 = []) :
    (ofClasses classes maxDepth).1.Complete (.ofList classes) := by
  refine ⟨coherent_ofClasses classes maxDepth, fun name hname => ?_⟩
  obtain ⟨walk, heq, hfinished⟩ := exists_ofClasses_eq classes maxDepth
  rw [heq] at h ⊢
  have hdecided :=
    scope_or_error_of_finished hfinished (ClassIndex.nodup_names_ofList classes) hname
  simp only [show walk.errors = [] from h, List.map_nil, List.count_nil] at hdecided
  exact (hdecided.resolve_right fun hfailed => absurd hfailed.2 (by decide)).1

/-- Classes that are not below the class that is changed keep their scopes. -/
theorem Complete.get?_eq_of_reorders (h : hierarchy.Complete index)
    (h' : hierarchy'.Complete index') (hreorders : index.Reorders index' bottom)
    (hscope : scope ∈ hierarchy.scopes) (hbelow : ¬ hierarchy.Upward scope.name bottom) :
    hierarchy'.get? scope.name = some scope := by
  refine h.get?_eq_of_upward h'.toCoherent (fun d => (hreorders.supertypes_eq d).symm) hscope
    fun name hupward => ⟨?_, ?_⟩
  · apply h'.mem_names
    rw [← hreorders.mem_names_iff]
    exact h.mem_index (hupward.mem_names (List.mem_map_of_mem hscope))
  · exact (hreorders.get?_eq name fun heq => hbelow (heq ▸ hupward)).symm

/-- The class that is changed declares the same members, and names the same supertypes. -/
theorem Coherent.declarations_of_reorders (h : hierarchy.Coherent index)
    (h' : hierarchy'.Coherent index') (hreorders : index.Reorders index' scope.name)
    (hscope : scope ∈ hierarchy.scopes) (hscope' : scope' ∈ hierarchy'.scopes)
    (hname : scope'.name = scope.name) :
    scope.declaration.members = scope'.declaration.members ∧
      ∀ name, name ∈ scope.declaration.superclassifiers ↔
        name ∈ scope'.declaration.superclassifiers := by
  obtain ⟨d, d', hd, hd', hsame⟩ := hreorders.exists_get?
  rw [h.get?_eq scope hscope] at hd
  rw [← hname, h'.get?_eq scope' hscope'] at hd'
  rwa [Option.some.inj hd, Option.some.inj hd']

/-- The class that is changed keeps its supertypes. -/
theorem Complete.mem_supertypes_of_reorders (h : hierarchy.Complete index)
    (h' : hierarchy'.Complete index') (hreorders : index.Reorders index' scope.name)
    (hscope : scope ∈ hierarchy.scopes) (hscope' : scope' ∈ hierarchy'.scopes)
    (hname : scope'.name = scope.name) (hsupertype : supertype ∈ scope.supertypes) :
    supertype ∈ scope'.supertypes := by
  -- No supertype of the class is below it, so all of them keep their scopes.
  have hstep := (h.directSupertype_iff hscope).mpr ⟨supertype, hsupertype, rfl⟩
  have hmem := h.mem_scopes_of_mem_supertypes hscope hsupertype
  have hget' := h.get?_eq_of_reorders h' hreorders hmem
    fun hupward => h.acyclic scope.name (.head' hstep hupward)
  have hclassifier : supertype.name ∈ scope'.declaration.superclassifiers := by
    obtain ⟨_, hget, hsuper, -⟩ := hstep
    obtain rfl := Option.some.inj ((get?_name h.nodup hscope).symm.trans hget)
    exact ((h.declarations_of_reorders h'.toCoherent hreorders hscope hscope' hname).2 _).mp hsuper
  obtain ⟨other, hother, hget⟩ := h'.exists_mem_supertypes hscope' (ClassIndex.mem_supertypes.mpr
    ⟨hclassifier, hreorders.mem_names_iff.mp (h.mem_index (List.mem_map_of_mem hmem))⟩)
  exact Option.some.inj (hget'.symm.trans hget) ▸ hother

/-- The class that is changed keeps its members and clashes, but for what is blurred. -/
theorem Complete.agreesWith_of_reorders (h : hierarchy.Complete index)
    (h' : hierarchy'.Complete index') (hreorders : index.Reorders index' scope.name)
    (hscope : scope ∈ hierarchy.scopes) (hscope' : scope' ∈ hierarchy'.scopes)
    (hname : scope'.name = scope.name) : scope.AgreesWith scope' scope.Blurs := by
  refine ClassScope.agreesWith_of_mem_supertypes_iff hname ?_ (fun supertype => ⟨?_, ?_⟩)
    fun supertype hsupertype kind name m hm =>
      h.stemsFrom (h.mem_scopes_of_mem_supertypes hscope hsupertype) hm
  · exact (h.declarations_of_reorders h'.toCoherent hreorders hscope hscope' hname).1.symm
  · exact h.mem_supertypes_of_reorders h' hreorders hscope hscope' hname
  · exact h'.mem_supertypes_of_reorders h (hname ▸ hreorders.symm) hscope' hscope hname.symm

/-- In a list of classes without errors, let the supertypes of one class be put in another order,
again without errors. Then its members have the same signatures, types and modalities as before, and
its clashes the same kinds and signatures. Visibilities and clashes about them are the same as well,
except under signatures that are blurred, where one of two visibilities may be unknown. -/
theorem agreesWith_of_perm_supertypes {before after : List (QualifiedName × Declaration)}
    {name : QualifiedName} {header : Header} {kind : ClassKind}
    {supertypes supertypes' : List TypeExpr} {members : List Declaration} {maxDepth : Nat}
    (hperm : supertypes.Perm supertypes')
    (hclean : (ofClasses
      (before ++ (name, .class header kind supertypes members) :: after) maxDepth).2 = [])
    (hclean' : (ofClasses
      (before ++ (name, .class header kind supertypes' members) :: after) maxDepth).2 = []) :
    ∃ scope scope',
      (ofClasses (before ++ (name, .class header kind supertypes members) :: after)
        maxDepth).1.get? name = some scope ∧
      (ofClasses (before ++ (name, .class header kind supertypes' members) :: after)
        maxDepth).1.get? name = some scope' ∧
      scope.AgreesWith scope' scope.Blurs ∧ scope'.AgreesWith scope scope'.Blurs := by
  have hreorders := ClassIndex.reorders_ofList name before after header kind members hperm
  have h := complete_ofClasses hclean
  have h' := complete_ofClasses hclean'
  obtain ⟨d, d', hd, hd', -⟩ := hreorders.exists_get?
  obtain ⟨scope, hscope, rfl, hget⟩ :=
    h.exists_get? (ClassIndex.mem_names_iff.mpr (by rw [hd]; rfl))
  obtain ⟨scope', hscope', hname, hget'⟩ :=
    h'.exists_get? (ClassIndex.mem_names_iff.mpr (by rw [hd']; rfl))
  exact ⟨scope, scope', hget, hget', h.agreesWith_of_reorders h' hreorders hscope hscope' hname,
    h'.agreesWith_of_reorders h (hname ▸ hreorders.symm) hscope' hscope hname.symm⟩

/-! ### Two ways to the same three functions -/

/-- A class that declares an open function with a visibility. -/
def handler (name : String) (visibility : Visibility) : ClassScope :=
  ⟨⟨name⟩, openClass name []
    [.function { name := ⟨"handle"⟩, visibility, modality := .open } none [] ⟨⟨"Unit"⟩, [], false⟩],
    []⟩

/-- A class that declares no members. -/
def derived (name : String) (supertypes : List ClassScope) : ClassScope :=
  ⟨⟨name⟩, openClass name (supertypes.map fun scope => scope.name.text) [], supertypes⟩

/-- Three functions come together at once, the most visible of which is public. -/
def together : ClassScope :=
  derived "Together" [handler "Guarded" .protected, handler "Inner" .internal,
    handler "Outer" .public]

/-- Two functions come together, neither of which is the more visible one. -/
def pair : ClassScope := derived "Pair" [handler "Guarded" .protected, handler "Inner" .internal]

/-- The same three functions come together, but the public one after the others. -/
def stepwise : ClassScope := derived "Stepwise" [pair, handler "Outer" .public]

/-- The classes of both ways. -/
def handlers : List (QualifiedName × Declaration) :=
  [handler "Guarded" .protected, handler "Inner" .internal, handler "Outer" .public, together, pair,
    stepwise].map fun scope => (scope.name, scope.declaration)

/-- The header of a class that has both of them above it. -/
def doubledHeader : Header := { name := ⟨"Doubled"⟩, modality := .open }

/-- The classes of both ways, and the one below. -/
def handlersWith (supertypes : List TypeExpr) : List (QualifiedName × Declaration) :=
  handlers ++ (⟨"Doubled"⟩, .class doubledHeader .class supertypes []) :: []

/-- The two ways as supertypes. -/
def ways : List TypeExpr := [⟨⟨"Together"⟩, [], false⟩, ⟨⟨"Stepwise"⟩, [], false⟩]

theorem errors_handlersWith_ways : (ofClasses (handlersWith ways) 8).2 = [] ∧
    (ofClasses (handlersWith ways.reverse) 8).2 = [] := ⟨rfl, rfl⟩

/-- Both ways may change places without errors. -/
theorem agreesWith_of_perm_supertypes_ways :
    ways.Perm ways.reverse ∧ (ofClasses (handlersWith ways) 8).2 = [] ∧
    (ofClasses (handlersWith ways.reverse) 8).2 = [] ∧
    ∃ scope scope', (ofClasses (handlersWith ways) 8).1.get? ⟨"Doubled"⟩ = some scope ∧
      (ofClasses (handlersWith ways.reverse) 8).1.get? ⟨"Doubled"⟩ = some scope' ∧
      scope.AgreesWith scope' scope.Blurs ∧ scope'.AgreesWith scope scope'.Blurs := by
  have hperm : ways.Perm ways.reverse := ways.reverse_perm.symm
  obtain ⟨hclean, hclean'⟩ := errors_handlersWith_ways
  exact ⟨hperm, hclean, hclean', @agreesWith_of_perm_supertypes handlers [] ⟨"Doubled"⟩
    doubledHeader .class ways ways.reverse [] 8 hperm hclean hclean'⟩

/-- Visibilities do depend on the order of supertypes. The function that comes on both ways is
public if the way that has kept this comes first, and of unknown visibility if the other one
does. -/
theorem not_forall_agreesWith :
    ¬ ∀ (before after : List (QualifiedName × Declaration)) (name : QualifiedName) (header : Header)
      (kind : ClassKind) (supertypes supertypes' : List TypeExpr) (members : List Declaration)
      (maxDepth : Nat), supertypes.Perm supertypes' →
      (ofClasses (before ++ (name, .class header kind supertypes members) :: after)
        maxDepth).2 = [] →
      (ofClasses (before ++ (name, .class header kind supertypes' members) :: after)
        maxDepth).2 = [] →
      ∀ scope scope',
        (ofClasses (before ++ (name, .class header kind supertypes members) :: after)
          maxDepth).1.get? name = some scope →
        (ofClasses (before ++ (name, .class header kind supertypes' members) :: after)
          maxDepth).1.get? name = some scope' →
        scope.AgreesWith scope' (fun _ => False) ∧ scope'.AgreesWith scope (fun _ => False) := by
  intro hclaim
  have hget : (ofClasses (handlersWith ways) 8).1.get? ⟨"Doubled"⟩ =
      some (derived "Doubled" [together, stepwise]) := rfl
  have hget' : (ofClasses (handlersWith ways.reverse) 8).1.get? ⟨"Doubled"⟩ =
      some (derived "Doubled" [stepwise, together]) := rfl
  obtain ⟨hclean, hclean'⟩ := errors_handlersWith_ways
  obtain ⟨hagrees, -⟩ := hclaim handlers [] ⟨"Doubled"⟩ doubledHeader .class ways ways.reverse [] 8
    ways.reverse_perm.symm hclean hclean' _ _ hget hget'
  have hpublic : ∃ m ∈ ((derived "Doubled" [together, stepwise]).lookup .function
      ⟨"handle"⟩).members, m.declaration.visibility = .public := by decide
  have hunknown : ∀ n ∈ ((derived "Doubled" [stepwise, together]).lookup .function
      ⟨"handle"⟩).members, n.declaration.visibility = .unknown := by decide
  obtain ⟨m, hm, hvisibility⟩ := hpublic
  obtain ⟨n, hn, hlike⟩ := hagrees.members .function ⟨"handle"⟩ m hm
  rcases hlike.visibility with hsame | ⟨hfalse, -⟩
  · rw [hunknown n hn, hvisibility] at hsame
    cases hsame
  · exact hfalse

end Hierarchy

end DeclMerge
