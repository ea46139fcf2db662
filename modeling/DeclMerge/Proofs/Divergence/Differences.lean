import DeclMerge.Proofs.Divergence.Pairs
import DeclMerge.Proofs.Divergence.Words

/-!
# Causes name exactly what differs

Each kind of declaration has a table of the axes that it is compared on. The causes of a comparison
are the axes of the table on which the two declarations differ, in the order of the table, and for
functions the positions at which their parameters differ. Every group of causes is there because
something in it differs, so no group is empty.

## Main definitions

* `DeclarationKind.axes` — what declarations of a kind are compared on
* `Declaration.differs` — whether two declarations differ on an axis
* `differingPositions` — where two lists of parameters differ
* `Cause.Filled` — a cause without empty groups

## Main results

* `declarationVerdict_of_kind_eq` — the verdict on declarations of one kind, read off the table
* `divergingPositions_eq_map` — the causes for parameters, read off the positions
* `filled_declarationVerdict` — no group of causes is empty
* `namesDifferences` — what comparing any two declarations reports
-/

namespace DeclMerge

variable {a b : Declaration} {p q : Parameter} {ps qs : List Parameter} {v : Verdict}

/-! ### The table -/

/-- The axes that declarations of a kind are compared on, apart from parameters. -/
def DeclarationKind.axes : DeclarationKind → List Axis
  | .function => [.qualifiedName, .visibility, .expect, .actual, .external, .suspend, .receiver,
      .returnType]
  | .property => [.qualifiedName, .visibility, .isVar, .lateInit, .const, .expect, .actual,
      .external, .receiver, .type]
  | .class => [.qualifiedName, .visibility, .modality, .classKind, .inline, .data, .inner,
      .companion, .expect, .actual, .external, .supertypes]
  | .typeAlias => [.qualifiedName, .visibility, .expect, .actual, .external, .type]
  | .value => [.qualifiedName, .type, .isVar]

/-- The whole under which the causes for declarations of a kind are grouped. -/
def DeclarationKind.whole : DeclarationKind → Whole
  | .function => .function
  | .property | .value => .value
  | .class => .class
  | .typeAlias => .typeAlias

theorem DeclarationKind.nodup_axes (kind : DeclarationKind) : kind.axes.Nodup := by
  cases kind <;> decide

namespace Declaration

/-- The extension receiver of a function or property. -/
def receiver? : Declaration → Option TypeExpr
  | .function _ receiver _ _ => receiver
  | .property _ receiver _ => receiver
  | _ => none

/-- The parameters of a function; other kinds have none. -/
def parameters : Declaration → List Parameter
  | .function _ _ parameters _ => parameters
  | _ => []

/-- The kind of a class. -/
def classKind? : Declaration → Option ClassKind
  | .class _ kind _ _ => some kind
  | _ => none

/-- Whether two declarations differ on an axis. Supertypes count as often as they are named, by
their classifiers alone; on the last three axes no declaration has anything to differ in. -/
def differs (a b : Declaration) : Axis → Bool
  | .qualifiedName => a.name != b.name
  | .visibility => a.visibility != b.visibility
  | .modality => a.modality != b.modality
  | .expect => a.flags.contains .isExpect != b.flags.contains .isExpect
  | .actual => a.flags.contains .isActual != b.flags.contains .isActual
  | .external => a.flags.contains .isExternal != b.flags.contains .isExternal
  | .suspend => a.flags.contains .isSuspend != b.flags.contains .isSuspend
  | .lateInit => a.flags.contains .isLateInit != b.flags.contains .isLateInit
  | .const => a.flags.contains .isConst != b.flags.contains .isConst
  | .isVar => a.flags.contains .isVar != b.flags.contains .isVar
  | .inline => a.flags.contains .isInline != b.flags.contains .isInline
  | .data => a.flags.contains .isData != b.flags.contains .isData
  | .inner => a.flags.contains .isInner != b.flags.contains .isInner
  | .companion => a.flags.contains .isCompanion != b.flags.contains .isCompanion
  | .receiver => a.receiver? != b.receiver?
  | .returnType | .type => a.type? != b.type?
  | .classKind => a.classKind? != b.classKind?
  | .supertypes => (a.superclassifiers : Multiset QualifiedName) != b.superclassifiers
  | .unknown | .size | .conflict => false

/-- The axes of the table on which two declarations differ. -/
def differences (a b : Declaration) : List Axis := a.kind.axes.filter (a.differs b)

end Declaration

/-- Checks that ask on each axis of a table whether there is a difference find those axes on which
there is one. -/
theorem Check.causes_verdict_of_table {checks : List Check} {axes : List Axis}
    {differs : Axis → Bool} (h : checks = axes.map fun axis => ⟨axis, !differs axis⟩) :
    (verdict checks).causes = (axes.filter differs).map .leaf := by
  rw [causes_verdict, h, List.filter_map, List.map_map]
  simp [Function.comp_def]

theorem Check.verdict_of_table {checks : List Check}
    (h : checks = a.kind.axes.map fun axis => ⟨axis, !a.differs b axis⟩) :
    verdict checks = .ofCauses ((a.differences b).map .leaf) := by
  ext1
  rw [Verdict.causes_ofCauses, causes_verdict_of_table h, Declaration.differences]

/-! ### The checks follow the table -/

section Tables

variable (h h' : Header)

theorem functionChecks_eq_map (r r' : Option TypeExpr) (ps ps' : List Parameter)
    (t t' : TypeExpr) :
    functionChecks h h' r r' t t' = DeclarationKind.function.axes.map fun axis =>
      ⟨axis, !(Declaration.function h r ps t).differs (.function h' r' ps' t') axis⟩ := by
  simp [functionChecks, headerChecks, multiplatformChecks, sameFlags, DeclarationKind.axes,
    Declaration.differs, Declaration.name, Declaration.visibility, Declaration.flags,
    Declaration.header, Declaration.receiver?, Declaration.type?, bne, beq_eq_decide]

theorem propertyChecks_eq_map (r r' : Option TypeExpr) (t t' : TypeExpr) :
    propertyChecks h h' r r' t t' = DeclarationKind.property.axes.map fun axis =>
      ⟨axis, !(Declaration.property h r t).differs (.property h' r' t') axis⟩ := by
  simp [propertyChecks, headerChecks, multiplatformChecks, sameFlags, DeclarationKind.axes,
    Declaration.differs, Declaration.name, Declaration.visibility, Declaration.flags,
    Declaration.header, Declaration.receiver?, Declaration.type?, bne, beq_eq_decide]

theorem classChecks_eq_map (k k' : ClassKind) (ss ss' : List TypeExpr)
    (ms ms' : List Declaration) :
    classChecks h h' k k' ss ss' = DeclarationKind.class.axes.map fun axis =>
      ⟨axis, !(Declaration.class h k ss ms).differs (.class h' k' ss' ms') axis⟩ := by
  have hsupertypes : supertypesAgree ss ss' =
      !(Declaration.class h k ss ms).differs (.class h' k' ss' ms') .supertypes := by
    rw [Bool.eq_iff_iff, supertypesAgree_iff]
    simp [Declaration.differs, Declaration.superclassifiers, Declaration.supertypes]
  rw [classChecks, hsupertypes]
  simp [headerChecks, multiplatformChecks, sameFlags, DeclarationKind.axes,
    Declaration.differs, Declaration.name, Declaration.visibility, Declaration.modality,
    Declaration.flags, Declaration.header, Declaration.classKind?, bne, beq_eq_decide]

theorem aliasChecks_eq_map (u u' e e' : TypeExpr) :
    aliasChecks h h' e e' = DeclarationKind.typeAlias.axes.map fun axis =>
      ⟨axis, !(Declaration.typeAlias h u e).differs (.typeAlias h' u' e') axis⟩ := by
  simp [aliasChecks, headerChecks, multiplatformChecks, sameFlags, DeclarationKind.axes,
    Declaration.differs, Declaration.name, Declaration.visibility, Declaration.flags,
    Declaration.header, Declaration.type?, bne, beq_eq_decide]

theorem valueChecks_eq_map (t t' : TypeExpr) :
    parameterChecks ⟨h.name, t, h.flags.contains .isVar⟩ ⟨h'.name, t', h'.flags.contains .isVar⟩ =
      DeclarationKind.value.axes.map fun axis =>
        ⟨axis, !(Declaration.value h t).differs (.value h' t') axis⟩ := by
  simp [parameterChecks, DeclarationKind.axes, Declaration.differs, Declaration.name,
    Declaration.flags, Declaration.header, Declaration.type?, bne, beq_eq_decide]

end Tables

/-- Declarations of one kind diverge for the differences in the table and for their parameters. -/
theorem declarationVerdict_of_kind_eq (hkind : a.kind = b.kind) :
    declarationVerdict a b =
      ((Verdict.ofCauses ((a.differences b).map .leaf)).and
        (parameterListVerdict a.parameters b.parameters)).wrap (.composite a.kind.whole) := by
  cases a <;> cases b
  case function.function h r ps t h' r' ps' t' =>
    rw [declarationVerdict, Check.verdict_of_table (functionChecks_eq_map h h' r r' ps ps' t t')]
    rfl
  -- The other kinds have no parameters.
  case property.property h r t h' r' t' =>
    rw [declarationVerdict, Check.verdict_of_table (propertyChecks_eq_map h h' r r' t t')]
    exact congrArg (Verdict.wrap · _) (Verdict.and_success _).symm
  case class.class h k ss ms h' k' ss' ms' =>
    rw [declarationVerdict, Check.verdict_of_table (classChecks_eq_map h h' k k' ss ss' ms ms')]
    exact congrArg (Verdict.wrap · _) (Verdict.and_success _).symm
  case typeAlias.typeAlias h u e h' u' e' =>
    rw [declarationVerdict, Check.verdict_of_table (aliasChecks_eq_map h h' u u' e e')]
    exact congrArg (Verdict.wrap · _) (Verdict.and_success _).symm
  case value.value h t h' t' =>
    rw [declarationVerdict, parameterVerdict,
      Check.verdict_of_table (valueChecks_eq_map h h' t t')]
    exact congrArg (Verdict.wrap · _) (Verdict.and_success _).symm
  all_goals cases hkind

/-! ### Parameters -/

namespace Parameter

/-- Whether two parameters differ on an axis. -/
def differs (p q : Parameter) : Axis → Bool
  | .qualifiedName => p.name != q.name
  | .type => p.type != q.type
  | .isVar => p.isVar != q.isVar
  | _ => false

/-- The axes on which two parameters differ. -/
def differences (p q : Parameter) : List Axis :=
  [.qualifiedName, .type, .isVar].filter (p.differs q)

end Parameter

theorem causes_verdict_parameterChecks (p q : Parameter) :
    (Check.verdict (parameterChecks p q)).causes = (p.differences q).map .leaf := by
  apply Check.causes_verdict_of_table
  simp [parameterChecks, Parameter.differs, bne, beq_eq_decide]

theorem Parameter.differences_eq_nil_iff : p.differences q = [] ↔ p = q := by
  rw [← Check.verdict_parameterChecks_eq_success_iff, ← Verdict.causes_eq_nil_iff,
    causes_verdict_parameterChecks, List.map_eq_nil_iff]

/-- The positions at which two lists of parameters differ. -/
def differingPositions (ps qs : List Parameter) : List Nat :=
  (List.range ps.length).filter fun i => ps[i]? ≠ qs[i]?

/-- The axes on which the parameters at a position differ. -/
def differencesAt (ps qs : List Parameter) (i : Nat) : List Axis :=
  match ps[i]?, qs[i]? with
  | some p, some q => p.differences q
  | _, _ => []

theorem differingPositions_cons :
    differingPositions (p :: ps) (q :: qs) =
      (if p = q then [] else [0]) ++ (differingPositions ps qs).map (· + 1) := by
  rw [differingPositions, List.length_cons, List.range_succ_eq_map, List.filter_cons,
    List.filter_map]
  by_cases h : p = q
  · simp [h, differingPositions, Function.comp_def]
  · simp [h, differingPositions, Function.comp_def]

/-- Lists of one length diverge at the positions at which they differ. -/
theorem divergingPositions_eq_map {index : Nat} (hlength : ps.length = qs.length) :
    divergingPositions index ps qs = (differingPositions ps qs).map fun i =>
      .parameter (index + i) ((differencesAt ps qs i).map .leaf) := by
  induction ps generalizing index qs with
  | nil => rfl
  | cons p ps ih =>
    cases qs with
    | nil => cases hlength
    | cons q qs =>
      rw [divergingPositions, ih (Nat.succ.inj hlength), differingPositions_cons, List.map_append,
        List.map_map, Verdict.causes_wrap, causes_verdict_parameterChecks]
      congr 1
      · by_cases h : p = q
        · rw [if_pos h, if_pos (List.map_eq_nil_iff.mpr (Parameter.differences_eq_nil_iff.mpr h))]
          rfl
        · rw [if_neg h, if_neg fun hnil =>
            h (Parameter.differences_eq_nil_iff.mp (List.map_eq_nil_iff.mp hnil))]
          rfl
      · refine List.map_congr_left fun i _ => ?_
        rw [Function.comp_apply, Nat.add_assoc, Nat.add_comm 1]
        rfl

theorem sorted_differingPositions (ps qs : List Parameter) :
    (differingPositions ps qs).Pairwise (· < ·) :=
  List.pairwise_lt_range.filter _

theorem mem_differingPositions {i : Nat} :
    i ∈ differingPositions ps qs ↔ i < ps.length ∧ ps[i]? ≠ qs[i]? := by
  simp [differingPositions]

/-! ### Groups that are not empty -/

/-- Every group in the cause has causes in it. -/
inductive Cause.Filled : Cause → Prop
  | leaf (axis : Axis) : Filled (.leaf axis)
  | parameter {index : Nat} {causes : List Cause} (hne : causes ≠ [])
      (h : ∀ cause ∈ causes, Filled cause) : Filled (.parameter index causes)
  | composite {whole : Whole} {causes : List Cause} (hne : causes ≠ [])
      (h : ∀ cause ∈ causes, Filled cause) : Filled (.composite whole causes)

/-- No cause of the verdict has an empty group in it. -/
def Verdict.Filled (v : Verdict) : Prop := ∀ cause ∈ v.causes, cause.Filled

namespace Verdict.Filled

theorem fail {cause : Cause} (h : cause.Filled) : (Verdict.fail cause).Filled :=
  List.forall_mem_singleton.mpr h

theorem and {v w : Verdict} (hv : v.Filled) (hw : w.Filled) : (v.and w).Filled := by
  rw [Filled, causes_and]
  exact List.forall_mem_append.mpr ⟨hv, hw⟩

/-- A failure has causes, so the group that it is wrapped in is not empty. -/
theorem wrap {group : List Cause → Cause} (h : v.Filled)
    (hgroup : ∀ causes, causes ≠ [] → (∀ cause ∈ causes, cause.Filled) → (group causes).Filled) :
    (v.wrap group).Filled := by
  cases v with
  | success => exact nofun
  | failure causes => exact fail (hgroup causes.toList causes.ne_nil h)

theorem composite (whole : Whole) (h : v.Filled) : (v.wrap (.composite whole)).Filled :=
  h.wrap fun _ => .composite

theorem parameter (index : Nat) (h : v.Filled) : (v.wrap (.parameter index)).Filled :=
  h.wrap fun _ => .parameter

end Verdict.Filled

theorem Check.filled_verdict (checks : List Check) : (verdict checks).Filled := by
  intro cause hcause
  rw [causes_verdict] at hcause
  obtain ⟨check, -, rfl⟩ := List.mem_map.mp hcause
  exact .leaf check.axis

theorem filled_divergingPositions (index : Nat) (ps qs : List Parameter) :
    ∀ cause ∈ divergingPositions index ps qs, cause.Filled := by
  induction ps generalizing index qs with
  | nil => exact nofun
  | cons p ps ih =>
    cases qs with
    | nil => exact nofun
    | cons q qs =>
      rw [divergingPositions]
      exact List.forall_mem_append.mpr
        ⟨(Check.filled_verdict _).parameter index, ih (index + 1) qs⟩

theorem filled_parameterListVerdict (ps qs : List Parameter) :
    (parameterListVerdict ps qs).Filled := by
  rw [parameterListVerdict]
  split
  · refine Verdict.Filled.composite _ ?_
    rw [Verdict.Filled, Verdict.causes_ofCauses]
    exact filled_divergingPositions 0 ps qs
  · exact .fail (.composite (List.cons_ne_nil _ _) (List.forall_mem_singleton.mpr (.leaf .size)))

theorem filled_differentKinds (a b : Declaration) : (differentKinds a b).Filled := by
  rw [differentKinds]
  split
  · exact .fail (.composite (List.cons_ne_nil _ _)
      (List.forall_mem_singleton.mpr (.leaf .classKind)))
  · exact .fail (.leaf .unknown)

theorem declarationVerdict_of_kind_ne (hkind : a.kind ≠ b.kind) :
    declarationVerdict a b = differentKinds a b := by
  cases a <;> cases b <;> first | rfl | exact absurd rfl hkind

/-- No group of causes is empty, whatever declarations are compared. -/
theorem filled_declarationVerdict (a b : Declaration) : (declarationVerdict a b).Filled := by
  by_cases hkind : a.kind = b.kind
  · rw [declarationVerdict_of_kind_eq hkind]
    refine Verdict.Filled.composite _ (.and (fun cause hcause => ?_)
      (filled_parameterListVerdict _ _))
    rw [Verdict.causes_ofCauses] at hcause
    obtain ⟨axis, -, rfl⟩ := List.mem_map.mp hcause
    exact .leaf axis
  · rw [declarationVerdict_of_kind_ne hkind]
    exact filled_differentKinds a b

theorem filled_contributionVerdict (cs : List Contribution) : (contributionVerdict cs).Filled := by
  intro cause hcause
  rw [contributionVerdict, combineVerdicts, Verdict.causes_collect, pairVerdicts_eq_map,
    List.mem_flatMap] at hcause
  obtain ⟨verdict, hverdict, hcause⟩ := hcause
  obtain ⟨pair, hpair, rfl⟩ := List.mem_map.mp hverdict
  obtain ⟨p, -, rfl⟩ := List.mem_map.mp hpair
  exact filled_declarationVerdict _ _ cause hcause

/-! ### What a comparison reports -/

/-- Comparing two declarations of one kind reports the differences in the table of the kind, in its
order and none twice, and after them those of the parameters. -/
structure NamesDifferences (a b : Declaration) : Prop where
  success_iff : declarationVerdict a b = .success ↔
    (∀ axis ∈ a.kind.axes, a.differs b axis = false) ∧ a.parameters = b.parameters
  of_failure : declarationVerdict a b ≠ .success →
    declarationVerdict a b = .fail (.composite a.kind.whole
      ((a.kind.axes.filter (a.differs b)).map .leaf ++
        (parameterListVerdict a.parameters b.parameters).causes))
  nodup : a.kind.axes.Nodup

/-- Comparing two lists of parameters reports their sizes, or else the positions at which they
differ, each with the axes on which the parameters there differ. -/
structure NamesPositions (ps qs : List Parameter) : Prop where
  success_iff : parameterListVerdict ps qs = .success ↔ ps = qs
  of_length_ne : ps.length ≠ qs.length →
    parameterListVerdict ps qs = .fail (.composite .parameterList [.leaf .size])
  of_length_eq : ps.length = qs.length → ps ≠ qs → ∃ positions : List Nat,
    positions.Pairwise (· < ·) ∧
      (∀ i, i ∈ positions ↔ i < ps.length ∧ ps[i]? ≠ qs[i]?) ∧
      parameterListVerdict ps qs = .fail (.composite .parameterList
        (positions.map fun i => .parameter i ((differencesAt ps qs i).map .leaf)))

theorem Verdict.eq_fail_of_wrap_ne {group : List Cause → Cause} (h : v.wrap group ≠ .success) :
    v.wrap group = .fail (group v.causes) := by
  cases v with
  | success => exact absurd rfl h
  | failure causes => rfl

theorem namesDifferences_of_kind_eq (hkind : a.kind = b.kind) : NamesDifferences a b where
  success_iff := by
    rw [declarationVerdict_of_kind_eq hkind, Verdict.wrap_eq_success_iff,
      Verdict.and_eq_success_iff, Verdict.ofCauses_eq_success_iff, List.map_eq_nil_iff,
      Declaration.differences, List.filter_eq_nil_iff, parameterListVerdict_eq_success_iff]
    simp only [Bool.not_eq_true]
  of_failure hfailure := by
    rw [declarationVerdict_of_kind_eq hkind] at hfailure ⊢
    rw [Verdict.eq_fail_of_wrap_ne hfailure, Verdict.causes_and, Verdict.causes_ofCauses,
      Declaration.differences]
  nodup := a.kind.nodup_axes

theorem namesPositions (ps qs : List Parameter) : NamesPositions ps qs where
  success_iff := parameterListVerdict_eq_success_iff
  of_length_ne hlength := by rw [parameterListVerdict, if_neg hlength]
  of_length_eq hlength hne := by
    refine ⟨differingPositions ps qs, sorted_differingPositions ps qs,
      fun _ => mem_differingPositions, ?_⟩
    have hfailure := mt parameterListVerdict_eq_success_iff.mp hne
    rw [parameterListVerdict, if_pos hlength] at hfailure ⊢
    rw [Verdict.eq_fail_of_wrap_ne hfailure, Verdict.causes_ofCauses,
      divergingPositions_eq_map hlength]
    simp only [Nat.zero_add]

/-- A comparison names what differs and nothing else. Declarations of one kind diverge for the
differences in the table of the kind, supertypes by their classifiers with repetitions; parameters
for their number or at the positions that differ; declarations of different kinds for the kind of
class if both are classifiers, and for an unknown reason if not. No group of causes is empty. -/
theorem namesDifferences :
    (∀ a b : Declaration, a.kind = b.kind → NamesDifferences a b) ∧
    (∀ a b : Declaration, a.isClass = true → b.isClass = true →
      (.supertypes ∈ a.kind.axes.filter (a.differs b) ↔
        (a.superclassifiers : Multiset QualifiedName) ≠ b.superclassifiers)) ∧
    (∀ ps qs, NamesPositions ps qs) ∧
    (∀ a b : Declaration, a.kind ≠ b.kind → declarationVerdict a b =
      if a.kind.isClassifier ∧ b.kind.isClassifier then
        .fail (.composite .class [.leaf .classKind])
      else .fail (.leaf .unknown)) ∧
    (∀ a b, (declarationVerdict a b).Filled) ∧ (∀ ps qs, (parameterListVerdict ps qs).Filled) ∧
      ∀ cs, (contributionVerdict cs).Filled := by
  refine ⟨fun a b => namesDifferences_of_kind_eq, fun a b ha _ => ?_, namesPositions,
    fun a b hkind => ?_, filled_declarationVerdict, filled_parameterListVerdict,
    filled_contributionVerdict⟩
  · have hkind : a.kind = .class := of_decide_eq_true ha
    simp [hkind, DeclarationKind.axes, Declaration.differs]
  · rw [declarationVerdict_of_kind_ne hkind, differentKinds]
    simp only [Bool.and_eq_true]

/-- A function with flags, whose parameters have these types. -/
def fetchFunction (flags : Flags) (types : List String) : Declaration :=
  .function { name := ⟨"fetch"⟩, flags } none
    (types.map fun type => { name := ⟨"from"⟩, type := ⟨⟨type⟩, [], false⟩ }) ⟨⟨"Int"⟩, [], false⟩

/-- One of two functions suspends, and their second parameters have different types. -/
theorem namesDifferences_fetchFunction :
    (fetchFunction .isSuspend ["Int", "Int"]).kind = (fetchFunction .empty ["Int", "Long"]).kind ∧
    declarationVerdict (fetchFunction .isSuspend ["Int", "Int"])
        (fetchFunction .empty ["Int", "Long"]) =
      .fail (.composite .function
        [.leaf .suspend, .composite .parameterList [.parameter 1 [.leaf .type]]]) := by
  have hnames := namesDifferences.1 (fetchFunction .isSuspend ["Int", "Int"])
    (fetchFunction .empty ["Int", "Long"]) rfl
  refine ⟨rfl, hnames.of_failure fun hsuccess => ?_⟩
  exact absurd (hnames.success_iff.mp hsuccess).2 (by decide)

end DeclMerge
