import DeclMerge.Declaration.Signature
import DeclMerge.Divergence.Checks
import Mathlib.Data.Multiset.Defs

/-!
# Agreement of declarations

Two declarations agree when comparing them finds no cause. What a comparison sees of a declaration
is its profile: the kind, the header as far as the checks of that kind go, the types, and of the
supertypes of a class only how often each classifier is named. Declarations agree exactly if their
profiles are equal, so agreement is an equivalence. Each check is symmetric, so comparing in the
other order finds the same causes.

## Main definitions

* `Declaration.Agree` — comparing finds nothing
* `Declaration.profile` — what a comparison sees

## Main results

* `declarationVerdict_comm` — the order of two declarations does not matter
* `agree_iff_profile_eq` — declarations agree exactly if their profiles are equal
* `agree_equivalence` — agreement is an equivalence that keeps kind, signature and type
-/

namespace DeclMerge

/-! ### Verdicts that are successes -/

namespace Verdict

theorem isSuccess_iff {v : Verdict} : v.isSuccess = true ↔ v = .success := by
  cases v <;> simp [isSuccess]

theorem and_eq_success_iff {v w : Verdict} : v.and w = .success ↔ v = .success ∧ w = .success := by
  rw [← causes_eq_nil_iff, causes_and, List.append_eq_nil_iff, causes_eq_nil_iff,
    causes_eq_nil_iff]

theorem wrap_eq_success_iff {v : Verdict} {group : List Cause → Cause} :
    v.wrap group = .success ↔ v = .success := by
  cases v with
  | success => rfl
  | failure causes => exact iff_of_false nofun nofun

theorem ofCauses_eq_success_iff {causes : List Cause} :
    ofCauses causes = .success ↔ causes = [] := by
  rw [← causes_eq_nil_iff, causes_ofCauses]

end Verdict

theorem Check.verdict_eq_success_iff {checks : List Check} :
    verdict checks = .success ↔ ∀ c ∈ checks, c.agrees = true := by
  rw [← Verdict.causes_eq_nil_iff, causes_verdict, List.map_eq_nil_iff, List.filter_eq_nil_iff]
  simp

/-! ### The order of two declarations -/

theorem Check.mk_decide_comm {α : Type} [DecidableEq α] (axis : Axis) (x y : α) :
    (⟨axis, decide (x = y)⟩ : Check) = ⟨axis, decide (y = x)⟩ := by
  rw [decide_eq_decide.mpr (eq_comm (a := x))]

theorem sameFlags_comm (flags : Flags) (a b : Header) : sameFlags flags a b = sameFlags flags b a :=
  Bool.beq_comm

section Symmetry

variable (a b : Header)

theorem headerChecks_comm : headerChecks a b = headerChecks b a := by
  rw [headerChecks, Check.mk_decide_comm .qualifiedName, Check.mk_decide_comm .visibility,
    headerChecks]

theorem multiplatformChecks_comm : multiplatformChecks a b = multiplatformChecks b a := by
  simp only [multiplatformChecks, sameFlags_comm _ a b]

theorem functionChecks_comm (r r' : Option TypeExpr) (t t' : TypeExpr) :
    functionChecks a b r r' t t' = functionChecks b a r' r t' t := by
  rw [functionChecks, headerChecks_comm, multiplatformChecks_comm, sameFlags_comm,
    Check.mk_decide_comm .receiver, Check.mk_decide_comm .returnType, functionChecks]

theorem propertyChecks_comm (r r' : Option TypeExpr) (t t' : TypeExpr) :
    propertyChecks a b r r' t t' = propertyChecks b a r' r t' t := by
  simp only [propertyChecks, headerChecks_comm a b, multiplatformChecks_comm a b,
    sameFlags_comm _ a b, Check.mk_decide_comm .receiver r, Check.mk_decide_comm .type t]

theorem supertypesAgree_comm (ss ss' : List TypeExpr) :
    supertypesAgree ss ss' = supertypesAgree ss' ss := by
  rw [Bool.eq_iff_iff, supertypesAgree, supertypesAgree, List.isPerm_iff, List.isPerm_iff,
    List.perm_comm]

theorem classChecks_comm (k k' : ClassKind) (ss ss' : List TypeExpr) :
    classChecks a b k k' ss ss' = classChecks b a k' k ss' ss := by
  simp only [classChecks, headerChecks_comm a b, multiplatformChecks_comm a b,
    sameFlags_comm _ a b, supertypesAgree_comm ss, Check.mk_decide_comm .modality a.modality,
    Check.mk_decide_comm .classKind k]

theorem aliasChecks_comm (e e' : TypeExpr) : aliasChecks a b e e' = aliasChecks b a e' e := by
  rw [aliasChecks, headerChecks_comm, multiplatformChecks_comm, Check.mk_decide_comm .type,
    aliasChecks]

end Symmetry

theorem parameterChecks_comm (a b : Parameter) : parameterChecks a b = parameterChecks b a := by
  rw [parameterChecks, Check.mk_decide_comm .qualifiedName, Check.mk_decide_comm .type,
    Check.mk_decide_comm .isVar, parameterChecks]

theorem divergingPositions_comm (index : Nat) (as bs : List Parameter) :
    divergingPositions index as bs = divergingPositions index bs as := by
  induction as generalizing index bs with
  | nil => cases bs <;> rfl
  | cons a as ih =>
    cases bs with
    | nil => rfl
    | cons b bs => rw [divergingPositions, divergingPositions, parameterChecks_comm, ih]

theorem parameterListVerdict_comm (as bs : List Parameter) :
    parameterListVerdict as bs = parameterListVerdict bs as := by
  rw [parameterListVerdict, parameterListVerdict, divergingPositions_comm]
  by_cases h : as.length = bs.length
  · rw [if_pos h, if_pos h.symm]
  · rw [if_neg h, if_neg fun h' => h h'.symm]

/-- Comparing two declarations finds the same causes in either order. -/
theorem declarationVerdict_comm (a b : Declaration) :
    declarationVerdict a b = declarationVerdict b a := by
  cases a <;> cases b
  case function.function =>
    rw [declarationVerdict, functionChecks_comm, parameterListVerdict_comm, declarationVerdict]
  case property.property => rw [declarationVerdict, propertyChecks_comm, declarationVerdict]
  case class.class => rw [declarationVerdict, classChecks_comm, declarationVerdict]
  case typeAlias.typeAlias => rw [declarationVerdict, aliasChecks_comm, declarationVerdict]
  case value.value =>
    rw [declarationVerdict, parameterVerdict, parameterChecks_comm, ← parameterVerdict,
      declarationVerdict]
  -- Of different kinds, only whether both are classifiers counts.
  all_goals rfl

/-! ### What a comparison sees -/

/-- What a comparison sees of a declaration. Flags are those that the kind is compared by. -/
inductive Profile where
  | function (name : Name) (visibility : Visibility) (flags : List Bool)
      (receiver : Option TypeExpr) (returnType : TypeExpr) (parameters : List Parameter)
  | property (name : Name) (visibility : Visibility) (flags : List Bool)
      (receiver : Option TypeExpr) (type : TypeExpr)
  | «class» (name : Name) (visibility : Visibility) (modality : Modality) (kind : ClassKind)
      (flags : List Bool) (supertypes : Multiset QualifiedName)
  | typeAlias (name : Name) (visibility : Visibility) (flags : List Bool) (expanded : TypeExpr)
  | value (parameter : Parameter)

/-- Which of several flags a header carries. -/
def Header.carried (header : Header) (flags : List Flags) : List Bool :=
  flags.map header.flags.contains

namespace Declaration

/-- What a comparison sees of a declaration. -/
def profile : Declaration → Profile
  | .function h receiver parameters returnType =>
    .function h.name h.visibility
      (h.carried [.isExpect, .isActual, .isExternal, .isSuspend]) receiver returnType parameters
  | .property h receiver type =>
    .property h.name h.visibility
      (h.carried [.isVar, .isLateInit, .isConst, .isExpect, .isActual, .isExternal]) receiver type
  | .class h kind supertypes _ =>
    .class h.name h.visibility h.modality kind
      (h.carried [.isInline, .isData, .isInner, .isCompanion, .isExpect, .isActual, .isExternal])
      (supertypes.map TypeExpr.classifier)
  | .typeAlias h _ expanded =>
    .typeAlias h.name h.visibility (h.carried [.isExpect, .isActual, .isExternal]) expanded
  | .value h type => .value ⟨h.name, type, h.flags.contains .isVar⟩

/-- Comparing the declarations finds no cause. -/
def Agree (a b : Declaration) : Prop := declarationVerdict a b = .success

end Declaration

theorem Check.verdict_parameterChecks_eq_success_iff {a b : Parameter} :
    Check.verdict (parameterChecks a b) = .success ↔ a = b := by
  obtain ⟨name, type, isVar⟩ := a
  obtain ⟨name', type', isVar'⟩ := b
  simp [verdict_eq_success_iff, parameterChecks]

/-- Lists of one length have no diverging position exactly if they are equal. -/
theorem divergingPositions_eq_nil_iff {index : Nat} {as bs : List Parameter}
    (h : as.length = bs.length) : divergingPositions index as bs = [] ↔ as = bs := by
  induction as generalizing index bs with
  | nil => simp [divergingPositions, List.length_eq_zero_iff.mp h.symm]
  | cons a as ih =>
    cases bs with
    | nil => cases h
    | cons b bs =>
      rw [divergingPositions, List.append_eq_nil_iff, Verdict.causes_eq_nil_iff,
        Verdict.wrap_eq_success_iff, Check.verdict_parameterChecks_eq_success_iff,
        ih (Nat.succ.inj h), List.cons_eq_cons]

theorem parameterListVerdict_eq_success_iff {as bs : List Parameter} :
    parameterListVerdict as bs = .success ↔ as = bs := by
  rw [parameterListVerdict]
  by_cases h : as.length = bs.length
  · rw [if_pos h, Verdict.wrap_eq_success_iff, Verdict.ofCauses_eq_success_iff,
      divergingPositions_eq_nil_iff h]
  · rw [if_neg h]
    exact iff_of_false nofun fun heq => h (congrArg List.length heq)

theorem supertypesAgree_iff {ss ss' : List TypeExpr} :
    supertypesAgree ss ss' = true ↔
      ((ss.map TypeExpr.classifier : Multiset QualifiedName) = ss'.map TypeExpr.classifier) := by
  rw [supertypesAgree, List.isPerm_iff, Multiset.coe_eq_coe]

/-- Declarations agree exactly if a comparison sees the same of both. -/
theorem agree_iff_profile_eq {a b : Declaration} : a.Agree b ↔ a.profile = b.profile := by
  rw [Declaration.Agree]
  cases a <;> cases b
  -- The checks of a kind compare the parts of its profile one after the other.
  case function.function =>
    simp [declarationVerdict, Declaration.profile, Header.carried, Verdict.wrap_eq_success_iff,
      Verdict.and_eq_success_iff, Check.verdict_eq_success_iff, functionChecks, headerChecks,
      multiplatformChecks, sameFlags, parameterListVerdict_eq_success_iff, and_assoc]
  case property.property =>
    simp [declarationVerdict, Declaration.profile, Header.carried, Verdict.wrap_eq_success_iff,
      Check.verdict_eq_success_iff, propertyChecks, headerChecks, multiplatformChecks, sameFlags,
      and_assoc]
  case class.class =>
    simp [declarationVerdict, Declaration.profile, Header.carried, Verdict.wrap_eq_success_iff,
      Check.verdict_eq_success_iff, classChecks, headerChecks, multiplatformChecks, sameFlags,
      supertypesAgree_iff, and_assoc]
  case typeAlias.typeAlias =>
    simp [declarationVerdict, Declaration.profile, Header.carried, Verdict.wrap_eq_success_iff,
      Check.verdict_eq_success_iff, aliasChecks, headerChecks, multiplatformChecks, sameFlags,
      and_assoc]
  case value.value =>
    rw [declarationVerdict, parameterVerdict, Verdict.wrap_eq_success_iff,
      Check.verdict_parameterChecks_eq_success_iff, Declaration.profile, Declaration.profile,
      Profile.value.injEq]
  -- Different kinds are a failure, and their profiles differ.
  all_goals exact iff_of_false nofun nofun

namespace Declaration.Agree

variable {a b c : Declaration}

theorem refl (a : Declaration) : a.Agree a := agree_iff_profile_eq.mpr rfl

theorem symm (h : a.Agree b) : b.Agree a :=
  agree_iff_profile_eq.mpr (agree_iff_profile_eq.mp h).symm

theorem trans (h : a.Agree b) (h' : b.Agree c) : a.Agree c :=
  agree_iff_profile_eq.mpr ((agree_iff_profile_eq.mp h).trans (agree_iff_profile_eq.mp h'))

/-- The profile tells the kind, the signature and the type. -/
theorem kind_signature_type_eq (h : a.Agree b) :
    a.kind = b.kind ∧ Signature.of a = Signature.of b ∧ a.type? = b.type? := by
  have hprofile := agree_iff_profile_eq.mp h
  cases a <;> cases b
  case function.function =>
    obtain ⟨hname, -, -, rfl, rfl, rfl⟩ := Profile.function.inj hprofile
    exact ⟨rfl, by rw [Signature.of, Signature.of, hname], rfl⟩
  case property.property =>
    obtain ⟨hname, -, -, rfl, rfl⟩ := Profile.property.inj hprofile
    exact ⟨rfl, by rw [Signature.of, Signature.of, hname], rfl⟩
  case class.class =>
    obtain ⟨hname, -⟩ := Profile.class.inj hprofile
    exact ⟨rfl, by rw [Signature.of, Signature.of, hname], rfl⟩
  case typeAlias.typeAlias =>
    obtain ⟨hname, -, -, rfl⟩ := Profile.typeAlias.inj hprofile
    exact ⟨rfl, by rw [Signature.of, Signature.of, hname], rfl⟩
  case value.value =>
    obtain ⟨hname, rfl, -⟩ := Parameter.mk.inj (Profile.value.inj hprofile)
    exact ⟨rfl, by rw [Signature.of, Signature.of, hname], rfl⟩
  -- Profiles of different kinds differ.
  all_goals cases hprofile

end Declaration.Agree

/-- Comparing is symmetric, causes included. Agreement is an equivalence, and declarations that
agree have one kind, one signature and one type. -/
theorem agree_equivalence :
    (∀ a b, declarationVerdict a b = declarationVerdict b a) ∧
      Equivalence Declaration.Agree ∧
        ∀ a b, Declaration.Agree a b →
          a.kind = b.kind ∧ Signature.of a = Signature.of b ∧ a.type? = b.type? :=
  ⟨declarationVerdict_comm, ⟨.refl, .symm, .trans⟩, fun _ _ h => h.kind_signature_type_eq⟩

end DeclMerge
