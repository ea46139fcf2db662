import DeclMerge.Proofs.Container.Entries
import DeclMerge.Proofs.Container.Repetitions
import DeclMerge.Proofs.Container.Verdicts
import DeclMerge.Proofs.Declaration.Flags

/-!
# Containers that are aborted

The standard maker refuses a declaration only when it is to stand for all targets and has both
flags already: each side of a diverging declaration has one flag set and the other one cleared. So a
container with a level of nesting left is aborted for one of two reasons. Some target repeats a
declaration, or the targets agree on a declaration that is expected and an implementation at once.

## Main definitions

* `agreesOnBoth` — a group that the standard maker refuses
* `AbortRule` — when a container is aborted, and with which error

## Main results

* `mergedOf_standard_eq` — what the standard maker makes, and what it refuses
* `groupEntries_standard_eq_error_iff` — the first group that is refused aborts the container
* `abortRule_containerEntries` — containers are aborted by the rule
-/

namespace DeclMerge

/-! ### Flags of both sides -/

namespace Flags

theorem contains_iff {a b : Flags} : a.contains b = true ↔ a.inter b = b := by
  obtain ⟨a⟩ := a
  obtain ⟨b⟩ := b
  simp [contains, inter]

/-- Of the flags that are removed only those are left that are added. -/
theorem inter_union_diff (a b c : Flags) : ((a.diff b).union c).inter b = c.inter b := by
  refine eq_of_bit fun i hi => ?_
  rw [bit_inter, bit_union, bit_diff _ _ hi, bit_inter]
  cases a.bit i <;> cases b.bit i <;> cases c.bit i <;> rfl

/-- Flags of which none is in `b` add none of `b`. -/
theorem inter_union_inter {b c : Flags} (a d : Flags) (h : c.inter b = empty) :
    (d.union (a.inter c)).inter b = d.inter b := by
  refine eq_of_bit fun i _ => ?_
  have hnone : (c.bit i && b.bit i) = false := by rw [← bit_inter, h, bit_empty]
  rw [bit_inter, bit_union, bit_inter, bit_inter, Bool.and_or_distrib_right, Bool.and_assoc, hnone,
    Bool.and_false, Bool.or_false]

end Flags

namespace Declaration

@[simp] theorem flags_withFlags (d : Declaration) (flags : Flags) :
    (d.withFlags flags).flags = d.flags.union flags := by
  cases d <;> rfl

@[simp] theorem flags_withoutFlags (d : Declaration) (flags : Flags) :
    (d.withoutFlags flags).flags = d.flags.diff flags := by
  cases d <;> rfl

@[simp] theorem flags_withMembers (d : Declaration) (members : List Declaration) :
    (d.withMembers members).flags = d.flags := by
  cases d <;> rfl

/-- The declaration is expected and an implementation at once. -/
def isBoth (d : Declaration) : Bool := d.isExpect && d.isActual

theorem isBoth_withMembers (d : Declaration) (members : List Declaration) :
    (d.withMembers members).isBoth = d.isBoth := by
  simp only [isBoth, isExpect, isActual, flags_withMembers]

end Declaration

variable {maker : Maker} {mergeMembers : ContainerMerge} {container name : QualifiedName}
  {first : Contribution} {rest group : List Contribution} {groups : List (List Contribution)}
  {limit levels : Nat} {error : InputError}

namespace Maker

theorem isActual_expectSide (d : Declaration) : (expectSide d).isActual = false := by
  rw [Declaration.isActual, Bool.eq_false_iff, Ne, Flags.contains_iff, expectSide,
    Declaration.flags_withFlags, Declaration.flags_withoutFlags, Flags.inter_union_diff]
  decide

theorem isExpect_actualSide (d : Declaration) : (actualSide d).isExpect = false := by
  rw [Declaration.isExpect, Bool.eq_false_iff, Ne, Flags.contains_iff, actualSide,
    Declaration.flags_withFlags, Declaration.flags_withoutFlags, Flags.inter_union_diff]
  decide

theorem isActual_emptyClassOf (d : Declaration) : (emptyClassOf d).isActual = false := by
  rw [Declaration.isActual, Bool.eq_false_iff, Ne, Flags.contains_iff]
  change ¬ (Flags.isExpect.union (d.flags.inter .isExternal)).inter .isActual = .isActual
  rw [Flags.inter_union_inter d.flags .isExpect rfl]
  decide

theorem isBoth_expectSide (d : Declaration) : (expectSide d).isBoth = false := by
  simp [Declaration.isBoth, isActual_expectSide]

theorem isBoth_actualSide (d : Declaration) : (actualSide d).isBoth = false := by
  simp [Declaration.isBoth, isExpect_actualSide]

theorem isBoth_emptyClassOf (d : Declaration) : (emptyClassOf d).isBoth = false := by
  simp [Declaration.isBoth, isActual_emptyClassOf]

theorem unlessBoth_eq (name : QualifiedName) (d : Declaration) :
    unlessBoth name d = if d.isBoth then .error (.expectAndActual name) else .ok d := rfl

end Maker

/-! ### One group -/

/-- All targets of a group agree on a declaration that is, for the first one, expected and an
implementation at once. -/
def agreesOnBoth (group : List Contribution) : Bool :=
  ((pairVerdicts group).all fun pair => pair.verdict.isSuccess) &&
    group.head?.any fun first => first.declaration.isBoth

/-- The standard maker refuses a declaration that stands for all targets if it is both. It refuses
nothing of a diverging one, since nothing that is made for one side only is both. -/
theorem mergedOf_standard_eq (name : QualifiedName) (verdict : Verdict)
    (group : List Contribution) (declaration representative : Declaration) :
    mergedOf .standard name verdict group declaration representative =
      if verdict.isSuccess then
        if representative.isBoth then .error (.expectAndActual name)
        else .ok (.common representative (.ofList (group.map Contribution.target)))
      else .ok (.expectActual
        (if declaration.kind = .typeAlias then Maker.emptyClassOf declaration
          else Maker.expectSide representative)
        (group.map fun c => (c.target, Maker.actualSide c.declaration))) := by
  have hexpect : ∀ d, Maker.standard.expect name d = .ok (Maker.expectSide d) := fun d => by
    simp [Maker.standard, Maker.unlessBoth_eq, Maker.isBoth_expectSide]
  have hempty : ∀ d, Maker.standard.emptyClass name d = .ok (Maker.emptyClassOf d) := fun d => by
    simp [Maker.standard, Maker.unlessBoth_eq, Maker.isBoth_emptyClassOf]
  have hactuals : (group.mapM fun c => do
      return (c.target, ← Maker.standard.actual name c.declaration c.target)) =
        .ok (group.map fun c => (c.target, Maker.actualSide c.declaration)) := by
    refine mapM_eq_ok_iff.mpr (List.forall₂_map_right_iff.mpr (List.forall₂_same.mpr ?_))
    intro c _
    simp [Maker.standard, Maker.unlessBoth_eq, Maker.isBoth_actualSide, bind, Except.bind, pure,
      Except.pure]
  unfold mergedOf
  cases verdict.isSuccess with
  | true =>
    simp only [if_true, Maker.standard, Maker.unlessBoth_eq]
    cases representative.isBoth <;> simp [bind, Except.bind, pure, Except.pure]
  | false =>
    rw [hactuals, if_neg Bool.false_ne_true, if_neg Bool.false_ne_true]
    split <;> simp [hexpect, hempty, bind, Except.bind, pure, Except.pure]

theorem mergedOf_standard_eq_error_iff {verdict : Verdict}
    {declaration representative : Declaration} :
    mergedOf .standard name verdict group declaration representative = .error error ↔
      (verdict.isSuccess && representative.isBoth) = true ∧ error = .expectAndActual name := by
  rw [mergedOf_standard_eq]
  cases verdict.isSuccess <;> cases representative.isBoth <;> simp [eq_comm]

theorem groupEntry_eq_error_iff :
    (groupEntry maker mergeMembers container first rest).result = .error error ↔
      mergedOf maker (container.child first.declaration.name)
        (compareGroup (container.child first.declaration.name) (Signature.of first.declaration)
          (first :: rest)).1 (first :: rest) first.declaration
        (first.declaration.withMembers ((groupMembers mergeMembers
          (container.child first.declaration.name) (first :: rest)).1.1.map
            Entry.representative)) = .error error := by
  simp only [groupEntry, Signature.name_of]
  split
  · rename_i hmerged
    rw [hmerged]
    simp
  · rename_i hmerged
    rw [hmerged]
    simp

/-- A group is refused exactly if its targets agree on a declaration that is both. -/
theorem groupEntry_standard_eq_error_iff :
    (groupEntry .standard mergeMembers container first rest).result = .error error ↔
      agreesOnBoth (first :: rest) = true ∧
        error = .expectAndActual (container.child first.declaration.name) := by
  rw [groupEntry_eq_error_iff, mergedOf_standard_eq_error_iff, isSuccess_compareGroup,
    Declaration.isBoth_withMembers]
  rfl

theorem exists_groupEntry_standard_eq_ok_iff :
    (∃ found, (groupEntry .standard mergeMembers container first rest).result = .ok found) ↔
      agreesOnBoth (first :: rest) = false := by
  rw [← Bool.not_eq_true]
  cases hresult : (groupEntry .standard mergeMembers container first rest).result with
  | ok found =>
    refine iff_of_true ⟨found, rfl⟩ fun hboth => ?_
    exact absurd (hresult.symm.trans (groupEntry_standard_eq_error_iff.mpr ⟨hboth, rfl⟩)) nofun
  | error error =>
    exact iff_of_false nofun (not_not.mpr (groupEntry_standard_eq_error_iff.mp hresult).1)

theorem groupEntries_cons_eq_error_iff :
    (groupEntries maker mergeMembers container ((first :: rest) :: groups)).result =
        .error error ↔
      (groupEntry maker mergeMembers container first rest).result = .error error ∨
        ((∃ found, (groupEntry maker mergeMembers container first rest).result = .ok found) ∧
          (groupEntries maker mergeMembers container groups).result = .error error) := by
  rw [groupEntries]
  dsimp only
  cases (groupEntry maker mergeMembers container first rest).result with
  | error other => simp
  | ok found =>
    cases (groupEntries maker mergeMembers container groups).result <;> simp

/-- The first group that is refused aborts the container. -/
theorem groupEntries_standard_eq_error_iff :
    (groupEntries .standard mergeMembers container groups).result = .error error ↔
      ∃ first rest, groups.find? agreesOnBoth = some (first :: rest) ∧
        error = .expectAndActual (container.child first.declaration.name) := by
  induction groups with
  | nil => simp [groupEntries]
  | cons group groups ih =>
    cases group with
    | nil => simpa [groupEntries, List.find?_cons, agreesOnBoth] using ih
    | cons first rest =>
      rw [groupEntries_cons_eq_error_iff, ih, groupEntry_standard_eq_error_iff,
        exists_groupEntry_standard_eq_ok_iff, List.find?_cons]
      cases agreesOnBoth (first :: rest) <;> simp

theorem aborted_groupEntries_standard_iff :
    (groupEntries .standard mergeMembers container groups).Aborted ↔
      ∃ group ∈ groups, agreesOnBoth group = true := by
  constructor
  · rintro ⟨error, herror⟩
    obtain ⟨first, rest, hfind, -⟩ := groupEntries_standard_eq_error_iff.mp herror
    exact ⟨_, List.mem_of_find?_eq_some hfind, List.find?_some hfind⟩
  · intro hsome
    obtain ⟨group, hfind⟩ := Option.isSome_iff_exists.mp (List.find?_isSome.mpr hsome)
    cases group with
    | nil => exact absurd (List.find?_some hfind) (by simp [agreesOnBoth])
    | cons first rest =>
      exact ⟨_, groupEntries_standard_eq_error_iff.mpr ⟨first, rest, hfind, rfl⟩⟩

/-! ### One container -/

/-- When a container is aborted that has a level of nesting left, and with which error. -/
structure AbortRule (container : QualifiedName) (inputs : List TargetInput)
    (outcome : Outcome (List Entry)) : Prop where
  aborted_iff : outcome.Aborted ↔
    (∃ input ∈ inputs, ¬ (input.declarations.map Signature.of).Nodup) ∨
      ∃ groups, groupContributions container inputs = .ok groups ∧
        ∃ group ∈ groups, agreesOnBoth group = true
  /-- The error names the first repeated declaration, and nothing has been merged before it. -/
  of_repeated : (∃ input ∈ inputs, ¬ (input.declarations.map Signature.of).Nodup) →
    ∃ c, IsFirstRepeat targetSignature (contributionsOf inputs) c ∧
      outcome = ⟨.error (.duplicateDeclaration container (Signature.of c.declaration).text
        c.target), []⟩
  /-- Otherwise the error names the first group whose targets agree on both. -/
  of_not_repeated : (∀ input ∈ inputs, (input.declarations.map Signature.of).Nodup) →
    outcome.Aborted → ∃ groups first rest, groupContributions container inputs = .ok groups ∧
      groups.find? agreesOnBoth = some (first :: rest) ∧
        outcome.result = .error (.expectAndActual (container.child first.declaration.name))

/-- A container in which a target repeats a signature has nothing but the error. -/
theorem containerEntries_of_repeated {inputs : List TargetInput}
    (htargets : (inputs.map TargetInput.target).Nodup)
    (h : ∃ input ∈ inputs, ¬ (input.declarations.map Signature.of).Nodup) :
    ∃ c, IsFirstRepeat targetSignature (contributionsOf inputs) c ∧
      containerEntries maker limit (levels + 1) container inputs =
        ⟨.error (.duplicateDeclaration container (Signature.of c.declaration).text c.target),
          []⟩ := by
  obtain ⟨input, hinput, hdup⟩ := h
  have hslots := mt (nodup_slots_iff htargets).mp fun hall => hdup (hall input hinput)
  obtain ⟨c, hc⟩ := exists_isFirstRepeat_iff.mpr hslots
  refine ⟨c, (isFirstRepeat_slot_iff htargets).mp hc, ?_⟩
  rw [containerEntries, groupContributions_eq_error hc]

/-- Any other container is merged group by group. -/
theorem containerEntries_of_not_repeated {inputs : List TargetInput}
    (htargets : (inputs.map TargetInput.target).Nodup)
    (h : ∀ input ∈ inputs, (input.declarations.map Signature.of).Nodup) :
    ∃ groups, groupContributions container inputs = .ok groups ∧
      containerEntries maker limit (levels + 1) container inputs =
        groupEntries maker (containerEntries maker limit levels) container groups := by
  have hgroups : groupContributions container inputs = .ok _ :=
    groupContributions_eq_ok_iff.mpr ⟨(nodup_slots_iff htargets).mpr h, rfl⟩
  exact ⟨_, hgroups, by rw [containerEntries, hgroups]⟩

/-- A container whose targets are different is aborted by the rule. -/
theorem abortRule_containerEntries {inputs : List TargetInput}
    (htargets : (inputs.map TargetInput.target).Nodup) :
    AbortRule container inputs
      (containerEntries .standard limit (levels + 1) container inputs) := by
  refine ⟨?_, containerEntries_of_repeated htargets, ?_⟩
  · by_cases hall : ∀ input ∈ inputs, (input.declarations.map Signature.of).Nodup
    · obtain ⟨groups, hgroups, heq⟩ := containerEntries_of_not_repeated htargets hall
      have hnone : ¬ ∃ input ∈ inputs, ¬ (input.declarations.map Signature.of).Nodup :=
        fun ⟨input, hinput, hdup⟩ => hdup (hall input hinput)
      rw [or_iff_right hnone, heq, aborted_groupEntries_standard_iff, hgroups]
      simp
    · -- Nothing is merged of a container that cannot be grouped.
      have hsome : ∃ input ∈ inputs, ¬ (input.declarations.map Signature.of).Nodup := by
        simpa using hall
      obtain ⟨c, -, heq⟩ := containerEntries_of_repeated htargets hsome
      exact iff_of_true ⟨_, by rw [heq]⟩ (.inl hsome)
  · rintro hall ⟨error, herror⟩
    obtain ⟨groups, hgroups, heq⟩ := containerEntries_of_not_repeated htargets hall
    rw [heq] at herror ⊢
    obtain ⟨first, rest, hfind, rfl⟩ := groupEntries_standard_eq_error_iff.mp herror
    exact ⟨groups, first, rest, hgroups, hfind, herror⟩

end DeclMerge
