import DeclMerge.Merge.Container
import DeclMerge.Proofs.Grouping

/-!
# The groups of a container

A container is grouped by one key for each declaration, and the grouping fails as soon as a target
comes back to a key. So whenever there are groups, they are the parts of the contributions by that
key. Two key spaces are mixed: functions that no target overloads have no parameter types in their
keys. They never meet, because all functions with one base have keys of the same kind.

## Main definitions

* `contributionsOf` — what goes into a container, in scan order
* `slot` — what a target may fill only once
* `Paired` — the rule by which declarations of different targets belong together

## Main results

* `groupContributions_eq_ok_iff` — when there are groups, and which
* `groupSignature_eq_iff` — equal keys are the pairing rule
* `targets_sublist` — a group has its targets in the order of the inputs
-/

namespace DeclMerge

theorem Signature.group_eq_of_base_eq {s t : Signature} (h : s.base = t.base) :
    s.group = t.group := by
  simpa [Signature.base] using congrArg Signature.group h

theorem Signature.base_of {d : Declaration} (h : (Signature.of d).group ≠ .function) :
    (Signature.of d).base = Signature.of d := by
  cases d <;> first | rfl | exact absurd rfl h

/-- All contributions to a container, in scan order. -/
def contributionsOf (inputs : List TargetInput) : List Contribution :=
  inputs.flatMap TargetInput.contributions

/-- The key that a contribution is grouped by. -/
def contributionKey (inputs : List TargetInput) (c : Contribution) : Signature :=
  groupSignature inputs c.declaration

/-- A target together with a key, which may come once only. -/
def slot (inputs : List TargetInput) (c : Contribution) : Target × Signature :=
  (c.target, contributionKey inputs c)

/-! ### When there are groups -/

section Grouping

variable {container : QualifiedName} {inputs : List TargetInput}

/-- Adding a contribution to the groups of earlier ones fails exactly when its slot is taken. -/
theorem addContribution_ofList (cs : List Contribution) (c : Contribution) :
    addContribution container inputs (Grouping.ofList (contributionKey inputs) cs) c =
      if slot inputs c ∈ cs.map (slot inputs) then
        .error (.duplicateDeclaration container (Signature.of c.declaration).text c.target)
      else .ok (Grouping.ofList (contributionKey inputs) (cs ++ [c])) := by
  -- The group of a key has the earlier contributions with that key and no others.
  have htaken : (((Grouping.ofList (contributionKey inputs) cs).get
      (contributionKey inputs c)).any fun other => other.target = c.target) =
        decide (slot inputs c ∈ cs.map (slot inputs)) := by
    rw [Bool.eq_iff_iff, Grouping.get_ofList, List.any_eq_true, decide_eq_true_eq, List.mem_map]
    refine exists_congr fun other => ?_
    simp [slot, and_comm, and_assoc]
  rw [Grouping.ofList_concat]
  simp only [addContribution]
  change (if ((Grouping.ofList (contributionKey inputs) cs).get (contributionKey inputs c)).any
    (fun other => other.target = c.target) then _ else _) = _
  rw [htaken]
  simp only [decide_eq_true_eq]
  rfl

theorem foldlM_addContribution_eq_ok_iff {cs : List Contribution}
    {grouping : Grouping Signature Contribution} :
    cs.foldlM (addContribution container inputs) Grouping.empty = .ok grouping ↔
      (cs.map (slot inputs)).Nodup ∧ grouping = Grouping.ofList (contributionKey inputs) cs := by
  -- From the back: all others must have been added before the last one is.
  induction cs using List.reverseRecOn generalizing grouping with
  | nil => simp [Grouping.ofList, pure, Except.pure, eq_comm]
  | append_singleton cs c ih =>
    rw [List.foldlM_append, List.map_append, List.map_singleton, nodup_append_singleton_iff]
    cases hfold : cs.foldlM (addContribution container inputs) Grouping.empty with
    | error e =>
      have hdup : ¬ (cs.map (slot inputs)).Nodup := fun hnodup => by
        rw [ih.mpr ⟨hnodup, rfl⟩] at hfold
        cases hfold
      simp [bind, Except.bind, hdup]
    | ok earlier =>
      obtain ⟨hnodup, rfl⟩ := ih.mp hfold
      simp only [bind, Except.bind, List.foldlM_cons, List.foldlM_nil, addContribution_ofList]
      by_cases htaken : slot inputs c ∈ cs.map (slot inputs)
      · simp [htaken]
      · simp [htaken, hnodup, pure, Except.pure, eq_comm]

/-- There are groups exactly when no target comes back to a key; they are the parts of the
contributions. -/
theorem groupContributions_eq_ok_iff {groups : List (List Contribution)} :
    groupContributions container inputs = .ok groups ↔
      ((contributionsOf inputs).map (slot inputs)).Nodup ∧
        groups = Grouping.parts (contributionKey inputs) (contributionsOf inputs) := by
  unfold groupContributions
  change (List.foldlM _ _ (contributionsOf inputs) >>= _) = _ ↔ _
  cases hfold : (contributionsOf inputs).foldlM (addContribution container inputs)
      Grouping.empty with
  | error e =>
    have hdup : ¬ ((contributionsOf inputs).map (slot inputs)).Nodup := fun hnodup => by
      rw [foldlM_addContribution_eq_ok_iff.mpr ⟨hnodup, rfl⟩] at hfold
      cases hfold
    simp [bind, Except.bind, hdup]
  | ok grouping =>
    obtain ⟨hnodup, rfl⟩ := foldlM_addContribution_eq_ok_iff.mp hfold
    simp [bind, Except.bind, pure, Except.pure, hnodup, Grouping.parts, eq_comm]

end Grouping

/-! ### The pairing rule -/

/-- The rule by which declarations belong together: their signatures agree up to parameter types,
and fully if they are functions whose name and receiver some target declares twice. -/
def Paired (inputs : List TargetInput) (a b : Declaration) : Prop :=
  (Signature.of a).base = (Signature.of b).base ∧
    ((Signature.of a).group = .function →
      (∃ input ∈ inputs, 2 ≤ input.declarations.countP fun d =>
        (Signature.of d).group = .function ∧ (Signature.of d).base = (Signature.of a).base) →
      Signature.of a = Signature.of b)

theorem isOverloaded_iff {inputs : List TargetInput} {base : Signature} :
    isOverloaded inputs base = true ↔
      ∃ input ∈ inputs, 2 ≤ input.declarations.countP fun d =>
        (Signature.of d).group = .function ∧ (Signature.of d).base = base := by
  simp [isOverloaded, TargetInput.overloads]

/-- Declarations have one key exactly if they belong together. -/
theorem groupSignature_eq_iff {inputs : List TargetInput} {a b : Declaration} :
    groupSignature inputs a = groupSignature inputs b ↔ Paired inputs a b := by
  have hbase : ∀ d, (groupSignature inputs d).base = (Signature.of d).base := by
    intro d
    simp only [groupSignature]
    split <;> simp
  rw [Paired, ← isOverloaded_iff]
  constructor
  · intro hkey
    have heq : (Signature.of a).base = (Signature.of b).base := by
      rw [← hbase a, hkey, hbase b]
    have hgroup := Signature.group_eq_of_base_eq heq
    refine ⟨heq, fun hfunction hoverloaded => ?_⟩
    simpa [groupSignature, hfunction, ← hgroup, hoverloaded, ← heq] using hkey
  · rintro ⟨heq, hfull⟩
    have hgroup := Signature.group_eq_of_base_eq heq
    by_cases hfunction : (Signature.of a).group = .function
    · cases hoverloaded : isOverloaded inputs (Signature.of a).base with
      | true => rw [groupSignature, groupSignature, hfull hfunction hoverloaded]
      | false => simp [groupSignature, hfunction, ← hgroup, ← heq, hoverloaded]
    · -- Keys outside functions are full signatures, which have no parameter types.
      have ha := Signature.base_of hfunction
      have hb := Signature.base_of (hgroup ▸ hfunction)
      have hof : Signature.of a = Signature.of b := by rw [← ha, heq, hb]
      rw [groupSignature, groupSignature, hof]

theorem Paired.name_eq {inputs : List TargetInput} {a b : Declaration} (h : Paired inputs a b) :
    a.name = b.name := by
  simpa [Signature.base] using congrArg Signature.name h.1

/-- The declarations of a group belong together. -/
theorem paired_of_mem_group {container : QualifiedName} {inputs : List TargetInput}
    {groups : List (List Contribution)} {group : List Contribution}
    (hgroups : groupContributions container inputs = .ok groups) (hgroup : group ∈ groups)
    {c d : Contribution} (hc : c ∈ group) (hd : d ∈ group) :
    Paired inputs c.declaration d.declaration := by
  obtain ⟨-, rfl⟩ := groupContributions_eq_ok_iff.mp hgroups
  have hsub := Grouping.sublist_of_mem_parts _ hgroup
  exact groupSignature_eq_iff.mp ((Grouping.exists_part_iff (contributionKey inputs)
    (hsub.subset hc) (hsub.subset hd)).mp ⟨group, hgroup, hc, hd⟩)

/-- The declarations of a group have one name. -/
theorem name_eq_of_mem_group {container : QualifiedName} {inputs : List TargetInput}
    {groups : List (List Contribution)} {group : List Contribution}
    (hgroups : groupContributions container inputs = .ok groups) (hgroup : group ∈ groups)
    {c d : Contribution} (hc : c ∈ group) (hd : d ∈ group) :
    c.declaration.name = d.declaration.name :=
  (paired_of_mem_group hgroups hgroup hc hd).name_eq

/-! ### Targets of a group -/

/-- Groups have one contribution of a target at most. -/
theorem nodup_targets {inputs : List TargetInput} {group : List Contribution}
    (hslots : ((contributionsOf inputs).map (slot inputs)).Nodup)
    (hgroup : group ∈ Grouping.parts (contributionKey inputs) (contributionsOf inputs)) :
    (group.map Contribution.target).Nodup := by
  obtain ⟨first, -, rfl⟩ := (Grouping.mem_parts _).mp hgroup
  have hsub := (List.filter_sublist (p := fun other =>
    decide (contributionKey inputs other = contributionKey inputs first))
      (l := contributionsOf inputs)).map (slot inputs)
  -- All contributions of a group have one key, so their slots differ in the targets.
  refine List.Nodup.of_map (fun target => (target, contributionKey inputs first)) ?_
  rw [List.map_map]
  convert hslots.sublist hsub using 1
  refine List.map_congr_left fun c hc => ?_
  simp only [slot, Function.comp_apply]
  rw [show contributionKey inputs c = contributionKey inputs first by
    simpa using (List.mem_filter.mp hc).2]

/-- Targets that are taken from the contributions, each once, are in the order of the inputs. -/
theorem targets_sublist {inputs : List TargetInput} {targets : List Target}
    (hnodup : targets.Nodup)
    (hsub : targets.Sublist ((contributionsOf inputs).map Contribution.target)) :
    targets.Sublist (inputs.map TargetInput.target) := by
  induction inputs generalizing targets with
  | nil => simpa [contributionsOf] using hsub
  | cons input inputs ih =>
    have hcons : (contributionsOf (input :: inputs)).map Contribution.target =
        List.replicate input.declarations.length input.target ++
          (contributionsOf inputs).map Contribution.target := by
      simp [contributionsOf, TargetInput.contributions, Function.comp_def]
    rw [hcons] at hsub
    obtain ⟨here, later, rfl, hhere, hlater⟩ := List.sublist_append_iff.mp hsub
    obtain ⟨hnodupHere, hnodupLater, -⟩ := List.nodup_append.mp hnodup
    -- The first input gives its target many times, and at most one of these is taken.
    have hone : here.Sublist [input.target] := by
      obtain ⟨n, -, rfl⟩ := List.sublist_replicate_iff.mp hhere
      have hn : n ≤ 1 := List.nodup_replicate.mp hnodupHere
      exact List.replicate_sublist_iff.mpr (by simpa [List.count_singleton] using hn)
    exact hone.append (ih hnodupLater hlater)

end DeclMerge
