import DeclMerge.Proofs.Container.Groups

/-!
# Repeated declarations

A container cannot be grouped if a target comes back to a key. That is so exactly if the target
declares two declarations with one full signature: a key without parameter types belongs to a
function that no target declares twice.

## Main definitions

* `IsFirstRepeat` — the first element of a list whose key has come before
* `targetSignature` — a target together with a full signature

## Main results

* `isFirstRepeat_slot_iff` — keys repeat where full signatures do
* `groupContributions_eq_error` — the error of a container that cannot be grouped
* `nodup_slots_iff` — a container can be grouped if no target repeats a signature
-/

namespace DeclMerge

/-! ### The first repetition in a list -/

section FirstRepeat

variable {α κ κ' : Type}

/-- An element of a list is the first one whose key has come before. -/
def IsFirstRepeat (keyOf : α → κ) (l : List α) (a : α) : Prop :=
  ∃ before after, l = before ++ a :: after ∧ (before.map keyOf).Nodup ∧
    keyOf a ∈ before.map keyOf

/-- There is a first repetition exactly if some key comes twice. -/
theorem exists_isFirstRepeat_iff {keyOf : α → κ} {l : List α} :
    (∃ a, IsFirstRepeat keyOf l a) ↔ ¬ (l.map keyOf).Nodup := by
  constructor
  · rintro ⟨a, before, after, rfl, -, hmem⟩ hnodup
    rw [List.map_append, List.map_cons, List.nodup_append] at hnodup
    exact hnodup.2.2 _ hmem _ List.mem_cons_self rfl
  · intro hdup
    induction l using List.reverseRecOn with
    | nil => exact absurd List.nodup_nil hdup
    | append_singleton l last ih =>
      by_cases hnodup : (l.map keyOf).Nodup
      · refine ⟨last, l, [], rfl, hnodup, ?_⟩
        rw [List.map_append, List.map_singleton, nodup_append_singleton_iff] at hdup
        exact not_not.mp fun hfresh => hdup ⟨hnodup, hfresh⟩
      · obtain ⟨a, before, after, rfl, hbefore, hmem⟩ := ih hnodup
        exact ⟨a, before, after ++ [last], by simp, hbefore, hmem⟩

/-- Two keys have their first repetition at one place if each pair of elements, in order, has one
of them in common exactly if it has the other one. -/
theorem IsFirstRepeat.congr {keyOf : α → κ} {keyOf' : α → κ'} {l : List α} {a : α}
    (h : l.Pairwise fun b c => keyOf b = keyOf c ↔ keyOf' b = keyOf' c)
    (hrepeat : IsFirstRepeat keyOf l a) : IsFirstRepeat keyOf' l a := by
  obtain ⟨before, after, rfl, hnodup, hmem⟩ := hrepeat
  obtain ⟨hbefore, -, hacross⟩ := List.pairwise_append.mp h
  refine ⟨before, after, rfl, ?_, ?_⟩
  · refine List.pairwise_map.mpr ?_
    exact (hbefore.and (List.pairwise_map.mp hnodup)).imp fun hbc => mt hbc.1.mpr hbc.2
  · obtain ⟨b, hb, heq⟩ := List.mem_map.mp hmem
    exact List.mem_map.mpr ⟨b, hb, (hacross b hb a List.mem_cons_self).mp heq⟩

end FirstRepeat

/-! ### Keys and full signatures -/

/-- A target together with the full signature of what it declares. -/
def targetSignature (c : Contribution) : Target × Signature :=
  (c.target, Signature.of c.declaration)

variable {inputs : List TargetInput} {container : QualifiedName} {c : Contribution}

/-- Two declarations of one target have one key exactly if they have one signature: a function
without parameter types in its key has no overload. -/
theorem pairwise_groupSignature_iff {input : TargetInput} (hinput : input ∈ inputs) :
    input.declarations.Pairwise fun a b =>
      groupSignature inputs a = groupSignature inputs b ↔ Signature.of a = Signature.of b := by
  refine List.pairwise_iff_forall_sublist.mpr fun {a b} hab => ?_
  rw [groupSignature_eq_iff]
  constructor
  · rintro ⟨hbase, hfull⟩
    have hgroup := Signature.group_eq_of_base_eq hbase
    by_cases hfunction : (Signature.of a).group = .function
    · -- The target declares both, so it overloads the name.
      refine hfull hfunction ⟨input, hinput, Nat.le_trans ?_ hab.countP_le⟩
      simp [hfunction, ← hgroup, hbase]
    · rw [← Signature.base_of hfunction, hbase, Signature.base_of (hgroup ▸ hfunction)]
  · exact fun heq => ⟨congrArg Signature.base heq, fun _ _ => heq⟩

theorem pairwise_slot_iff (h : (inputs.map TargetInput.target).Nodup) :
    (contributionsOf inputs).Pairwise fun c d =>
      slot inputs c = slot inputs d ↔ targetSignature c = targetSignature d := by
  refine List.pairwise_flatMap.mpr ⟨fun input hinput => ?_, ?_⟩
  · refine List.pairwise_map.mpr ((pairwise_groupSignature_iff hinput).imp fun {a b} hab => ?_)
    simpa [slot, contributionKey, targetSignature] using hab
  · -- Contributions of different inputs have different targets.
    refine (List.pairwise_map.mp h).imp fun {input other} hne c hc d hd => ?_
    obtain ⟨_, -, rfl⟩ := List.mem_map.mp hc
    obtain ⟨_, -, rfl⟩ := List.mem_map.mp hd
    simp [slot, targetSignature, hne]

/-- Keys repeat for the first time where full signatures do. -/
theorem isFirstRepeat_slot_iff (h : (inputs.map TargetInput.target).Nodup) :
    IsFirstRepeat (slot inputs) (contributionsOf inputs) c ↔
      IsFirstRepeat targetSignature (contributionsOf inputs) c :=
  ⟨.congr (pairwise_slot_iff h), .congr ((pairwise_slot_iff h).imp Iff.symm)⟩

/-- No target comes back to a key exactly if none declares two declarations with one signature. -/
theorem nodup_slots_iff (h : (inputs.map TargetInput.target).Nodup) :
    ((contributionsOf inputs).map (slot inputs)).Nodup ↔
      ∀ input ∈ inputs, (input.declarations.map Signature.of).Nodup := by
  have hsignatures : ((contributionsOf inputs).map (slot inputs)).Nodup ↔
      ((contributionsOf inputs).map targetSignature).Nodup := by
    rw [← not_iff_not, ← exists_isFirstRepeat_iff, ← exists_isFirstRepeat_iff]
    exact exists_congr fun c => isFirstRepeat_slot_iff h
  -- Different inputs have different targets, so signatures repeat within one input only.
  rw [hsignatures, List.Nodup, List.pairwise_map, contributionsOf, List.pairwise_flatMap]
  constructor
  · rintro ⟨hwithin, -⟩ input hinput
    refine List.pairwise_map.mpr ((List.pairwise_map.mp (hwithin input hinput)).imp ?_)
    exact fun hne heq => hne (by simp [targetSignature, heq])
  · intro hwithin
    refine ⟨fun input hinput => List.pairwise_map.mpr
      ((List.pairwise_map.mp (hwithin input hinput)).imp ?_), ?_⟩
    · exact fun hne heq => hne (Prod.mk.inj heq).2
    · refine (List.pairwise_map.mp h).imp fun {input other} hne c hc d hd heq => ?_
      obtain ⟨_, -, rfl⟩ := List.mem_map.mp hc
      obtain ⟨_, -, rfl⟩ := List.mem_map.mp hd
      exact hne (Prod.mk.inj heq).1

/-! ### The error of a container that cannot be grouped -/

/-- The first contribution whose slot is taken makes the grouping fail. -/
theorem groupContributions_eq_error
    (h : IsFirstRepeat (slot inputs) (contributionsOf inputs) c) :
    groupContributions container inputs =
      .error (.duplicateDeclaration container (Signature.of c.declaration).text c.target) := by
  obtain ⟨before, after, hsplit, hnodup, htaken⟩ := h
  have hbefore : before.foldlM (addContribution container inputs) Grouping.empty =
      .ok (Grouping.ofList (contributionKey inputs) before) :=
    foldlM_addContribution_eq_ok_iff.mpr ⟨hnodup, rfl⟩
  unfold groupContributions
  change (List.foldlM _ _ (contributionsOf inputs) >>= _) = _
  rw [hsplit, List.foldlM_append, hbefore]
  simp [bind, Except.bind, List.foldlM_cons, addContribution_ofList, htaken]

/-- A container that cannot be grouped has a repeated declaration. -/
theorem exists_of_groupContributions_eq_error {error : InputError}
    (h : groupContributions container inputs = .error error) :
    ∃ key target, error = .duplicateDeclaration container key target := by
  have hrepeats : ¬ ((contributionsOf inputs).map (slot inputs)).Nodup := by
    intro hnodup
    rw [groupContributions_eq_ok_iff.mpr ⟨hnodup, rfl⟩] at h
    cases h
  obtain ⟨c, hc⟩ := exists_isFirstRepeat_iff.mpr hrepeats
  rw [groupContributions_eq_error hc] at h
  cases h
  exact ⟨_, _, rfl⟩

end DeclMerge
