import DeclMerge.Proofs.Container.Entries

/-!
# The errors of a container

A container collects the errors of the containers inside, and adds its own one when it is aborted.
If it has no errors at all, then neither has anything in it, and it has an entry for each group.

## Main definitions

* `Outcome.allErrors` — the errors of a container, its own one last
* `Outcome.Clean` — a container without errors
* `CleanlyMade` — what is made from a group without errors

## Main results

* `mem_errors_groupEntries` — the errors in a group are errors of the container
* `exists_cleanlyMade` — a container without errors, group by group
-/

namespace DeclMerge

variable {maker : Maker} {mergeMembers : ContainerMerge} {container name : QualifiedName}
  {first : Contribution} {rest group : List Contribution} {groups : List (List Contribution)}
  {error : InputError}

/-- The errors of a container: those of the containers inside, and its own one if it was
aborted. -/
def Outcome.allErrors {α : Type} (outcome : Outcome α) : List InputError :=
  match outcome.result with
  | .ok _ => outcome.errors
  | .error error => outcome.errors ++ [error]

theorem Outcome.mem_allErrors {α : Type} {outcome : Outcome α}
    (h : outcome.result = .error error) : error ∈ outcome.allErrors := by
  rw [allErrors, h]
  exact List.mem_concat_self ..

theorem Outcome.allErrors_of_ok {α : Type} {outcome : Outcome α} {found : α × List Comparison}
    (h : outcome.result = .ok found) : outcome.allErrors = outcome.errors := by
  rw [allErrors, h]

theorem errors_groupMembers {group : List Contribution}
    (hclasses : ∀ c ∈ group, c.declaration.isClass = true) :
    (groupMembers mergeMembers name group).2 =
      (mergeMembers name (memberInputs group)).allErrors := by
  rw [groupMembers, if_pos (List.all_eq_true.mpr hclasses), ← memberInputs, Outcome.allErrors]
  dsimp only
  split <;> rename_i hresult <;> rw [hresult]

theorem errors_groupEntry :
    (groupEntry maker mergeMembers container first rest).errors =
      (groupMembers mergeMembers (container.child first.declaration.name) (first :: rest)).2 := by
  simp only [groupEntry, Signature.name_of]
  split <;> rfl

/-- Groups that are not aborted have the errors found in each of them. -/
theorem mem_errors_groupEntries {found : List Entry × List Comparison}
    (h : (groupEntries maker mergeMembers container groups).result = .ok found)
    (hgroup : first :: rest ∈ groups)
    (herror : error ∈ (groupMembers mergeMembers (container.child first.declaration.name)
      (first :: rest)).2) :
    error ∈ (groupEntries maker mergeMembers container groups).errors := by
  induction groups generalizing found with
  | nil => cases hgroup
  | cons group groups ih =>
    cases group with
    | nil => exact ih h ((List.mem_cons.mp hgroup).resolve_left nofun)
    | cons head tail =>
      obtain ⟨-, -, entries, others, -, hothers, -, herrors⟩ := groupEntries_cons_of_ok h
      rw [herrors, List.mem_append]
      rcases List.mem_cons.mp hgroup with heq | hlater
      · obtain ⟨rfl, rfl⟩ := List.cons_eq_cons.mp heq
        exact .inl (errors_groupEntry ▸ herror)
      · exact .inr (ih hothers hlater)

/-- The errors of several groups are those of the first one and of the others. -/
theorem mem_allErrors_groupEntries_cons
    (h : error ∈
      (groupEntries maker mergeMembers container ((first :: rest) :: groups)).allErrors) :
    error ∈ (groupEntry maker mergeMembers container first rest).allErrors ∨
      error ∈ (groupEntries maker mergeMembers container groups).allErrors := by
  simp only [groupEntries, Outcome.allErrors] at h ⊢
  cases hfirst : (groupEntry maker mergeMembers container first rest).result with
  | error reason =>
    simp only [hfirst] at h
    exact .inl h
  | ok found =>
    cases hothers : (groupEntries maker mergeMembers container groups).result with
    | error reason =>
      simp only [hfirst, hothers] at h ⊢
      simpa [or_assoc] using h
    | ok others =>
      simp only [hfirst, hothers] at h ⊢
      simpa using h

/-- An error of groups is an error of one of them. -/
theorem exists_of_mem_allErrors_groupEntries
    (h : error ∈ (groupEntries maker mergeMembers container groups).allErrors) :
    ∃ first rest, first :: rest ∈ groups ∧
      error ∈ (groupEntry maker mergeMembers container first rest).allErrors := by
  induction groups with
  | nil => cases h
  | cons group groups ih =>
    have hlater : error ∈ (groupEntries maker mergeMembers container groups).allErrors →
        ∃ first rest, first :: rest ∈ group :: groups ∧
          error ∈ (groupEntry maker mergeMembers container first rest).allErrors := by
      intro hmem
      obtain ⟨first, rest, hgroup, herror⟩ := ih hmem
      exact ⟨first, rest, List.mem_cons_of_mem _ hgroup, herror⟩
    cases group with
    | nil => exact hlater h
    | cons first rest =>
      rcases mem_allErrors_groupEntries_cons h with hhere | hothers
      · exact ⟨first, rest, List.mem_cons_self, hhere⟩
      · exact hlater hothers

/-- The errors of a group are those of its members, and possibly the one that has aborted it. -/
theorem mem_allErrors_groupEntry
    (h : error ∈ (groupEntry maker mergeMembers container first rest).allErrors) :
    error ∈ (groupMembers mergeMembers (container.child first.declaration.name)
        (first :: rest)).2 ∨
      (groupEntry maker mergeMembers container first rest).result = .error error := by
  rw [Outcome.allErrors, errors_groupEntry] at h
  cases hresult : (groupEntry maker mergeMembers container first rest).result with
  | ok found =>
    rw [hresult] at h
    exact .inl h
  | error reason =>
    rw [hresult] at h
    rcases List.mem_append.mp h with hmembers | hself
    · exact .inl hmembers
    · exact .inr (by rw [List.mem_singleton.mp hself])

/-! ### Containers without errors -/

/-- A container was merged, and neither it nor anything in it has an error. -/
def Outcome.Clean {α : Type} (outcome : Outcome α) (found : α × List Comparison) : Prop :=
  outcome.result = .ok found ∧ outcome.errors = []

theorem Outcome.allErrors_eq_nil_iff {α : Type} {outcome : Outcome α} :
    outcome.allErrors = [] ↔ ∃ found, outcome.Clean found := by
  rw [allErrors]
  cases hresult : outcome.result with
  | ok found => simp [Clean, hresult]
  | error error => simp [Clean, hresult]

/-- Groups of classes without errors have the members of a container without errors. -/
theorem exists_clean_of_groupMembers (hclasses : ∀ c ∈ group, c.declaration.isClass = true)
    (h : (groupMembers mergeMembers name group).2 = []) :
    (mergeMembers name (memberInputs group)).Clean (groupMembers mergeMembers name group).1 := by
  rw [errors_groupMembers hclasses, Outcome.allErrors_eq_nil_iff] at h
  obtain ⟨found, hfound⟩ := h
  have hmembers : (groupMembers mergeMembers name group).1 = found := by
    rw [groupMembers, if_pos (List.all_eq_true.mpr hclasses), ← memberInputs]
    simp only [hfound.1]
  exact hmembers ▸ hfound

/-- The entry with its comparisons is made from the group, and there is no error in it. -/
def CleanlyMade (maker : Maker) (mergeMembers : ContainerMerge) (container : QualifiedName)
    (group : List Contribution) (entry : Entry) (compared : List Comparison) : Prop :=
  (∃ first rest, group = first :: rest ∧
    MadeFrom maker mergeMembers container first rest entry compared) ∧
  (groupMembers mergeMembers entry.name group).2 = []

/-- In a container without errors every group has its entry, and there is no error in it. -/
theorem exists_cleanlyMade (hne : ∀ group ∈ groups, group ≠ [])
    {found : List Entry × List Comparison}
    (h : (groupEntries maker mergeMembers container groups).Clean found) :
    ∃ made : List (List Contribution × Entry × List Comparison), made.map Prod.fst = groups ∧
      (∀ m ∈ made, CleanlyMade maker mergeMembers container m.1 m.2.1 m.2.2) ∧
      found = (made.map fun m => m.2.1, made.flatMap fun m => m.2.2) := by
  induction groups generalizing found with
  | nil =>
    obtain ⟨hresult, -⟩ := h
    cases hresult
    exact ⟨[], rfl, nofun, rfl⟩
  | cons group groups ih =>
    obtain ⟨first, rest, rfl⟩ := List.exists_cons_of_ne_nil (hne group List.mem_cons_self)
    obtain ⟨entry, here, entries, others, hentry, hothers, rfl, herrors⟩ :=
      groupEntries_cons_of_ok h.1
    rw [h.2, eq_comm, List.append_eq_nil_iff, errors_groupEntry, ← hentry.name_eq] at herrors
    obtain ⟨made, hmade, hall, heq⟩ :=
      ih (fun group hgroup => hne group (List.mem_cons_of_mem _ hgroup)) ⟨hothers, herrors.2⟩
    obtain ⟨rfl, rfl⟩ := Prod.mk.inj heq
    refine ⟨(first :: rest, entry, here) :: made, by rw [List.map_cons, hmade], ?_, rfl⟩
    exact List.forall_mem_cons.mpr ⟨⟨⟨first, rest, rfl, hentry⟩, herrors.1⟩, hall⟩

end DeclMerge
