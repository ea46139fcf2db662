import DeclMerge.Proofs.Container.Aborts
import DeclMerge.Proofs.Container.Reordering

/-!
# Refused groups with their targets in another order

The standard maker looks at the first declaration of a group only. Where targets agree, the others
carry the same flags, so the same groups are refused whatever target comes first. Values are the
exception: they are compared like parameters, by name, type and mutability, so targets can agree on
a value that only some of them declare as expected and as an implementation.

## Main definitions

* `valuesNamed` — the values of one name in a container

## Main results

* `Declaration.Agree.isBoth_eq` — declarations that agree are both or not both, except for values
* `aborted_containerEntries_perm` — when the order of the targets does not matter to an abort
-/

namespace DeclMerge

/-- The values with a name that the targets put into a container, in scan order. -/
def valuesNamed (inputs : List TargetInput) (name : Name) : List Contribution :=
  (contributionsOf inputs).filter fun c => c.declaration.kind = .value ∧ c.declaration.name = name

variable {container : QualifiedName} {inputs inputs' : List TargetInput} {limit levels : Nat}
  {groups groups' : List (List Contribution)} {group rest : List Contribution}
  {first c : Contribution}

/-! ### Flags of declarations that agree -/

/-- Declarations of any kind but values are compared by both flags. -/
theorem Declaration.Agree.isBoth_eq {a b : Declaration} (h : a.Agree b) (hkind : a.kind ≠ .value) :
    a.isBoth = b.isBoth := by
  have hprofile := agree_iff_profile_eq.mp h
  cases a <;> cases b
  case function.function | property.property | class.class | typeAlias.typeAlias =>
    -- The profile has both flags among those that it carries.
    simp_all [profile, Header.carried, isBoth, isExpect, isActual, flags, header]
  case value.value => exact absurd rfl hkind
  -- Profiles of different kinds differ.
  all_goals cases hprofile

theorem agreesOnBoth_cons_iff :
    agreesOnBoth (first :: rest) = true ↔
      (∀ c ∈ first :: rest, ∀ d ∈ first :: rest, c.declaration.Agree d.declaration) ∧
        first.declaration.isBoth = true := by
  rw [agreesOnBoth, Bool.and_eq_true, all_pairVerdicts_iff, List.head?_cons, Option.any_some]

/-! ### Groups of values -/

/-- The key of a value has its name and nothing else in it. -/
theorem contributionKey_eq_iff_of_value {d : Contribution} (h : d.declaration.kind = .value) :
    contributionKey inputs c = contributionKey inputs d ↔
      c.declaration.kind = .value ∧ c.declaration.name = d.declaration.name := by
  obtain ⟨target, declaration⟩ := c
  obtain ⟨target', declaration'⟩ := d
  rw [contributionKey, contributionKey, groupSignature_eq_iff, Paired]
  cases declaration' <;> cases h
  cases declaration <;>
    simp [Signature.of, Signature.base, Declaration.kind, Declaration.name, Declaration.header]

/-- A group with a value in it has all values of that name. -/
theorem group_eq_valuesNamed (hgroups : groupContributions container inputs = .ok groups)
    (hgroup : group ∈ groups) (hc : c ∈ group) (hvalue : c.declaration.kind = .value) :
    group = valuesNamed inputs c.declaration.name := by
  obtain ⟨-, rfl⟩ := groupContributions_eq_ok_iff.mp hgroups
  obtain ⟨d, -, rfl⟩ := (Grouping.mem_parts _).mp hgroup
  have hkey : contributionKey inputs c = contributionKey inputs d := by
    simpa using (List.mem_filter.mp hc).2
  refine List.filter_congr fun other _ => ?_
  rw [← hkey, decide_eq_decide]
  exact contributionKey_eq_iff_of_value hvalue

/-! ### Two orders -/

/-- If a group is refused in one order of the targets, one is refused in the other order. -/
theorem exists_agreesOnBoth_perm (h : inputs.Perm inputs')
    (hgroups : groupContributions container inputs = .ok groups)
    (hgroups' : groupContributions container inputs' = .ok groups')
    (hvalues : ∀ name, agreesOnBoth (valuesNamed inputs name) = true →
      agreesOnBoth (valuesNamed inputs' name) = true)
    (hboth : ∃ group ∈ groups, agreesOnBoth group = true) :
    ∃ group ∈ groups', agreesOnBoth group = true := by
  obtain ⟨group, hgroup, hboth⟩ := hboth
  obtain ⟨group', hgroup', hperm⟩ :=
    (matched_groupContributions h hgroups hgroups').exists_mem hgroup
  refine ⟨group', hgroup', ?_⟩
  obtain ⟨first, rest, rfl⟩ :=
    List.exists_cons_of_ne_nil (ne_nil_of_groupContributions hgroups group hgroup)
  obtain ⟨first', rest', rfl⟩ :=
    List.exists_cons_of_ne_nil (ne_nil_of_groupContributions hgroups' group' hgroup')
  have hfirst' : first' ∈ first :: rest := hperm.mem_iff.mpr List.mem_cons_self
  by_cases hvalue : first'.declaration.kind = .value
  · rw [group_eq_valuesNamed hgroups hgroup hfirst' hvalue] at hboth
    rw [group_eq_valuesNamed hgroups' hgroup' List.mem_cons_self hvalue]
    exact hvalues _ hboth
  · -- The new first declaration agrees with the old one, so it carries the same flags.
    obtain ⟨hagree, hfirst⟩ := agreesOnBoth_cons_iff.mp hboth
    refine agreesOnBoth_cons_iff.mpr ⟨fun c hc d hd => ?_, ?_⟩
    · exact hagree c (hperm.mem_iff.mpr hc) d (hperm.mem_iff.mpr hd)
    · rw [(hagree first' hfirst' first List.mem_cons_self).isBoth_eq hvalue]
      exact hfirst

theorem aborted_containerEntries_of_perm (htargets : (inputs.map TargetInput.target).Nodup)
    (h : inputs.Perm inputs')
    (hvalues : ∀ name, agreesOnBoth (valuesNamed inputs name) = true →
      agreesOnBoth (valuesNamed inputs' name) = true)
    (haborted : (containerEntries .standard limit (levels + 1) container inputs).Aborted) :
    (containerEntries .standard limit (levels + 1) container inputs').Aborted := by
  have htargets' := (h.map TargetInput.target).nodup_iff.mp htargets
  rw [(abortRule_containerEntries htargets).aborted_iff] at haborted
  rw [(abortRule_containerEntries htargets').aborted_iff]
  rcases haborted with ⟨input, hinput, hrepeated⟩ | ⟨groups, hgroups, hboth⟩
  · exact .inl ⟨input, h.mem_iff.mp hinput, hrepeated⟩
  · have hnodup := (nodup_slots_iff htargets).mp (groupContributions_eq_ok_iff.mp hgroups).1
    have hgroups' : groupContributions container inputs' = .ok _ :=
      groupContributions_eq_ok_iff.mpr ⟨(nodup_slots_iff htargets').mpr fun input hinput =>
        hnodup input (h.mem_iff.mpr hinput), rfl⟩
    exact .inr ⟨_, hgroups', exists_agreesOnBoth_perm h hgroups hgroups' hvalues hboth⟩

/-- With a level of nesting left, a container is aborted in both orders of its targets or in
neither, unless the targets agree on a value that the first of them declares as both in one order
only. -/
theorem aborted_containerEntries_perm (htargets : (inputs.map TargetInput.target).Nodup)
    (h : inputs.Perm inputs')
    (hvalues : ∀ name,
      agreesOnBoth (valuesNamed inputs name) = agreesOnBoth (valuesNamed inputs' name)) :
    (containerEntries .standard limit (levels + 1) container inputs).Aborted ↔
      (containerEntries .standard limit (levels + 1) container inputs').Aborted :=
  ⟨aborted_containerEntries_of_perm htargets h fun name hname => hvalues name ▸ hname,
    aborted_containerEntries_of_perm ((h.map TargetInput.target).nodup_iff.mp htargets) h.symm
      fun name hname => hvalues name ▸ hname⟩

end DeclMerge
