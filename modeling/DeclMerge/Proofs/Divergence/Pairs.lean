import DeclMerge.Proofs.Container.Verdicts
import Mathlib.Data.List.FinRange
import Mathlib.Order.Partition.Finpartition

/-!
# Comparing every pair of contributions

Several targets are compared pair by pair. Every comparison of two declarations groups what it finds
under one cause, so the causes of all pairs are one for each pair that fails. Agreement is an
equivalence: the pairs that fail are those that lie in two of its blocks, and it is enough to
compare with the first contribution to know whether any pair fails. A contribution that disagrees
with one block disagrees with all of it, so there is no failing pair or nearly one for each target.

## Main definitions

* `positionPairs` — the pairs of positions, the earlier one first
* `verdictAt` — the verdict on the contributions at two positions
* `failingPairs` — the pairs that fail

## Main results

* `declarationVerdict_cases` — two declarations agree or there is one cause
* `pairVerdicts_eq_map` — the pairs are compared in the order of their positions
* `failingPairs_eq_nil_or` — how few pairs can fail
* `comparesPairwise` — what comparing several targets finds
-/

namespace DeclMerge

variable {c : Contribution} {cs : List Contribution}

/-! ### One pair -/

/-- What is grouped is a success or has one cause. -/
theorem Verdict.wrap_cases (v : Verdict) (group : List Cause → Cause) :
    v.wrap group = .success ∨ ∃ cause, v.wrap group = .fail cause := by
  cases v with
  | success => exact .inl rfl
  | failure causes => exact .inr ⟨_, rfl⟩

/-- Two declarations agree or they diverge for a single cause. -/
theorem declarationVerdict_cases (a b : Declaration) :
    a.Agree b ∨ ∃ cause, declarationVerdict a b = .fail cause := by
  rw [Declaration.Agree]
  cases a <;> cases b
  case class.typeAlias | typeAlias.class => exact .inr ⟨.composite .class [.leaf .classKind], rfl⟩
  case function.function | property.property | class.class | typeAlias.typeAlias | value.value =>
    exact Verdict.wrap_cases _ _
  -- Nothing specific is known of any other two kinds.
  all_goals exact .inr ⟨.leaf .unknown, rfl⟩

/-! ### The order of the pairs -/

/-- The pairs of positions in a list of length `n` of which the first one is the earlier one, by
the first position and then by the second. -/
def positionPairs (n : Nat) : List (Fin n × Fin n) :=
  (List.finRange n).flatMap fun i => ((List.finRange n).filter fun j => i < j).map fun j => (i, j)

@[simp] theorem mem_positionPairs {n : Nat} {p : Fin n × Fin n} :
    p ∈ positionPairs n ↔ p.1 < p.2 := by
  simp [positionPairs, Prod.ext_iff]

theorem sorted_positionPairs (n : Nat) :
    (positionPairs n).Pairwise (Prod.Lex (· < ·) (· < ·)) := by
  rw [positionPairs, List.pairwise_flatMap]
  constructor
  · intro i _
    rw [List.pairwise_map]
    exact ((List.pairwise_lt_finRange n).filter _).imp fun h => .right _ h
  · refine (List.pairwise_lt_finRange n).imp fun hlt p hp q hq => ?_
    obtain ⟨-, -, rfl⟩ := List.mem_map.mp hp
    obtain ⟨-, -, rfl⟩ := List.mem_map.mp hq
    exact .left _ _ hlt

/-- In a list with one more element in front, the first position goes with all others, and the
others go with each other as before. -/
theorem positionPairs_succ (n : Nat) :
    positionPairs (n + 1) = ((List.finRange n).map fun j => (0, j.succ)) ++
      (positionPairs n).map (Prod.map Fin.succ Fin.succ) := by
  simp only [positionPairs, List.finRange_succ, List.flatMap_cons, List.flatMap_map,
    List.filter_cons, List.filter_map, List.map_flatMap, List.map_map]
  congr 1
  · simp [Function.comp_def]
  · simp [Function.comp_def]

/-- The verdict on the contributions at two positions. -/
def verdictAt (cs : List Contribution) (p : Fin cs.length × Fin cs.length) : PairVerdict :=
  ⟨cs[p.1].target, cs[p.2].target, declarationVerdict cs[p.1].declaration cs[p.2].declaration⟩

/-- Each pair of contributions is compared once, in the order of their positions. -/
theorem pairVerdicts_eq_map (cs : List Contribution) :
    pairVerdicts cs = (positionPairs cs.length).map (verdictAt cs) := by
  induction cs with
  | nil => rfl
  | cons c cs ih =>
    have hlater : cs.map (fun d => (⟨c.target, d.target,
        declarationVerdict c.declaration d.declaration⟩ : PairVerdict)) =
          (List.finRange cs.length).map fun j => verdictAt (c :: cs) (0, j.succ) := by
      conv_lhs => rw [← List.map_getElem_finRange cs, List.map_map]
      rfl
    change _ = (positionPairs (cs.length + 1)).map (verdictAt (c :: cs))
    rw [pairVerdicts, ih, hlater, positionPairs_succ, List.map_append, List.map_map, List.map_map]
    rfl

/-! ### The pairs that fail -/

/-- The pairs of contributions that diverge. -/
def failingPairs (cs : List Contribution) : List PairVerdict :=
  (pairVerdicts cs).filter fun pair => pair.verdict.isFailure

theorem verdictAt_isFailure_iff {p : Fin cs.length × Fin cs.length} :
    (verdictAt cs p).verdict.isFailure = true ↔
      ¬ cs[p.1].declaration.Agree cs[p.2].declaration := by
  rw [Verdict.isFailure, Bool.not_eq_true', ← Bool.not_eq_true, Verdict.isSuccess_iff]
  rfl

theorem failingPairs_eq_nil_iff :
    failingPairs cs = [] ↔ ∀ c ∈ cs, ∀ d ∈ cs, c.declaration.Agree d.declaration := by
  rw [← all_pairVerdicts_iff, failingPairs, List.filter_eq_nil_iff, List.all_eq_true]
  simp [Verdict.isFailure]

/-- Agreement with the first contribution is agreement with all. -/
theorem failingPairs_cons_eq_nil_iff :
    failingPairs (c :: cs) = [] ↔ ∀ d ∈ cs, c.declaration.Agree d.declaration := by
  rw [failingPairs_eq_nil_iff]
  refine ⟨fun h d hd => h c List.mem_cons_self d (List.mem_cons_of_mem c hd), fun h => ?_⟩
  have hfirst : ∀ d ∈ c :: cs, c.declaration.Agree d.declaration :=
    List.forall_mem_cons.mpr ⟨.refl _, h⟩
  exact fun a ha b hb => (hfirst a ha).symm.trans (hfirst b hb)

open Classical in
/-- With one more contribution in front, the pairs that fail are those with it and the ones
before. -/
theorem length_failingPairs_cons :
    (failingPairs (c :: cs)).length =
      (cs.filter fun d => ¬ c.declaration.Agree d.declaration).length +
        (failingPairs cs).length := by
  rw [failingPairs, pairVerdicts, List.filter_append, List.length_append, List.filter_map,
    List.length_map, failingPairs]
  congr 2
  refine List.filter_congr fun d _ => ?_
  rw [Bool.eq_iff_iff, decide_eq_true_iff, Declaration.Agree, ← Verdict.isSuccess_iff]
  simp [Verdict.isFailure]

/-- If any pair fails, so many do that only one contribution is without a failing pair of its own
to be counted for it. -/
theorem failingPairs_eq_nil_or (cs : List Contribution) :
    failingPairs cs = [] ∨ cs.length ≤ (failingPairs cs).length + 1 := by
  classical
  induction cs with
  | nil => exact .inl rfl
  | cons c cs ih =>
    rw [List.length_cons, length_failingPairs_cons]
    by_cases hnone : failingPairs cs = []
    · have hall := failingPairs_eq_nil_iff.mp hnone
      by_cases hsome : ∃ d ∈ cs, c.declaration.Agree d.declaration
      · -- All others are in one block, and the first one joins it.
        obtain ⟨d, hd, hagree⟩ := hsome
        exact .inl (failingPairs_cons_eq_nil_iff.mpr fun e he => hagree.trans (hall d hd e he))
      · -- All others are in one block, and the first one is outside.
        right
        have hapart : cs.filter (fun d => ¬ c.declaration.Agree d.declaration) = cs :=
          List.filter_eq_self.mpr fun d hd => decide_eq_true fun h => hsome ⟨d, hd, h⟩
        rw [hapart]
        omega
    · -- The others are in several blocks, and the first one is outside one of them at least.
      right
      have hlength := ih.resolve_left hnone
      have hapart : cs.filter (fun d => ¬ c.declaration.Agree d.declaration) ≠ [] := by
        intro hagree
        refine hnone (failingPairs_eq_nil_iff.mpr fun d hd e he => ?_)
        have hwith : ∀ d ∈ cs, c.declaration.Agree d.declaration := fun d hd => by
          simpa using List.filter_eq_nil_iff.mp hagree d hd
        exact (hwith d hd).symm.trans (hwith e he)
      have hpos := List.length_pos_of_ne_nil hapart
      omega

/-- The pairs that fail are one for each of the combined causes. -/
theorem forall₂_failingPairs (cs : List Contribution) :
    List.Forall₂ (fun pair cause => pair.verdict = .fail cause) (failingPairs cs)
      (contributionVerdict cs).causes := by
  have hsingle : ∀ pair ∈ pairVerdicts cs,
      pair.verdict = .success ∨ ∃ cause, pair.verdict = .fail cause := by
    rw [pairVerdicts_eq_map]
    intro pair hpair
    obtain ⟨p, -, rfl⟩ := List.mem_map.mp hpair
    exact declarationVerdict_cases _ _
  rw [contributionVerdict, combineVerdicts, Verdict.causes_collect, List.flatMap_map, failingPairs]
  generalize pairVerdicts cs = pairs at hsingle
  induction pairs with
  | nil => exact .nil
  | cons pair pairs ih =>
    obtain ⟨hpair, hpairs⟩ := List.forall_mem_cons.mp hsingle
    rw [List.filter_cons, List.flatMap_cons]
    rcases hpair with hsuccess | ⟨cause, hfail⟩
    · simpa [hsuccess, Verdict.isFailure, Verdict.isSuccess] using ih hpairs
    · simpa [hfail, Verdict.isFailure, Verdict.isSuccess, Verdict.fail, Verdict.causes, Causes.one]
        using ih hpairs

/-! ### All pairs -/

/-- The positions of contributions that agree. -/
def agreeingPositions (cs : List Contribution) : Setoid (Fin cs.length) where
  r i j := cs[i].declaration.Agree cs[j].declaration
  iseqv := ⟨fun _ => .refl _, .symm, .trans⟩

/-- What comparing several contributions pair by pair finds. -/
structure ComparesPairwise (cs : List Contribution) : Prop where
  /-- The pairs are those of an earlier and a later position, each once, in lexicographic order. -/
  pairs : ∃ positions : List (Fin cs.length × Fin cs.length),
    positions.Pairwise (Prod.Lex (· < ·) (· < ·)) ∧ (∀ p, p ∈ positions ↔ p.1 < p.2) ∧
      pairVerdicts cs = positions.map (verdictAt cs)
  success_iff : contributionVerdict cs = .success ↔
    ∀ first ∈ cs.head?, ∀ c ∈ cs, declarationVerdict first.declaration c.declaration = .success
  /-- Each pair that fails has one cause, and these are the combined causes. -/
  causes : List.Forall₂ (fun pair cause => pair.verdict = .fail cause)
    ((pairVerdicts cs).filter fun pair => pair.verdict.isFailure) (contributionVerdict cs).causes
  /-- The pairs that fail are those taken from two blocks of a partition of the positions. -/
  blocks : ∃ blocks : Finpartition (Finset.univ : Finset (Fin cs.length)),
    ∀ i j, i < j →
      ((verdictAt cs (i, j)).verdict.isFailure = true ↔ blocks.part i ≠ blocks.part j)
  failing : ((pairVerdicts cs).filter fun pair => pair.verdict.isFailure).length = 0 ∨
    cs.length - 1 ≤ ((pairVerdicts cs).filter fun pair => pair.verdict.isFailure).length

/-- Comparing several contributions compares every pair of them, and agreement sorts them into
blocks. -/
theorem comparesPairwise (cs : List Contribution) : ComparesPairwise cs where
  pairs := ⟨positionPairs cs.length, sorted_positionPairs _, fun _ => mem_positionPairs,
    pairVerdicts_eq_map cs⟩
  success_iff := by
    rw [← Verdict.causes_eq_nil_iff]
    have hcauses := forall₂_failingPairs cs
    have hnil : (contributionVerdict cs).causes = [] ↔ failingPairs cs = [] := by
      rw [← List.length_eq_zero_iff, ← hcauses.length_eq, List.length_eq_zero_iff]
    rw [hnil]
    cases cs with
    | nil => exact iff_of_true rfl nofun
    | cons c cs =>
      rw [failingPairs_cons_eq_nil_iff]
      simp only [List.head?_cons, Option.mem_some_iff, forall_eq', List.forall_mem_cons]
      exact ⟨fun h => ⟨Declaration.Agree.refl _, h⟩, And.right⟩
  causes := forall₂_failingPairs cs
  blocks := by
    classical
    refine ⟨.ofSetoid (agreeingPositions cs), fun i j _ => ?_⟩
    rw [verdictAt_isFailure_iff, Ne,
      ← Finpartition.mem_part_iff_part_eq_part _ (Finset.mem_univ i) (Finset.mem_univ j),
      Finpartition.mem_part_ofSetoid_iff_rel]
    exact not_congr ⟨.symm, .symm⟩
  failing := by
    rw [← failingPairs, List.length_eq_zero_iff]
    exact (failingPairs_eq_nil_or cs).imp_right fun h => by omega

end DeclMerge
