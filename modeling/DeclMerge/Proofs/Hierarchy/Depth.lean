import DeclMerge.Proofs.Hierarchy.Coverage
import DeclMerge.Proofs.Hierarchy.Trails

/-!
# The limit on the depth

The limit on the depth is a limit on the path of the walk. A class therefore has no scope only if it
runs into a cycle, or into a chain that is too long and begins at the class itself or at one before
it in the list. Where a class is visited before all others around it, and its supertypes are met on
one way only, the limit on the path is a limit on the chains of the class itself.

## Main definitions

* `ClassIndex.Blocked` — why a class gets no scope
* `ClassIndex.StandsFirst` — a class that is visited before its supertypes and its subclasses

## Main results

* `Hierarchy.blocked_of_not_mem_names` — a class without a scope is blocked
* `Hierarchy.mem_names_iff_of_standsFirst` — a class that stands first has a scope exactly if its
  own chains are short enough
* `Hierarchy.not_forall_mem_names_iff` — in other lists that may fail
-/

namespace DeclMerge

open Relation

/-- What stands before the first `b` of a list. -/
theorem mem_takeWhile_ne {α : Type} [DecidableEq α] {before after : List α} {a b : α}
    (hbefore : b ∉ before) (hne : a ≠ b) : a ∈ (before ++ a :: after).takeWhile (· ≠ b) := by
  rw [List.takeWhile_append_of_pos, List.takeWhile_cons_of_pos]
  · exact List.mem_append_cons_self
  · simpa using hne
  · rintro other hother
    simp only [decide_eq_true_eq]
    rintro rfl
    exact hbefore hother

namespace ClassIndex

variable {index : ClassIndex} {maxDepth : Nat} {name super root other : QualifiedName}
  {done chain : List QualifiedName}

/-- A class reaches a cycle, or it reaches a class on a chain that is too long and begins at one of
the `roots`: at the class itself or at one before it. -/
def Blocked (index : ClassIndex) (maxDepth : Nat) (roots : List QualifiedName)
    (name : QualifiedName) : Prop :=
  index.Cyclic name ∨ ∃ earlier root chain other, earlier ++ [root] <+: roots ∧ name ∉ earlier ∧
    index.IsChainFrom root chain ∧ chain.Nodup ∧ maxDepth < chain.length ∧ other ∈ chain ∧
      ReflTransGen index.Extends name other

theorem Blocked.mono (h : index.Blocked maxDepth done name) (more : List QualifiedName) :
    index.Blocked maxDepth (done ++ more) name := by
  rcases h with hcyclic | ⟨earlier, root, chain, other, hroots, hrest⟩
  · exact .inl hcyclic
  · exact .inr ⟨earlier, root, chain, other, hroots.trans (List.prefix_append _ _), hrest⟩

/-- A class is blocked with its supertype if no root is later than itself. -/
theorem Blocked.of_extends (h : index.Blocked maxDepth (done ++ [root]) super)
    (hextends : index.Extends name super) (hnew : name ∉ done) :
    index.Blocked maxDepth (done ++ [root]) name := by
  rcases h with hcyclic | ⟨earlier, first, chain, other, hroots, -, hchain, hnodup, hlong, hmem,
    hreach⟩
  · exact .inl (hextends.cyclic hcyclic)
  · refine .inr ⟨earlier, first, chain, other, hroots, fun hname => hnew ?_, hchain, hnodup, hlong,
      hmem, hreach.head hextends⟩
    have hlast := List.prefix_concat_iff.mp hroots
    rcases hlast with heq | hprefix
    · exact (List.append_inj' heq rfl).1 ▸ hname
    · exact hprefix.subset (List.mem_append_left _ hname)

/-- A class that comes before all classes that it reaches or that reach it, and above which each
class has one direct subclass. A walk meets the classes above it on its way from the class itself,
and on one way only. -/
structure StandsFirst (index : ClassIndex) (name : QualifiedName) : Prop where
  first : ∀ other ∈ index.names.takeWhile (· ≠ name),
    ¬ ReflTransGen index.Extends name other ∧ ¬ ReflTransGen index.Extends other name
  single : ∀ super, TransGen index.Extends name super → ∀ sub sub', index.Extends sub super →
    index.Extends sub' super → sub = sub'

/-- No class before one that stands first reaches what that one reaches. -/
theorem StandsFirst.not_reaches (h : index.StandsFirst name)
    (hother : other ∈ index.names.takeWhile (· ≠ name))
    (hreach : ReflTransGen index.Extends name super) :
    ¬ ReflTransGen index.Extends other super := by
  induction hreach with
  | refl => exact (h.first other hother).2
  | tail hbefore hstep ih =>
    intro hmeets
    rcases hmeets.cases_tail with rfl | ⟨sub, hsub, hstep'⟩
    · exact (h.first _ hother).1 (hbefore.tail hstep)
    · rw [h.single _ (.tail' hbefore hstep) _ _ hstep' hstep] at hsub
      exact ih hsub

/-- From a class that stands first a single chain leads to each class. -/
theorem StandsFirst.chain_eq (h : index.StandsFirst name) (hacyclic : ¬ index.Cyclic name)
    {chain' : List QualifiedName} {last : QualifiedName}
    (hchain : index.IsChainFrom name (chain ++ [last]))
    (hchain' : index.IsChainFrom name (chain' ++ [last])) : chain = chain' := by
  have hnever : ¬ TransGen index.Extends name name := fun hcycle => hacyclic ⟨name, .refl, hcycle⟩
  induction chain using List.reverseRecOn generalizing chain' last with
  | nil =>
    obtain rfl : last = name := by simpa using hchain.head?_eq
    rcases List.eq_nil_or_concat chain' with rfl | ⟨before', previous', rfl⟩
    · rfl
    · rw [List.concat_eq_append] at hchain'
      exact absurd hchain'.reaches_last hnever
  | append_singleton before previous ih =>
    obtain ⟨hbefore, hstep⟩ := hchain.of_concat_concat
    rcases List.eq_nil_or_concat chain' with rfl | ⟨before', previous', rfl⟩
    · obtain rfl : last = name := by simpa using hchain'.head?_eq
      exact absurd hchain.reaches_last hnever
    · rw [List.concat_eq_append] at hchain' ⊢
      obtain ⟨hbefore', hstep'⟩ := hchain'.of_concat_concat
      obtain rfl := h.single last hchain.reaches_last _ _ hstep hstep'
      rw [ih hbefore hbefore']

end ClassIndex

namespace Walk

variable {index : ClassIndex} {maxDepth : Nat} {root name : QualifiedName}
  {walk before after : Walk} {done : List QualifiedName}

/-- The class that fails when another one is refused is on the chain that has become too long. -/
theorem blamed_mem_concat (walk : Walk) (name : QualifiedName) :
    walk.blamed name ∈ walk.path ++ [name] := by
  rw [blamed]
  rcases List.eq_nil_or_concat walk.path with hnil | ⟨path, last, hconcat⟩
  · simp [hnil]
  · simp [hconcat]

/-- A class that fails in a move is blocked, if those that have failed before are. -/
theorem Fails.blocked (h : Fails index root walk name) (htracked : walk.Tracked index maxDepth root)
    (hsmall : 2 * index.names.length ≤ Guard.hierarchyIterations) (hnew : name ∉ done)
    (hblocked : ∀ name, walk.status name = .failed →
      index.Blocked maxDepth (done ++ [root]) name) :
    index.Blocked maxDepth (done ++ [root]) name := by
  cases h with
  | @refused asked hmem hpending hasks hrefuses =>
    obtain ⟨hlast, hlength⟩ :=
      hrefuses.length_eq htracked.valid htracked.trail htracked.accounted hsmall hmem hpending
    refine .inr ⟨done, root, walk.path ++ [asked], walk.blamed asked, List.prefix_rfl, hnew,
      htracked.trail.isChainFrom_concat hasks,
      nodup_append_singleton_iff.mpr ⟨htracked.valid.path_nodup, hlast⟩, ?_,
      blamed_mem_concat walk asked, .refl⟩
    rw [List.length_append, List.length_singleton]
    omega
  | closed hasks hmem => exact .inl ((htracked.trail.isChainFrom_concat hasks).cyclic hmem)
  | inherited hextends hfailed => exact (hblocked _ hfailed).of_extends hextends hnew

/-- At the end of a run the classes that have failed are blocked. -/
theorem exists_run_blocked (hsmall : 2 * index.names.length ≤ Guard.hierarchyIterations)
    (maxDepth : Nat) :
    ∃ walk, run index maxDepth = .ok walk ∧ walk.Finished index ∧
      ∀ name, walk.status name = .failed → index.Blocked maxDepth index.names name := by
  refine run_induction_of_moves (fun done walk => ∀ name, walk.status name = .failed →
    index.Blocked maxDepth done name) index maxDepth ?_ ?_
  · intro name hfailed
    rw [status_start] at hfailed
    cases hfailed
  · intro done root rest before after hsplit hbefore hafter htracked hmoves hblocked
    refine (Moves.induction (motive := fun walk => ∀ name, walk.status name = .failed →
      index.Blocked maxDepth (done ++ [root]) name) hmoves htracked
      (fun name hfailed => (hblocked name hfailed).mono [root]) ?_).2
    intro walk next htracked hkeeps hmove hwalk name hfailed
    rcases hmove.status_cases htracked.valid name with heq | ⟨hpending, ⟨-, hfails⟩ | ⟨hbuilt, -⟩⟩
    · exact hwalk name (heq ▸ hfailed)
    · -- What was known before the visit still is, so the class has not been visited.
      refine hfails.blocked htracked hsmall (fun hmem => ?_) hwalk
      have hknown := hbefore.known name hmem
      exact hknown (hkeeps name hknown ▸ hpending)
    · obtain ⟨scope, hscope⟩ := hbuilt
      exact absurd (hfailed.symm.trans hscope) nofun

/-- As long as the walk has not gone past a class that stands first, it completes no class of a
chain of that class with one class more than the limit allows. -/
theorem Tracked.not_completes {chain : List QualifiedName} {member : QualifiedName}
    (h : walk.Tracked index maxDepth root) (hfirst : index.StandsFirst name)
    (hacyclic : ¬ index.Cyclic name)
    (hroot : root = name ∨ root ∈ index.names.takeWhile (· ≠ name))
    (hchain : index.IsChainFrom name chain) (hlong : chain.length = maxDepth + 1)
    (hunbuilt : ∀ other ∈ chain, ∀ scope, walk.status other ≠ .built scope)
    (hmember : member ∈ chain) : ¬ walk.Completes index member := by
  rintro ⟨⟨path, hpath⟩, hsupers⟩
  obtain ⟨before, after, rfl⟩ := List.append_of_mem hmember
  have htrail := h.trail.chain.resolve_left (by simp [hpath])
  rw [hpath] at htrail
  cases after with
  | cons next after =>
    -- The next class of the chain is a supertype without a scope.
    have hstep : index.Extends member next :=
      (List.isChain_cons_cons.mp hchain.isChain.right_of_append).1
    obtain ⟨scope, hscope⟩ := hsupers next hstep
    exact hunbuilt next (by simp) scope hscope
  | nil =>
    rcases hroot with rfl | hroot
    · -- The path is the chain itself, so it is too long.
      have hlength := h.trail.length_le
      rw [hpath, hfirst.chain_eq hacyclic htrail hchain] at hlength
      omega
    · exact hfirst.not_reaches hroot (hchain.reaches hmember)
        (htrail.reaches (List.mem_concat_self ..))

/-- A class that stands first fails if one of its chains is too long. -/
theorem exists_run_failed {chain : List QualifiedName} (hmem : name ∈ index.names)
    (hfirst : index.StandsFirst name) (hacyclic : ¬ index.Cyclic name)
    (hchain : index.IsChainFrom name chain)
    (hlong : chain.length = maxDepth + 1) :
    ∃ walk, run index maxDepth = .ok walk ∧ walk.Finished index ∧
      walk.status name = .failed := by
  have hhead : name ∈ chain := List.mem_of_mem_head? (by simp [hchain.head?_eq])
  suffices h : ∃ walk, run index maxDepth = .ok walk ∧ walk.Finished index ∧
      (name ∉ index.names → ∀ other ∈ chain, ∀ scope, walk.status other ≠ .built scope) ∧
      (name ∈ index.names → walk.status name = .failed) by
    obtain ⟨walk, hrun, hfinished, -, hfailed⟩ := h
    exact ⟨walk, hrun, hfinished, hfailed hmem⟩
  refine run_induction_of_moves
    (fun done walk => (name ∉ done → ∀ other ∈ chain, ∀ scope, walk.status other ≠ .built scope) ∧
      (name ∈ done → walk.status name = .failed)) index maxDepth ?_ ?_
  · exact ⟨fun _ other _ scope => by simp [status_start], nofun⟩
  · rintro done root rest before after hsplit hbefore hafter htracked hmoves ⟨hunbuilt, hfailed⟩
    by_cases hdone : name ∈ done
    · -- What is known of the class stays known.
      refine ⟨fun hnew => absurd (List.mem_append_left _ hdone) hnew, fun _ => ?_⟩
      rw [(hmoves.valid_and_keeps hbefore.valid).2 name (by simp [hfailed hdone]), hfailed hdone]
    have hroot : root = name ∨ root ∈ index.names.takeWhile (· ≠ name) :=
      or_iff_not_imp_left.mpr fun hne => hsplit ▸ mem_takeWhile_ne hdone hne
    -- A chain of which no class has its scope yet stays so, as its classes wait for one another.
    have hstill : ∀ other ∈ chain, ∀ scope, after.status other ≠ .built scope := by
      refine (Moves.induction (motive := fun walk => ∀ other ∈ chain, ∀ scope,
        walk.status other ≠ .built scope) hmoves htracked (hunbuilt hdone) ?_).2
      intro walk next hwalk hkeeps hmove hunbuilt other hother scope hbuilt
      rcases hmove.status_cases hwalk.valid other with heq | ⟨-, ⟨hfails, -⟩ | ⟨-, hcompletes⟩⟩
      · exact hunbuilt other hother scope (heq ▸ hbuilt)
      · exact absurd (hfails.symm.trans hbuilt) nofun
      · exact hwalk.not_completes hfirst hacyclic hroot hchain hlong hunbuilt hother hcompletes
    refine ⟨fun _ => hstill, fun hvisited => ?_⟩
    cases hstatus : after.status name with
    | pending => exact absurd hstatus (hafter.known name hvisited)
    | built scope => exact absurd hstatus (hstill name hhead scope)
    | failed => rfl

end Walk

namespace Hierarchy

variable {name : QualifiedName}

/-- A class of a list that is not too long has no scope only if it runs into a cycle, or into a
chain that is too long and begins at the class itself or at one before it. -/
theorem blocked_of_not_mem_names (classes : List (QualifiedName × Declaration)) (maxDepth : Nat)
    (hsmall : (ClassIndex.ofList classes).names.length ≤ 500000) (hname : name ∈ classNames classes)
    (habsent : name ∉ (ofClasses classes maxDepth).1.names) :
    (ClassIndex.ofList classes).Blocked maxDepth (ClassIndex.ofList classes).names name := by
  have hrequests : 2 * (ClassIndex.ofList classes).names.length ≤ Guard.hierarchyIterations := by
    rw [Guard.hierarchyIterations]
    omega
  obtain ⟨walk, hrun, hfinished, hblocked⟩ := Walk.exists_run_blocked hrequests maxDepth
  rw [ofClasses, hrun] at habsent
  have hnodup := ClassIndex.nodup_names_ofList classes
  refine hblocked name ?_
  cases hstatus : walk.status name with
  | pending => exact absurd hstatus (hfinished.known name (ClassIndex.mem_names_ofList.mpr hname))
  | built scope =>
    exact absurd ((mem_names_scopes_iff hfinished.valid hnodup).mpr ⟨scope, hstatus⟩) habsent
  | failed => rfl

/-- A class that stands first and reaches no cycle has a scope exactly if all chains of supertypes
that begin with it are as short as the limit demands. -/
theorem mem_names_iff_of_standsFirst (classes : List (QualifiedName × Declaration))
    (maxDepth : Nat) (hsmall : (ClassIndex.ofList classes).names.length ≤ 500000)
    (hname : name ∈ classNames classes) (hacyclic : ¬ (ClassIndex.ofList classes).Cyclic name)
    (hfirst : (ClassIndex.ofList classes).StandsFirst name) :
    name ∈ (ofClasses classes maxDepth).1.names ↔
      ∀ chain, (ClassIndex.ofList classes).IsChainFrom name chain → chain.length ≤ maxDepth := by
  have hmem := ClassIndex.mem_names_ofList.mpr hname
  have hnodup := ClassIndex.nodup_names_ofList classes
  constructor
  · -- A chain that is too long begins with one that has just one class too many.
    intro hbuilt chain hchain
    by_contra hlong
    have hlength : (chain.take (maxDepth + 1)).length = maxDepth + 1 := by
      rw [List.length_take]
      omega
    obtain ⟨walk, hrun, hfinished, hfailed⟩ :=
      Walk.exists_run_failed hmem hfirst hacyclic (hchain.take maxDepth) hlength
    rw [ofClasses, hrun] at hbuilt
    obtain ⟨scope, hscope⟩ := (mem_names_scopes_iff hfinished.valid hnodup).mp hbuilt
    cases hfailed.symm.trans hscope
  · intro hshort
    by_contra habsent
    rcases blocked_of_not_mem_names classes maxDepth hsmall hname habsent with hcyclic |
      ⟨earlier, root, chain, other, hroots, hearlier, hchain, -, hlong, hother, hreach⟩
    · exact hacyclic hcyclic
    · -- The class itself has no such chain, and a chain from a class before it does not get here.
      by_cases hroot : root = name
      · subst hroot
        exact absurd (hshort chain hchain) (by omega)
      · obtain ⟨later, hsplit⟩ := hroots
        rw [List.append_assoc] at hsplit
        exact hfirst.not_reaches (hsplit ▸ mem_takeWhile_ne hearlier hroot) hreach
          (hchain.reaches hother)

/-! ### A line of classes -/

/-- Classes without members, of which each names the next one as its supertype. -/
def line : List String → List (QualifiedName × Declaration)
  | [] => []
  | name :: rest =>
    (⟨name⟩, .class { name := ⟨name⟩ } .class
      ((rest.take 1).map fun super => ⟨⟨super⟩, [], false⟩) []) :: line rest

/-- In a line of two classes, listed from the bottom up, the lower one has a chain of two, so it has
no scope under the limit 1. -/
theorem mem_names_iff_of_standsFirst_line :
    (ClassIndex.ofList (line ["A", "B"])).StandsFirst ⟨"A"⟩ ∧
    ¬ (ClassIndex.ofList (line ["A", "B"])).Cyclic ⟨"A"⟩ ∧
    (⟨"A"⟩ ∈ (ofClasses (line ["A", "B"]) 1).1.names ↔
      ∀ chain, (ClassIndex.ofList (line ["A", "B"])).IsChainFrom ⟨"A"⟩ chain →
        chain.length ≤ 1) := by
  have hedges := (ClassIndex.ofList (line ["A", "B"])).forall_extends
    (P := fun sub super => sub = ⟨"A"⟩ ∧ super = ⟨"B"⟩) (by decide)
  have hacyclic : ¬ (ClassIndex.ofList (line ["A", "B"])).Cyclic ⟨"A"⟩ :=
    ClassIndex.not_cyclic_of_rank (["B", "A"].idxOf ·.text) (ClassIndex.forall_extends (by decide))
  have hfirst : (ClassIndex.ofList (line ["A", "B"])).StandsFirst ⟨"A"⟩ := by
    refine ⟨?_, fun super _ sub sub' hsub hsub' => ?_⟩
    · have hnone : (ClassIndex.ofList (line ["A", "B"])).names.takeWhile (· ≠ ⟨"A"⟩) = [] := by
        decide
      rw [hnone]
      exact nofun
    · rw [(hedges sub super hsub).1, (hedges sub' super hsub').1]
  exact ⟨hfirst, hacyclic, mem_names_iff_of_standsFirst (line ["A", "B"]) 1 (by decide) (by decide)
    hacyclic hfirst⟩

/-- Without regard to the order of the list, the limit is no limit on the chains of a class. In a
line of three classes under the limit 2 the middle one has no scope if the line is listed from the
bottom up, although its chains are short enough; from the top down all three have one. -/
theorem not_forall_mem_names_iff :
    (¬ ∀ (classes : List (QualifiedName × Declaration)) (maxDepth : Nat) (name : QualifiedName),
      name ∈ classNames classes → ¬ (ClassIndex.ofList classes).Cyclic name →
        (name ∈ (ofClasses classes maxDepth).1.names ↔ ∀ chain,
          (ClassIndex.ofList classes).IsChainFrom name chain → chain.length ≤ maxDepth)) ∧
    ¬ ∀ (classes classes' : List (QualifiedName × Declaration)) (maxDepth : Nat)
      (name : QualifiedName), classes.Perm classes' → (classNames classes).Nodup →
        name ∈ classNames classes → ¬ (ClassIndex.ofList classes).Cyclic name →
          (name ∈ (ofClasses classes maxDepth).1.names ↔
            name ∈ (ofClasses classes' maxDepth).1.names) := by
  have hrank := (ClassIndex.ofList (line ["A", "B", "C"])).forall_extends
    (P := fun sub super => ["C", "B", "A"].idxOf super.text < ["C", "B", "A"].idxOf sub.text)
    (by decide)
  have hacyclic : ¬ (ClassIndex.ofList (line ["A", "B", "C"])).Cyclic ⟨"B"⟩ :=
    ClassIndex.not_cyclic_of_rank (["C", "B", "A"].idxOf ·.text) hrank
  have habsent : ⟨"B"⟩ ∉ (ofClasses (line ["A", "B", "C"]) 2).1.names := by decide
  constructor
  · intro hclaim
    refine habsent ((hclaim _ 2 ⟨"B"⟩ (by decide) hacyclic).mpr fun chain hchain => ?_)
    exact hchain.length_le_of_rank (["C", "B", "A"].idxOf ·.text) hrank
  · intro hclaim
    refine habsent ((hclaim _ (line ["A", "B", "C"]).reverse 2 ⟨"B"⟩
      (List.reverse_perm _).symm (by decide) (by decide) hacyclic).mpr (by decide))

end Hierarchy

end DeclMerge
