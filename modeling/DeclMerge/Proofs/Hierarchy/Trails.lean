import DeclMerge.Proofs.Hierarchy.Moves
import Mathlib.Data.List.Chain

/-!
# The trail of a walk

During a visit that began at a root, the path of the walk is a chain of supertypes from the root on,
and the guard knows its length. The guard is asked at most twice for each class: every request
enters a class that has not been entered before, or makes one fail. So the limit on requests is out
of reach for a list that is not too long, and a class is refused only where a chain goes too deep.

## Main definitions

* `ClassIndex.IsChainFrom`, `ClassIndex.Cyclic` — chains of supertypes, and classes that run into a
  cycle of them
* `Walk.Trail` — the path and the guard during a visit
* `Walk.Accounted` — the requests so far are paid for

## Main results

* `Walk.Move.trail`, `Walk.Move.accounted` — moves keep both
* `Walk.run_induction_of_moves` — what every move keeps holds at the end of a run
* `Walk.Refuses.length_eq` — a class is refused only at the end of a path that is as long as allowed
-/

namespace DeclMerge

open Relation

/-- What is left of a list from an element on begins with that element. -/
theorem head?_dropWhile_ne {α : Type} [DecidableEq α] {list : List α} {a b : α}
    (hmem : b ∈ list.dropWhile (· ≠ a)) : (list.dropWhile (· ≠ a)).head? = some a := by
  have hnot := List.head?_dropWhile_not (· ≠ a) list
  cases hdrop : list.dropWhile (· ≠ a) with
  | nil =>
    rw [hdrop] at hmem
    cases hmem
  | cons first rest =>
    rw [hdrop] at hnot
    simpa using hnot

namespace ClassIndex

/-- A chain of supertypes that begins with a class. -/
structure IsChainFrom (index : ClassIndex) (name : QualifiedName) (chain : List QualifiedName) :
    Prop where
  head?_eq : chain.head? = some name
  isChain : chain.IsChain index.Extends

/-- A cycle of supertypes can be reached from a class. -/
def Cyclic (index : ClassIndex) (name : QualifiedName) : Prop :=
  ∃ other, ReflTransGen index.Extends name other ∧
    TransGen index.Extends other other

variable {index : ClassIndex} {name last other : QualifiedName} {chain : List QualifiedName}

theorem extends_iff :
    index.Extends name other ↔ other ∈ ((index.get? name).map index.supertypes).getD [] := by
  cases hget : index.get? name <;> simp [Extends, hget]

theorem Extends.mem_names (h : index.Extends name other) : name ∈ index.names := by
  obtain ⟨declaration, hget, -⟩ := h
  exact mem_names_iff.mpr (by simp [hget])

/-- To know something of all steps it is enough to look through the classes and their supertypes. -/
theorem forall_extends {P : QualifiedName → QualifiedName → Prop}
    (h : ∀ sub ∈ index.names, ∀ super ∈ ((index.get? sub).map index.supertypes).getD [],
      P sub super) (sub super : QualifiedName) (hextends : index.Extends sub super) :
    P sub super :=
  h sub hextends.mem_names super (extends_iff.mp hextends)

theorem Extends.cyclic (h : index.Extends name other) (hcyclic : index.Cyclic other) :
    index.Cyclic name := by
  obtain ⟨last, hreach, hcycle⟩ := hcyclic
  exact ⟨last, hreach.head h, hcycle⟩

theorem isChainFrom_singleton (index : ClassIndex) (name : QualifiedName) :
    index.IsChainFrom name [name] :=
  ⟨rfl, .singleton name⟩

theorem IsChainFrom.concat (h : index.IsChainFrom name (chain ++ [last]))
    (hextends : index.Extends last other) :
    index.IsChainFrom name (chain ++ [last] ++ [other]) := by
  refine ⟨by simpa using h.head?_eq, h.isChain.append (.singleton other) ?_⟩
  simpa using hextends

/-- A chain of two or more classes ends with a step from a shorter chain. -/
theorem IsChainFrom.of_concat_concat (h : index.IsChainFrom name (chain ++ [other] ++ [last])) :
    index.IsChainFrom name (chain ++ [other]) ∧ index.Extends other last := by
  refine ⟨⟨by simpa using h.head?_eq, h.isChain.left_of_append⟩, ?_⟩
  have hchain := h.isChain
  rw [List.append_assoc] at hchain
  simpa using hchain.right_of_append

/-- What comes before the last class of a chain is a chain as well, if it is not empty. -/
theorem IsChainFrom.of_concat (h : index.IsChainFrom name (chain ++ [last])) :
    chain = [] ∨ index.IsChainFrom name chain := by
  rcases List.eq_nil_or_concat chain with rfl | ⟨before, previous, rfl⟩
  · exact .inl rfl
  · rw [List.concat_eq_append] at h ⊢
    exact .inr h.of_concat_concat.1

theorem IsChainFrom.take (h : index.IsChainFrom name chain) (length : Nat) :
    index.IsChainFrom name (chain.take (length + 1)) := by
  refine ⟨?_, h.isChain.take _⟩
  rw [List.head?_take, if_neg (Nat.succ_ne_zero length), h.head?_eq]

/-- A chain reaches each of its classes from the first one. -/
theorem IsChainFrom.reaches (h : index.IsChainFrom name chain) (hmem : other ∈ chain) :
    ReflTransGen index.Extends name other := by
  induction chain generalizing name with
  | nil => cases hmem
  | cons first rest ih =>
    obtain rfl : first = name := by simpa using h.head?_eq
    rcases List.mem_cons.mp hmem with rfl | hrest
    · exact .refl
    · cases rest with
      | nil => cases hrest
      | cons second rest =>
        obtain ⟨hstep, hchain⟩ := List.isChain_cons_cons.mp h.isChain
        exact (ih ⟨rfl, hchain⟩ hrest).head hstep

/-- The last class of a chain of two or more is reached in at least one step. -/
theorem IsChainFrom.reaches_last (h : index.IsChainFrom name (chain ++ [other] ++ [last])) :
    TransGen index.Extends name last :=
  .tail' (h.of_concat_concat.1.reaches (List.mem_concat_self ..)) h.of_concat_concat.2

/-- Ranks that get smaller with every step bound the length of chains. -/
theorem IsChainFrom.length_le_of_rank (rank : QualifiedName → Nat)
    (hrank : ∀ sub super, index.Extends sub super → rank super < rank sub)
    (h : index.IsChainFrom name chain) : chain.length ≤ rank name + 1 := by
  induction chain generalizing name with
  | nil => exact Nat.zero_le _
  | cons first rest ih =>
    obtain rfl : first = name := by simpa using h.head?_eq
    cases rest with
    | nil => simp
    | cons second rest =>
      obtain ⟨hstep, hchain⟩ := List.isChain_cons_cons.mp h.isChain
      have hrest := ih ⟨rfl, hchain⟩
      have hless := hrank _ _ hstep
      rw [List.length_cons]
      omega

/-- Where ranks get smaller with every step there are no cycles. -/
theorem not_cyclic_of_rank (rank : QualifiedName → Nat)
    (hrank : ∀ sub super, index.Extends sub super → rank super < rank sub) :
    ¬ index.Cyclic name := by
  rintro ⟨other, -, hcycle⟩
  have hless : ∀ {sub super}, TransGen index.Extends sub super → rank super < rank sub := by
    intro sub super hpath
    induction hpath with
    | single hstep => exact hrank _ _ hstep
    | tail _ hstep ih => exact (hrank _ _ hstep).trans ih
  exact lt_irrefl _ (hless hcycle)

/-- If a chain comes back to one of its classes, all classes from there on are on a cycle. -/
theorem IsChainFrom.cyclic (h : index.IsChainFrom name (chain ++ [last]))
    (hmem : other ∈ chain.dropWhile (· ≠ last)) : index.Cyclic other := by
  have hsuffix : chain.dropWhile (· ≠ last) <:+ chain := List.dropWhile_suffix _
  -- The class is reached from the repeated one, and it reaches the repeated one again.
  have hfrom : TransGen index.Extends other last := by
    obtain ⟨before, after, hsplit⟩ := List.append_of_mem (hsuffix.subset hmem)
    have hchain := h.isChain
    rw [hsplit, List.append_assoc] at hchain
    have hlater : index.IsChainFrom other (other :: after ++ [last]) :=
      ⟨rfl, hchain.right_of_append⟩
    obtain ⟨front, back, hend⟩ := (List.eq_nil_or_concat (other :: after)).resolve_left nofun
    rw [hend, List.concat_eq_append] at hlater
    exact hlater.reaches_last
  have hto : ReflTransGen index.Extends last other := by
    have hchain : index.IsChainFrom last (chain.dropWhile (· ≠ last)) :=
      ⟨head?_dropWhile_ne hmem, h.isChain.left_of_append.suffix hsuffix⟩
    exact hchain.reaches hmem
  exact ⟨other, .refl, hfrom.trans_left hto⟩

end ClassIndex

namespace Walk

variable {index : ClassIndex} {maxDepth : Nat} {root name : QualifiedName}
  {walk before after : Walk} {errors : List HierarchyError}

/-! ### The path and the guard -/

theorem guard_failAll (walk : Walk) (errors : List HierarchyError) :
    (walk.failAll errors).guard = walk.guard := by
  induction errors generalizing walk with
  | nil => rfl
  | cons error errors ih => exact ih (walk.fail error)

theorem path_failAll (walk : Walk) (errors : List HierarchyError) :
    (walk.failAll errors).path = walk.path := by
  induction errors generalizing walk with
  | nil => rfl
  | cons error errors ih => exact ih (walk.fail error)

theorem errors_failAll (walk : Walk) (errors : List HierarchyError) :
    (walk.failAll errors).errors = walk.errors ++ errors := by
  induction errors generalizing walk with
  | nil => simp [failAll]
  | cons error errors ih => simpa [failAll, fail] using ih (walk.fail error)

/-- The path and the guard of a walk during a visit that began at `root`. -/
structure Trail (index : ClassIndex) (maxDepth : Nat) (root : QualifiedName) (walk : Walk) :
    Prop where
  maxDepth_eq : walk.guard.maxDepth = maxDepth
  maxIterations_eq : walk.guard.maxIterations = Guard.hierarchyIterations
  depth_eq : walk.guard.depth = walk.path.length
  length_le : walk.path.length ≤ maxDepth
  chain : walk.path = [] ∨ index.IsChainFrom root walk.path

/-- Between two visits the next root does not matter yet. -/
theorem Trail.of_path_eq_nil (h : walk.Trail index maxDepth root) (hpath : walk.path = [])
    (next : QualifiedName) : walk.Trail index maxDepth next :=
  { h with chain := .inl hpath }

theorem trail_start (index : ClassIndex) (maxDepth : Nat) (root : QualifiedName) :
    (start index maxDepth).Trail index maxDepth root :=
  ⟨rfl, rfl, rfl, Nat.zero_le _, .inl rfl⟩

/-- A class that is asked for continues the path. -/
theorem Trail.isChainFrom_concat (h : walk.Trail index maxDepth root)
    (hasks : walk.AsksFor index root name) : index.IsChainFrom root (walk.path ++ [name]) := by
  rcases hasks with ⟨hpath, rfl⟩ | ⟨path, last, hpath, hturns⟩
  · rw [hpath]
    exact ClassIndex.isChainFrom_singleton index name
  · have hchain := h.chain.resolve_left (by simp [hpath])
    rw [hpath] at hchain ⊢
    exact hchain.concat hturns.extends

/-- The trail looks only at the path and at the guard, and the requests do not matter. -/
theorem Trail.congr (h : walk.Trail index maxDepth root)
    (hguard : after.guard = { walk.guard with iterations := after.guard.iterations })
    (hpath : after.path = walk.path) : after.Trail index maxDepth root where
  maxDepth_eq := by rw [hguard]; exact h.maxDepth_eq
  maxIterations_eq := by rw [hguard]; exact h.maxIterations_eq
  depth_eq := by rw [hguard, hpath]; exact h.depth_eq
  length_le := hpath ▸ h.length_le
  chain := hpath ▸ h.chain

/-- Only the last class leaves the path. -/
theorem mem_path_pop {path : List QualifiedName} {popped : Walk} {other : QualifiedName}
    (hpath : walk.path = path ++ [name]) (hpop : walk.pop name = .ok popped)
    (hother : other ∈ walk.path) : other ∈ popped.path ∨ other = name := by
  rw [pop_eq hpop]
  change other ∈ walk.path.dropLast ∨ other = name
  rw [hpath] at hother ⊢
  rw [List.dropLast_concat]
  simpa using hother

theorem Trail.pop {path : List QualifiedName} {popped : Walk}
    (h : walk.Trail index maxDepth root) (hpath : walk.path = path ++ [name])
    (hpop : walk.pop name = .ok popped) : popped.Trail index maxDepth root := by
  have hlength := h.length_le
  have hdepth := h.depth_eq
  have hchain := h.chain.resolve_left (by simp [hpath])
  rw [hpath, List.length_append, List.length_singleton] at hlength hdepth
  have hpopped : popped.path = path := by rw [pop_eq hpop, hpath, List.dropLast_concat]
  refine ⟨?_, ?_, ?_, hpopped ▸ by omega, hpopped ▸ (hpath ▸ hchain).of_concat⟩
  · rw [pop_eq hpop]
    exact h.maxDepth_eq
  · rw [pop_eq hpop]
    exact h.maxIterations_eq
  · rw [hpopped, pop_eq hpop]
    change walk.guard.depth - 1 = path.length
    omega

/-- A move keeps the trail. -/
theorem Move.trail (hmove : Move index root walk after) (h : walk.Trail index maxDepth root) :
    after.Trail index maxDepth root := by
  cases hmove with
  | enter hmem hpending hasks hnew hdepth =>
    refine ⟨h.maxDepth_eq, h.maxIterations_eq, ?_, ?_, .inr (h.isChainFrom_concat hasks)⟩
    · change walk.guard.depth + 1 = (walk.path ++ [_]).length
      rw [h.depth_eq, List.length_append, List.length_singleton]
    · change (walk.path ++ [_]).length ≤ maxDepth
      rw [h.maxDepth_eq, h.depth_eq] at hdepth
      rw [List.length_append, List.length_singleton]
      omega
  | refuse | spread => exact h.congr rfl rfl
  | close => exact h.congr (by rw [guard_failAll]; rfl) (by rw [path_failAll]; rfl)
  | leave hpath hfailed hpop => exact h.pop hpath hpop
  | build hpath hpending hget hbuilt hpop => exact (h.pop hpath hpop).congr rfl rfl

/-! ### The requests -/

/-- Each request so far has entered another class, or made one fail. -/
def Accounted (index : ClassIndex) (walk : Walk) : Prop :=
  ∃ entered : List QualifiedName, entered.Nodup ∧ entered ⊆ index.names ∧
    (∀ name ∈ entered, name ∈ walk.path ∨ walk.status name ≠ .pending) ∧
    walk.guard.iterations ≤ entered.length + walk.errors.length

theorem accounted_start (index : ClassIndex) (maxDepth : Nat) :
    (start index maxDepth).Accounted index :=
  ⟨[], List.nodup_nil, List.nil_subset _, nofun, Nat.zero_le _⟩

/-- No class that has been entered is forgotten, and requests are paid for by new errors. -/
theorem Accounted.mono (h : walk.Accounted index) (hkeeps : walk.Keeps after)
    (hpath : ∀ name ∈ walk.path, name ∈ after.path ∨ after.status name ≠ .pending)
    (hcount : after.guard.iterations + walk.errors.length ≤
      walk.guard.iterations + after.errors.length) : after.Accounted index := by
  obtain ⟨entered, hnodup, hsubset, hknown, hpaid⟩ := h
  refine ⟨entered, hnodup, hsubset, fun name hname => ?_, by omega⟩
  rcases hknown name hname with hactive | hstatus
  · exact hpath name hactive
  · exact .inr (hkeeps name hstatus ▸ hstatus)

/-- A request may enter a class for the first time. -/
theorem Accounted.push (h : walk.Accounted index) (hmem : name ∈ index.names)
    (hpending : walk.status name = .pending) (hnew : name ∉ walk.path) :
    (walk.push (walk.guard.withActive name) name).Accounted index := by
  obtain ⟨entered, hnodup, hsubset, hknown, hpaid⟩ := h
  have hfresh : name ∉ entered := by
    intro hname
    exact (hknown name hname).elim hnew (· hpending)
  refine ⟨entered ++ [name], nodup_append_singleton_iff.mpr ⟨hnodup, hfresh⟩,
    List.append_subset.mpr ⟨hsubset, by simpa using hmem⟩, ?_, ?_⟩
  · refine List.forall_mem_append.mpr ⟨fun other hother => ?_, ?_⟩
    · exact (hknown other hother).imp_left (List.mem_append_left _)
    · exact List.forall_mem_singleton.mpr (.inl (List.mem_concat_self ..))
  · have hcount : walk.guard.count.iterations ≤ walk.guard.iterations + 1 := min_le_left _ _
    change walk.guard.count.iterations ≤ (entered ++ [name]).length + walk.errors.length
    rw [List.length_append, List.length_singleton]
    omega

/-- A move keeps the account. -/
theorem Move.accounted (hmove : Move index root walk after) (hvalid : walk.Valid index)
    (h : walk.Accounted index) : after.Accounted index := by
  have hkeeps := (hmove.valid_and_keeps hvalid).2
  have hcount : walk.guard.count.iterations ≤ walk.guard.iterations + 1 := min_le_left _ _
  cases hmove with
  | enter hmem hpending hasks hnew hdepth => exact h.push hmem hpending hnew
  -- A request that enters nothing comes with a new error.
  | refuse =>
    refine h.mono hkeeps (fun _ => .inl) ?_
    change walk.guard.count.iterations + _ ≤ _ + (walk.errors ++ [_]).length
    rw [List.length_append, List.length_singleton]
    omega
  | @close name hname =>
    refine h.mono hkeeps (fun other hother => .inl (by rwa [path_failAll])) ?_
    have hcycle : 0 < (cycleErrors (walk.path.dropWhile (· ≠ name))).length := by
      rw [← List.length_map HierarchyError.className, map_className_cycleErrors]
      exact List.length_pos_of_mem (mem_dropWhile_ne hname)
    rw [guard_failAll, errors_failAll, List.length_append]
    change walk.guard.count.iterations + walk.errors.length ≤
      walk.guard.iterations + (walk.errors.length + _)
    omega
  | spread =>
    refine h.mono hkeeps (fun _ => .inl) ?_
    change _ ≤ _ + (walk.errors ++ [_]).length
    rw [List.length_append]
    change walk.guard.iterations + _ ≤ _
    omega
  -- A class that leaves the path has failed or has its scope.
  | leave hpath hfailed hpop =>
    refine h.mono hkeeps (fun other hother => ?_) (by rw [pop_eq hpop])
    exact (mem_path_pop hpath hpop hother).imp_right fun heq => by
      subst heq
      rw [hkeeps other (by simp [hfailed]), hfailed]
      simp
  | @build _ _ _ _ popped hpath hpending hget hbuilt hpop =>
    refine h.mono hkeeps (fun other hother => ?_) (by rw [setStatus, pop_eq hpop])
    refine (mem_path_pop hpath hpop hother).imp_right fun heq => ?_
    subst heq
    have hknown : other ∈ popped.names := by
      rw [pop_eq hpop]
      exact hvalid.names_eq ▸ hvalid.path_subset hother
    rw [status_setStatus hknown, if_pos rfl]
    simp

/-- While a class is pending, fewer requests have been made than twice the number of classes. -/
theorem Accounted.iterations_lt (h : walk.Accounted index) (hvalid : walk.Valid index)
    (hmem : name ∈ index.names) (hpending : walk.status name = .pending) :
    walk.guard.iterations < 2 * index.names.length := by
  obtain ⟨entered, hnodup, hsubset, -, hpaid⟩ := h
  have hentered := (List.subperm_of_subset hnodup hsubset).length_le
  have herrors : (walk.errors.map HierarchyError.className ++ [name]).length ≤
      index.names.length := by
    refine (List.subperm_of_subset (nodup_append_singleton_iff.mpr ⟨hvalid.errors_nodup, ?_⟩)
      (List.append_subset.mpr ⟨fun other hother => ?_, by simpa using hmem⟩)).length_le
    · rw [← hvalid.failed_iff, hpending]
      simp
    · exact hvalid.mem_names (by simp [(hvalid.failed_iff other).mpr hother])
  rw [List.length_append, List.length_map, List.length_singleton] at herrors
  omega

/-- A class of a list that is not too long is refused only at the end of a path that is as long as
the limit on the depth allows. -/
theorem Refuses.length_eq (h : walk.Refuses name) (hvalid : walk.Valid index)
    (htrail : walk.Trail index maxDepth root) (haccounted : walk.Accounted index)
    (hsmall : 2 * index.names.length ≤ Guard.hierarchyIterations) (hmem : name ∈ index.names)
    (hpending : walk.status name = .pending) :
    name ∉ walk.path ∧ walk.path.length = maxDepth := by
  have hrequests := haccounted.iterations_lt hvalid hmem hpending
  have hcount : walk.guard.count.iterations ≤ walk.guard.iterations + 1 := min_le_left _ _
  rcases h with hbudget | ⟨hnew, hdepth⟩
  · rw [htrail.maxIterations_eq] at hbudget
    omega
  · rw [htrail.maxDepth_eq, htrail.depth_eq] at hdepth
    exact ⟨hnew, le_antisymm htrail.length_le hdepth⟩

/-! ### Whole visits and runs -/

/-- What is known of the state of a walk during a visit that began at `root`. -/
structure Tracked (index : ClassIndex) (maxDepth : Nat) (root : QualifiedName) (walk : Walk) :
    Prop where
  valid : walk.Valid index
  trail : walk.Trail index maxDepth root
  accounted : walk.Accounted index

theorem Move.tracked (hmove : Move index root walk after) (h : walk.Tracked index maxDepth root) :
    after.Tracked index maxDepth root :=
  ⟨(hmove.valid_and_keeps h.valid).1, hmove.trail h.trail, hmove.accounted h.valid h.accounted⟩

/-- What each move of a visit keeps, the visit keeps. -/
theorem Moves.induction {motive : Walk → Prop} (hmoves : Moves index root before after)
    (h : before.Tracked index maxDepth root) (start : motive before)
    (move : ∀ walk next, walk.Tracked index maxDepth root → before.Keeps walk →
      Move index root walk next → motive walk → motive next) :
    after.Tracked index maxDepth root ∧ motive after := by
  suffices hall : after.Tracked index maxDepth root ∧ before.Keeps after ∧ motive after from
    ⟨hall.1, hall.2.2⟩
  induction hmoves with
  | refl => exact ⟨h, .refl before, start⟩
  | tail _ hmove ih =>
    obtain ⟨htracked, hkeeps, hmotive⟩ := ih
    exact ⟨hmove.tracked htracked,
      hkeeps.trans (hmove.valid_and_keeps htracked.valid).2,
      move _ _ htracked hkeeps hmove hmotive⟩

/-- What each visit from outside keeps, when it goes by moves, holds at the end of a run. -/
theorem run_induction_of_moves (motive : List QualifiedName → Walk → Prop) (index : ClassIndex)
    (maxDepth : Nat) (start : motive [] (start index maxDepth))
    (visit : ∀ done root rest before after, index.names = done ++ root :: rest →
      before.Between index done → after.Between index (done ++ [root]) →
        before.Tracked index maxDepth root → Moves index root before after → motive done before →
          motive (done ++ [root]) after) :
    ∃ walk, run index maxDepth = .ok walk ∧ walk.Finished index ∧ motive index.names walk := by
  obtain ⟨walk, hrun, hfinished, -, hmotive⟩ := run_induction
    (fun done walk => (∀ root, walk.Tracked index maxDepth root) ∧ motive done walk) index maxDepth
    ⟨fun root => ⟨valid_start index maxDepth, trail_start index maxDepth root,
      accounted_start index maxDepth⟩, start⟩ (by
      rintro done root rest before after hsplit hbefore hafter hrun ⟨htracked, hmotive⟩
      have hmoves := moves_visitRoot hbefore.valid hbefore.path_eq
        (hsplit ▸ List.mem_append_cons_self) hrun
      have hend := (Moves.induction (motive := fun _ => True) hmoves (htracked root) trivial
        fun _ _ _ _ _ _ => trivial).1
      exact ⟨fun next => ⟨hend.valid, hend.trail.of_path_eq_nil hafter.path_eq next,
        hend.accounted⟩, visit done root rest before after hsplit hbefore hafter (htracked root)
          hmoves hmotive⟩)
  exact ⟨walk, hrun, hfinished, hmotive⟩

end Walk

end DeclMerge
