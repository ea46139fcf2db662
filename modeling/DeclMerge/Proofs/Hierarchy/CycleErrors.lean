import DeclMerge.Proofs.Hierarchy.Reasons

/-!
# Which classes are reported as cyclic

A class stops at its first supertype that has no scope. Where cycles alone take scopes away, that
is the first supertype from which a cycle can be reached, so each class from which a cycle can be
reached leads to one other class. Following these steps ends in going round, and exactly the classes
that are gone round are reported as cyclic; all others on the way blame the class that they lead to.
A class on a second cycle, through a later supertype of one of its classes, is therefore not
reported as cyclic.

## Main definitions

* `ClassIndex.Leads` — from a class to its first supertype that reaches a cycle
* `ClassIndex.Returns` — the classes that these steps lead back to

## Main results

* `Hierarchy.not_mem_hierarchyTooDeep` — under an ample limit no chain is too deep
* `Hierarchy.classified` — which class gets which error, under an ample limit
* `Hierarchy.not_forall_classified` — a class may be on a cycle and not be reported as cyclic
-/

namespace DeclMerge

open Relation

namespace ClassIndex

variable {index : ClassIndex} {passed : QualifiedName → Prop}
  {name sub super super' : QualifiedName}

/-- The first supertype without a property is determined by the class. -/
theorem ExtendsAfter.unique (h : index.ExtendsAfter passed sub super)
    (h' : index.ExtendsAfter passed sub super') (hstop : ¬ passed super)
    (hstop' : ¬ passed super') : super = super' := by
  classical
  obtain ⟨declaration, earlier, later, hget, hsplit, hearlier⟩ := h
  obtain ⟨declaration', earlier', later', hget', hsplit', hearlier'⟩ := h'
  obtain rfl := Option.some.inj (hget.symm.trans hget')
  have hfind : (index.supertypes declaration).find? (fun other => ¬ passed other) = some super :=
    List.find?_eq_some_iff_append.mpr ⟨by simpa, earlier, later, hsplit, by simpa using hearlier⟩
  have hfind' : (index.supertypes declaration).find? (fun other => ¬ passed other) = some super' :=
    List.find?_eq_some_iff_append.mpr
      ⟨by simpa, earlier', later', hsplit', by simpa using hearlier'⟩
  exact Option.some.inj (hfind.symm.trans hfind')

/-- A class leads to its first supertype from which a cycle can be reached. -/
def Leads (index : ClassIndex) (sub super : QualifiedName) : Prop :=
  index.ExtendsAfter (fun other => ¬ index.Cyclic other) sub super ∧ index.Cyclic super

/-- A class to which one comes back by following the classes that it leads to. -/
def Returns (index : ClassIndex) (name : QualifiedName) : Prop :=
  TransGen index.Leads name name

theorem Cyclic.mem_names (h : index.Cyclic name) : name ∈ index.names := by
  obtain ⟨other, hreaches, hcycle⟩ := h
  rcases hreaches.cases_head with rfl | ⟨next, hstep, -⟩
  · obtain ⟨next, hstep, -⟩ := TransGen.head'_iff.mp hcycle
    exact hstep.mem_names
  · exact hstep.mem_names

theorem Leads.cyclic (h : index.Leads sub super) : index.Cyclic sub :=
  h.1.extends.cyclic h.2

theorem Leads.unique (h : index.Leads sub super) (h' : index.Leads sub super') : super = super' :=
  h.1.unique h'.1 (not_not_intro h.2) (not_not_intro h'.2)

/-- A class that returns is on a cycle. -/
theorem Returns.transGen_extends (h : index.Returns name) :
    TransGen index.Extends name name := by
  have hle : index.Leads ≤ index.Extends := fun _ _ hleads => hleads.1.extends
  exact TransGen.mono hle name name h

/-- The only class that a returning class leads to returns as well, and leads back to it. -/
theorem Returns.step (h : index.Returns name) (hleads : index.Leads name super) :
    index.Returns super ∧ ReflTransGen index.Leads super name := by
  obtain ⟨next, hnext, hback⟩ := TransGen.head'_iff.mp h
  obtain rfl := hleads.unique hnext
  exact ⟨.tail' hback hleads, hback⟩

end ClassIndex

namespace ReportedCycle

variable {step : QualifiedName → QualifiedName → Prop} {errors : List HierarchyError}
  {name other : QualifiedName} {cycle : List QualifiedName}

/-- Each class of a reported cycle has an error. -/
theorem exists_error (h : ReportedCycle step errors name cycle) (hother : other ∈ cycle) :
    ∃ rotated, .cyclicSupertypes other rotated ∈ errors := by
  obtain ⟨front, back, rfl⟩ := List.append_of_mem hother
  exact ⟨other :: back ++ front, h.reported other _ rfl List.isRotated_append⟩

/-- The first class of a cycle has a step to a class of the cycle. -/
theorem exists_step (h : ReportedCycle step errors name cycle) :
    ∃ next ∈ cycle, step name next := by
  obtain ⟨rest, rfl⟩ := List.head?_eq_some_iff.mp h.head?_eq
  have hchain := (Cycle.chain_coe_cons step name rest).mp h.chain
  cases rest with
  | nil => exact ⟨name, List.mem_cons_self, List.isChain_pair.mp hchain⟩
  | cons next rest =>
    exact ⟨next, by simp, (List.isChain_cons_cons.mp hchain).1⟩

/-- Whatever holds of the steps between classes of the cycle leads round the cycle. -/
theorem transGen (h : ReportedCycle step errors name cycle)
    {step' : QualifiedName → QualifiedName → Prop}
    (hstep : ∀ sub ∈ cycle, ∀ super ∈ cycle, step sub super → step' sub super) :
    TransGen step' name name := by
  obtain ⟨rest, rfl⟩ := List.head?_eq_some_iff.mp h.head?_eq
  have hchain := (Cycle.chain_coe_cons step name rest).mp h.chain
  have hmem : ∀ other ∈ name :: (rest ++ [name]), other ∈ name :: rest :=
    fun other hother => by simpa [or_comm] using hother
  have hchain' : Cycle.Chain step' ((name :: rest : List QualifiedName) : Cycle QualifiedName) :=
    (Cycle.chain_coe_cons step' name rest).mpr <| hchain.imp_of_mem_imp fun sub super hsub hsuper =>
      hstep sub (hmem sub hsub) super (hmem super hsuper)
  have hround := Cycle.chain_iff_pairwise.mp (hchain'.imp fun _ _ => TransGen.single)
  exact hround name (by simp) name (by simp)

end ReportedCycle

namespace Walk

variable {index : ClassIndex} {maxDepth : Nat} {root name : QualifiedName} {walk after : Walk}

/-- No class is refused if the limit is no smaller than the number of classes: the path and the
class have no repetitions. -/
theorem Tracked.not_refuses (h : walk.Tracked index maxDepth root)
    (hsmall : 2 * index.names.length ≤ Guard.hierarchyIterations)
    (hample : index.names.length ≤ maxDepth) (hmem : name ∈ index.names)
    (hpending : walk.status name = .pending) : ¬ walk.Refuses name := by
  intro hrefuses
  obtain ⟨hnew, hlength⟩ :=
    hrefuses.length_eq h.valid h.trail h.accounted hsmall hmem hpending
  have hnodup : (walk.path ++ [name]).Nodup :=
    nodup_append_singleton_iff.mpr ⟨h.valid.path_nodup, hnew⟩
  have hsubset : walk.path ++ [name] ⊆ index.names :=
    List.append_subset.mpr ⟨h.valid.path_subset, by simpa using hmem⟩
  have hle := (hnodup.subperm hsubset).length_le
  rw [List.length_append, List.length_singleton] at hle
  omega

/-- No class has been reported as too deep. -/
def Shallow (walk : Walk) : Prop := ∀ name limit, .hierarchyTooDeep name limit ∉ walk.errors

theorem Move.shallow (hmove : Move index root walk after)
    (htracked : walk.Tracked index maxDepth root)
    (hsmall : 2 * index.names.length ≤ Guard.hierarchyIterations)
    (hample : index.names.length ≤ maxDepth) (h : walk.Shallow) : after.Shallow := by
  intro name limit herrors
  cases hmove with
  | enter => exact h name limit herrors
  | refuse hmem hpending hasks hpath hrefuses =>
    exact htracked.not_refuses hsmall hample hmem hpending hrefuses
  | close =>
    rw [errors_failAll, List.mem_append] at herrors
    exact herrors.elim (h name limit) (by simp [cycleErrors])
  | spread hpath hpending hturns hfailed herror =>
    -- Only a supertype that is too deep makes a class too deep.
    rcases List.mem_append.mp herrors with hold | hnew
    · exact h name limit hold
    · rcases herror with rfl | ⟨-, deep, hdeep⟩
      · simp at hnew
      · exact h _ deep hdeep
  | leave hpath hfailed hpop =>
    rw [pop_eq hpop] at herrors
    exact h name limit herrors
  | build hpath hpending hget hbuilt hpop =>
    rw [setStatus, pop_eq hpop] at herrors
    exact h name limit herrors

/-- At the end of a run no class has been reported as too deep, if the limit is ample. -/
theorem exists_run_shallow (hsmall : 2 * index.names.length ≤ Guard.hierarchyIterations)
    (hample : index.names.length ≤ maxDepth) :
    ∃ walk, run index maxDepth = .ok walk ∧ walk.Finished index ∧ walk.Shallow := by
  refine run_induction_of_moves (fun _ walk => walk.Shallow) index maxDepth (fun _ _ => nofun) ?_
  intro done root rest before after hsplit hbefore hafter htracked hmoves hshallow
  exact (Moves.induction (motive := Shallow) hmoves htracked hshallow
    fun walk next hwalk _ hmove => hmove.shallow hwalk hsmall hample).2

end Walk

namespace Hierarchy

variable {index : ClassIndex} {hierarchy : Hierarchy} {errors : List HierarchyError}
  {name sub super : QualifiedName} {cycle : List QualifiedName}

/-- A hierarchy in which cycles alone take scopes away: the classes without a scope are those from
which a cycle can be reached, and each has one error, which gives a true reason. -/
structure Cycles (index : ClassIndex) (hierarchy : Hierarchy) (errors : List HierarchyError) :
    Prop extends hierarchy.Explained index errors where
  mem_errors_iff : ∀ name, name ∈ errors.map HierarchyError.className ↔ index.Cyclic name
  mem_names_iff : ∀ name ∈ index.names, name ∈ hierarchy.names ↔ ¬ index.Cyclic name
  nodup : (errors.map HierarchyError.className).Nodup
  shallow : ∀ name limit, .hierarchyTooDeep name limit ∉ errors

/-- Under a limit that is no smaller than the number of classes no chain is too deep. -/
theorem not_mem_hierarchyTooDeep (classes : List (QualifiedName × Declaration)) {maxDepth : Nat}
    (hsmall : (ClassIndex.ofList classes).names.length ≤ 500000)
    (hample : (ClassIndex.ofList classes).names.length ≤ maxDepth) (name : QualifiedName)
    (limit : Nat) : .hierarchyTooDeep name limit ∉ (ofClasses classes maxDepth).2 := by
  obtain ⟨walk, hrun, -, hshallow⟩ := Walk.exists_run_shallow
    (by rw [Guard.hierarchyIterations]; omega) hample
  rw [ofClasses, hrun]
  exact hshallow name limit

/-- Under a limit that is no smaller than the number of classes cycles alone take scopes away. -/
theorem cycles_ofClasses (classes : List (QualifiedName × Declaration)) {maxDepth : Nat}
    (hsmall : (ClassIndex.ofList classes).names.length ≤ 500000)
    (hample : (ClassIndex.ofList classes).names.length ≤ maxDepth) :
    (ofClasses classes maxDepth).1.Cycles (.ofList classes) (ofClasses classes maxDepth).2 := by
  have hnames : ∀ name ∈ (ClassIndex.ofList classes).names,
      name ∈ (ofClasses classes maxDepth).1.names ↔ ¬ (ClassIndex.ofList classes).Cyclic name :=
    fun name hname => mem_names_iff_not_cyclic classes hsmall hample
      (ClassIndex.mem_names_ofList.mp hname)
  obtain ⟨walk, heq, hfinished⟩ := exists_ofClasses_eq classes maxDepth
  have hnodup := ClassIndex.nodup_names_ofList classes
  refine ⟨explained_ofClasses classes maxDepth, fun name => ?_, hnames, ?_,
    not_mem_hierarchyTooDeep classes hsmall hample⟩
  · by_cases hname : name ∈ (ClassIndex.ofList classes).names
    · have hcases := scope_or_error_of_finished hfinished hnodup hname
      have hiff := hnames name hname
      rw [heq] at hiff ⊢
      rcases hcases with ⟨hscope, hnone⟩ | ⟨hnone, herror⟩
      · exact iff_of_false (List.count_eq_zero.mp hnone) (hiff.mp hscope)
      · exact iff_of_true (List.one_le_count_iff.mp herror.ge) (not_not.mp (mt hiff.mpr hnone))
    · rw [heq]
      refine iff_of_false (fun herror => hname ?_) fun hcyclic => hname hcyclic.mem_names
      exact hfinished.valid.mem_names (by simp [(hfinished.valid.failed_iff name).mpr herror])
  · rw [heq]
    exact hfinished.valid.errors_nodup

namespace Cycles

/-- Where a class stops it is led. -/
theorem leads (h : hierarchy.Cycles index errors)
    (hextends : index.ExtendsAfter (· ∈ hierarchy.names) sub super)
    (herror : super ∈ errors.map HierarchyError.className) : index.Leads sub super :=
  ⟨hextends.imp fun other hmem => (h.mem_names_iff other hmem).mp,
    (h.mem_errors_iff super).mp herror⟩

/-- A class that is reported as cyclic leads to one that is reported with it. -/
theorem exists_cyclic_of_leads (h : hierarchy.Cycles index errors)
    (herror : .cyclicSupertypes name cycle ∈ errors) (hleads : index.Leads name super) :
    ∃ rotated, .cyclicSupertypes super rotated ∈ errors := by
  have hcycle := h.cyclic name cycle herror
  obtain ⟨next, hnext, hstep⟩ := hcycle.exists_step
  obtain ⟨rotated, hreported⟩ := hcycle.exists_error hnext
  obtain rfl := hleads.unique (h.leads hstep (List.mem_map_of_mem hreported))
  exact ⟨rotated, hreported⟩

theorem exists_cyclic_of_reaches (h : hierarchy.Cycles index errors)
    (herror : .cyclicSupertypes name cycle ∈ errors)
    (hreaches : ReflTransGen index.Leads name super) :
    ∃ rotated, .cyclicSupertypes super rotated ∈ errors := by
  induction hreaches with
  | refl => exact ⟨cycle, herror⟩
  | tail _ hleads ih =>
    obtain ⟨rotated, hreported⟩ := ih
    exact h.exists_cyclic_of_leads hreported hleads

/-- A class that is reported as cyclic is gone round. -/
theorem returns_of_cyclic (h : hierarchy.Cycles index errors)
    (herror : .cyclicSupertypes name cycle ∈ errors) : index.Returns name := by
  have hcycle := h.cyclic name cycle herror
  refine hcycle.transGen fun sub _ super hsuper hstep => ?_
  obtain ⟨rotated, hreported⟩ := hcycle.exists_error hsuper
  exact h.leads hstep (List.mem_map_of_mem hreported)

/-- A class that blames a supertype is not gone round. Otherwise the supertype would be, and so it
would blame another one in turn: it is not reported as cyclic, because the class is not. But errors
blame earlier ones. -/
theorem not_returns_of_unresolvable (h : hierarchy.Cycles index errors)
    {before : List HierarchyError}
    (hstart : before ++ [.unresolvableSupertype name super] <+: errors) :
    ¬ index.Returns name := by
  -- On the number of errors before: the error that the supertype has is among these.
  induction hlength : before.length using Nat.strong_induction_on
    generalizing before name super with
  | _ length ih =>
    intro hreturns
    obtain ⟨hextends, hblamed⟩ := h.unresolvable before name super hstart
    obtain ⟨error, herror, hclass⟩ := List.mem_map.mp hblamed
    have hsubset : before ++ [.unresolvableSupertype name super] ⊆ errors := hstart.subset
    have hmem : error ∈ errors := hsubset (List.mem_append_left _ herror)
    have hleads := h.leads hextends (hclass ▸ List.mem_map_of_mem hmem)
    obtain ⟨hsuper, hback⟩ := hreturns.step hleads
    cases error with
    | cyclicSupertypes other cycle =>
      obtain rfl : other = super := hclass
      obtain ⟨rotated, hreported⟩ := h.exists_cyclic_of_reaches hmem hback
      have hself : HierarchyError.unresolvableSupertype name other ∈ errors :=
        hsubset (List.mem_concat_self ..)
      cases List.inj_on_of_nodup_map h.nodup hreported hself rfl
    | unresolvableSupertype other top =>
      obtain rfl : other = super := hclass
      obtain ⟨first, rest, rfl⟩ := List.append_of_mem herror
      have hearlier : first ++ [.unresolvableSupertype other top] <+: errors := by
        refine List.IsPrefix.trans ⟨rest ++ [.unresolvableSupertype name other], ?_⟩ hstart
        simp
      refine ih first.length ?_ hearlier rfl hsuper
      rw [← hlength, List.length_append, List.length_cons]
      omega
    | hierarchyTooDeep other limit => exact h.shallow other limit hmem

theorem leads_and_not_returns (h : hierarchy.Cycles index errors)
    (herror : .unresolvableSupertype name super ∈ errors) :
    index.Leads name super ∧ ¬ index.Returns name := by
  obtain ⟨before, hstart⟩ := exists_prefix_of_mem herror
  obtain ⟨hextends, hblamed⟩ := h.extends_and_blamed hstart
  exact ⟨h.leads hextends hblamed, h.not_returns_of_unresolvable hstart⟩

/-- A class from which a cycle can be reached is reported as cyclic, or it blames the class that it
leads to. -/
theorem cyclic_or_unresolvable (h : hierarchy.Cycles index errors) (hcyclic : index.Cyclic name) :
    (∃ cycle, .cyclicSupertypes name cycle ∈ errors) ∨
      ∃ super, .unresolvableSupertype name super ∈ errors := by
  obtain ⟨error, herror, rfl⟩ := List.mem_map.mp ((h.mem_errors_iff name).mpr hcyclic)
  cases error with
  | cyclicSupertypes other cycle => exact .inl ⟨cycle, herror⟩
  | unresolvableSupertype other super => exact .inr ⟨super, herror⟩
  | hierarchyTooDeep other limit => exact absurd herror (h.shallow other limit)

end Cycles

/-- Which class gets which error, under a limit that is no smaller than the number of classes.
Reported as cyclic are the classes to which one comes back by following first supertypes from which
a cycle can be reached, and each of them is on a cycle. All other classes from which a cycle can be
reached, and no further ones, blame the first such supertype. -/
theorem classified (classes : List (QualifiedName × Declaration)) (maxDepth : Nat)
    (hsmall : (ClassIndex.ofList classes).names.length ≤ 500000)
    (hample : (ClassIndex.ofList classes).names.length ≤ maxDepth) (name : QualifiedName) :
    ((∃ cycle, .cyclicSupertypes name cycle ∈ (ofClasses classes maxDepth).2) ↔
      (ClassIndex.ofList classes).Returns name) ∧
    ((ClassIndex.ofList classes).Returns name →
      TransGen (ClassIndex.ofList classes).Extends name name) ∧
    ((∃ super, .unresolvableSupertype name super ∈ (ofClasses classes maxDepth).2) ↔
      (ClassIndex.ofList classes).Cyclic name ∧ ¬ (ClassIndex.ofList classes).Returns name) ∧
    ∀ super, .unresolvableSupertype name super ∈ (ofClasses classes maxDepth).2 ↔
      (ClassIndex.ofList classes).Leads name super ∧
        ¬ (ClassIndex.ofList classes).Returns name := by
  have hcycles := cycles_ofClasses classes hsmall hample
  have hreturns : (∃ cycle, .cyclicSupertypes name cycle ∈ (ofClasses classes maxDepth).2) →
      (ClassIndex.ofList classes).Returns name :=
    fun ⟨cycle, herror⟩ => hcycles.returns_of_cyclic herror
  have hblames : (ClassIndex.ofList classes).Cyclic name →
      ¬ (ClassIndex.ofList classes).Returns name →
        ∃ super, .unresolvableSupertype name super ∈ (ofClasses classes maxDepth).2 :=
    fun hcyclic hround =>
      (hcycles.cyclic_or_unresolvable hcyclic).resolve_left (mt hreturns hround)
  refine ⟨⟨hreturns, fun hround => ?_⟩, fun hround => hround.transGen_extends,
    ⟨?_, fun ⟨hcyclic, hround⟩ => hblames hcyclic hround⟩,
    fun super => ⟨hcycles.leads_and_not_returns, ?_⟩⟩
  · obtain ⟨super, hleads, -⟩ := TransGen.head'_iff.mp hround
    refine (hcycles.cyclic_or_unresolvable hleads.cyclic).resolve_right ?_
    rintro ⟨super, herror⟩
    exact (hcycles.leads_and_not_returns herror).2 hround
  · rintro ⟨super, herror⟩
    obtain ⟨hleads, hround⟩ := hcycles.leads_and_not_returns herror
    exact ⟨hleads.cyclic, hround⟩
  · -- The class blames some supertype, and there is only one that it leads to.
    rintro ⟨hleads, hround⟩
    obtain ⟨super', herror⟩ := hblames hleads.cyclic hround
    obtain rfl := hleads.unique (hcycles.leads_and_not_returns herror).1
    exact herror

/-! ### Two cycles with a class in common -/

/-- Paper stands on two cycles, one with each of the other two classes. -/
def crossing : List (QualifiedName × Declaration) :=
  [bare "Rock" ["Paper"], bare "Paper" ["Rock", "Scissors"], bare "Scissors" ["Paper"]]

/-- Rock and Paper are reported with the cycle that the walk meets first. Scissors is on a cycle as
well, but it leads to Paper, which leads to Rock, so it blames Paper. -/
theorem classified_crossing :
    ((∃ cycle, .cyclicSupertypes ⟨"Paper"⟩ cycle ∈ (ofClasses crossing 3).2) ∧
      (ClassIndex.ofList crossing).Returns ⟨"Paper"⟩) ∧
    .unresolvableSupertype ⟨"Scissors"⟩ ⟨"Paper"⟩ ∈ (ofClasses crossing 3).2 ∧
    (ClassIndex.ofList crossing).Leads ⟨"Scissors"⟩ ⟨"Paper"⟩ ∧
    ¬ (ClassIndex.ofList crossing).Returns ⟨"Scissors"⟩ := by
  have hcyclic : ∃ cycle, .cyclicSupertypes ⟨"Paper"⟩ cycle ∈ (ofClasses crossing 3).2 :=
    ⟨[⟨"Paper"⟩, ⟨"Rock"⟩], by decide⟩
  have hunresolvable :
      .unresolvableSupertype ⟨"Scissors"⟩ ⟨"Paper"⟩ ∈ (ofClasses crossing 3).2 := by decide
  refine ⟨⟨hcyclic, ?_⟩, hunresolvable, ?_⟩
  · exact (classified crossing 3 (by decide) (by decide) ⟨"Paper"⟩).1.mp hcyclic
  · obtain ⟨-, -, -, hiff⟩ := classified crossing 3 (by decide) (by decide) ⟨"Scissors"⟩
    exact (hiff ⟨"Paper"⟩).mp hunresolvable

/-- It is not so that all classes on a cycle are reported as cyclic and those on none blame another
one: Scissors is on a cycle with Paper. -/
theorem not_forall_classified :
    ¬ ∀ (classes : List (QualifiedName × Declaration)) (maxDepth : Nat),
      (classNames classes).Nodup → classes.length ≤ 500000 → classes.length ≤ maxDepth →
        ∀ name ∈ classNames classes,
          ((∃ cycle, .cyclicSupertypes name cycle ∈ (ofClasses classes maxDepth).2) ↔
            TransGen (ClassIndex.ofList classes).Extends name name) ∧
          ((∃ super, .unresolvableSupertype name super ∈ (ofClasses classes maxDepth).2) ↔
            ¬ TransGen (ClassIndex.ofList classes).Extends name name ∧
              (ClassIndex.ofList classes).Cyclic name) := by
  intro hclaim
  have hround : TransGen (ClassIndex.ofList crossing).Extends ⟨"Scissors"⟩ ⟨"Scissors"⟩ :=
    .tail (.single (ClassIndex.extends_iff.mpr (by decide) : (ClassIndex.ofList crossing).Extends
      ⟨"Scissors"⟩ ⟨"Paper"⟩)) (ClassIndex.extends_iff.mpr (by decide))
  obtain ⟨-, hunresolvable⟩ :=
    hclaim crossing 3 (by decide) (by decide) (by decide) ⟨"Scissors"⟩ (by decide)
  exact (hunresolvable.mp ⟨⟨"Paper"⟩, by decide⟩).1 hround

end Hierarchy

end DeclMerge
