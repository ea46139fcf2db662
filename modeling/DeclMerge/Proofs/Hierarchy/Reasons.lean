import DeclMerge.Proofs.Hierarchy.Cycles
import Mathlib.Data.List.Cycle

/-!
# The reasons that errors give

The path of a walk goes from each class to one of its supertypes, and it turns to a supertype only
when all that are declared before have their scopes. A cycle that is read off the path is therefore
a cycle of supertypes, and it is reported from each of its classes on. A class that fails because of
a supertype names the first one that has no scope, and that one has been reported before.

## Main definitions

* `ReportedCycle` — a cycle with an error for each of its classes
* `Walk.Explained` — the reasons that the errors of a walk give are true
* `Hierarchy.Explained` — the same for a hierarchy

## Main results

* `Walk.mem_cycleErrors_iff` — the errors of a cycle are one for each rotation
* `Walk.Move.explained` — every move keeps the reasons true
* `Hierarchy.errors_truthful` — the reasons that the errors of a hierarchy give are true
-/

namespace DeclMerge

/-- A cycle as one of its classes sees it: it begins with that class and has no class twice, each
class takes one step to the next one and the last class one to the first, and all rotations of the
cycle are reported for the classes that they begin with. -/
structure ReportedCycle (step : QualifiedName → QualifiedName → Prop)
    (errors : List HierarchyError) (name : QualifiedName) (cycle : List QualifiedName) : Prop where
  head?_eq : cycle.head? = some name
  nodup : cycle.Nodup
  chain : Cycle.Chain step (cycle : Cycle QualifiedName)
  reported : ∀ other rotated, rotated.head? = some other → rotated.IsRotated cycle →
    .cyclicSupertypes other rotated ∈ errors

namespace ReportedCycle

variable {step step' : QualifiedName → QualifiedName → Prop} {errors errors' : List HierarchyError}
  {name other : QualifiedName} {cycle rotated : List QualifiedName}

theorem mono (h : ReportedCycle step errors name cycle)
    (hstep : ∀ sub super, step sub super → step' sub super) (herrors : errors ⊆ errors') :
    ReportedCycle step' errors' name cycle where
  head?_eq := h.head?_eq
  nodup := h.nodup
  chain := h.chain.imp hstep
  reported other rotated hhead hrotated := herrors (h.reported other rotated hhead hrotated)

/-- The other classes of a cycle see it in the same way. -/
theorem rotate (h : ReportedCycle step errors name cycle) (hhead : rotated.head? = some other)
    (hrotated : rotated.IsRotated cycle) : ReportedCycle step errors other rotated where
  head?_eq := hhead
  nodup := hrotated.nodup_iff.mpr h.nodup
  chain := Cycle.coe_eq_coe.mpr hrotated ▸ h.chain
  reported other' rotated' hhead' hrotated' :=
    h.reported other' rotated' hhead' (hrotated'.trans hrotated)

end ReportedCycle

/-- A list that goes on from a prefix ends in what has been added, or before it. -/
theorem prefix_append_cases {α : Type} {before list more : List α} {a : α}
    (h : before ++ [a] <+: list ++ more) : before ++ [a] <+: list ∨ list <+: before ∧ a ∈ more := by
  -- From the end: either the prefix takes in the last element, or it ends before.
  induction more using List.reverseRecOn with
  | nil => exact .inl (by simpa using h)
  | append_singleton more b ih =>
    rw [← List.append_assoc] at h
    rcases List.prefix_concat_iff.mp h with heq | hshort
    · obtain ⟨rfl, hlast⟩ := List.append_inj' heq rfl
      exact .inr ⟨List.prefix_append _ _, by simp_all⟩
    · exact (ih hshort).imp_right fun ⟨hstart, hmem⟩ => ⟨hstart, List.mem_append_left _ hmem⟩

/-- Each element of a list ends a prefix of it. -/
theorem exists_prefix_of_mem {α : Type} {list : List α} {a : α} (h : a ∈ list) :
    ∃ before, before ++ [a] <+: list := by
  obtain ⟨before, after, rfl⟩ := List.append_of_mem h
  exact ⟨before, after, by simp⟩

/-- A rotation begins where the list is split. -/
theorem exists_append_of_isRotated {α : Type} {list rotated : List α} {a : α}
    (hhead : rotated.head? = some a) (hrotated : rotated.IsRotated list) :
    ∃ front back, list = front ++ a :: back ∧ rotated = a :: back ++ front := by
  obtain ⟨n, hn, rfl⟩ := List.isRotated_iff_mod.mp hrotated.symm
  rw [List.rotate_eq_drop_append_take hn] at hhead ⊢
  have htake := List.take_append_drop n list
  cases hdrop : list.drop n with
  | nil =>
    -- A full turn gives the list itself.
    rw [hdrop, List.append_nil] at htake
    rw [hdrop, List.nil_append, htake] at hhead
    rw [List.nil_append, htake]
    obtain ⟨back, rfl⟩ := List.head?_eq_some_iff.mp hhead
    exact ⟨[], back, rfl, (List.append_nil _).symm⟩
  | cons first back =>
    rw [hdrop] at hhead htake
    obtain rfl : first = a := by simpa using hhead
    exact ⟨list.take n, back, htake.symm, rfl⟩

namespace Walk

variable {index : ClassIndex} {maxDepth : Nat} {root name : QualifiedName} {walk after : Walk}

/-! ### Rotations -/

theorem mem_rotations_iff {seen rest rotated : List QualifiedName} :
    (name, rotated) ∈ rotations seen rest ↔
      ∃ front back, rest = front ++ name :: back ∧ rotated = name :: back ++ (seen ++ front) := by
  induction rest generalizing seen with
  | nil => simp [rotations]
  | cons first rest ih =>
    rw [rotations, List.mem_cons, ih]
    constructor
    · rintro (heq | ⟨front, back, rfl, rfl⟩)
      · cases heq
        exact ⟨[], rest, rfl, by simp⟩
      · exact ⟨first :: front, back, rfl, by simp⟩
    · rintro ⟨front, back, hrest, rfl⟩
      cases front with
      | nil =>
        cases hrest
        exact .inl (by simp)
      | cons second front =>
        cases hrest
        exact .inr ⟨front, back, rfl, by simp⟩

/-- A cycle is reported for each of its classes, by the rotation that begins with the class. -/
theorem mem_cycleErrors_iff {cycle rotated : List QualifiedName} :
    .cyclicSupertypes name rotated ∈ cycleErrors cycle ↔
      rotated.head? = some name ∧ rotated.IsRotated cycle := by
  rw [cycleErrors, List.mem_map]
  constructor
  · rintro ⟨⟨other, other'⟩, hmem, heq⟩
    cases heq
    obtain ⟨front, back, rfl, rfl⟩ := mem_rotations_iff.mp hmem
    exact ⟨rfl, List.isRotated_append⟩
  · rintro ⟨hhead, hrotated⟩
    obtain ⟨front, back, hcycle, rfl⟩ := exists_append_of_isRotated hhead hrotated
    exact ⟨(name, name :: back ++ front), mem_rotations_iff.mpr ⟨front, back, hcycle, rfl⟩, rfl⟩

/-! ### What moves keep -/

/-- The path of a walk goes by supertypes, and the reasons that its errors give are true. -/
structure Explained (index : ClassIndex) (walk : Walk) : Prop where
  isChain : walk.path.IsChain (walk.TurnsTo index)
  cyclic : ∀ name cycle, .cyclicSupertypes name cycle ∈ walk.errors →
    ReportedCycle (walk.TurnsTo index) walk.errors name cycle
  /-- A supertype that is to blame has been reported before. -/
  unresolvable : ∀ before name super,
    before ++ [.unresolvableSupertype name super] <+: walk.errors →
    walk.TurnsTo index name super ∧ super ∈ before.map HierarchyError.className

theorem explained_start (index : ClassIndex) (maxDepth : Nat) :
    (start index maxDepth).Explained index := by
  refine ⟨.nil, nofun, fun before name super hstart => ?_⟩
  exact absurd (List.prefix_nil.mp hstart) (by simp)

/-- A class that is asked for continues the path. -/
theorem Explained.isChain_concat (h : walk.Explained index)
    (hasks : walk.AsksFor index root name) :
    (walk.path ++ [name]).IsChain (walk.TurnsTo index) := by
  rcases hasks with ⟨hpath, rfl⟩ | ⟨path, last, hpath, hturns⟩
  · rw [hpath]
    exact .singleton name
  · exact h.isChain.append (.singleton name) (by simpa [hpath] using hturns)

/-- The path has come back to a class, so its end is a cycle. -/
theorem Explained.reportedCycle (h : walk.Explained index) (hnodup : walk.path.Nodup)
    (hasks : walk.AsksFor index root name) (hname : name ∈ walk.path) :
    ReportedCycle (walk.TurnsTo index) (cycleErrors (walk.path.dropWhile (· ≠ name))) name
      (walk.path.dropWhile (· ≠ name)) := by
  have hsuffix : walk.path.dropWhile (· ≠ name) <:+ walk.path := List.dropWhile_suffix _
  have hhead := head?_dropWhile_ne (mem_dropWhile_ne hname)
  have hchain : (walk.path.dropWhile (· ≠ name) ++ [name]).IsChain (walk.TurnsTo index) := by
    obtain ⟨front, hfront⟩ := hsuffix
    exact (h.isChain_concat hasks).suffix ⟨front, by rw [← List.append_assoc, hfront]⟩
  obtain ⟨rest, hcycle⟩ := List.head?_eq_some_iff.mp hhead
  refine ⟨hhead, hnodup.sublist hsuffix.sublist, ?_, fun other rotated hother hrotated =>
    mem_cycleErrors_iff.mpr ⟨hother, hrotated⟩⟩
  rw [hcycle] at hchain ⊢
  exact hchain

/-- Errors may be added whose reasons are true. -/
theorem Explained.extend (h : walk.Explained index) (hvalid : walk.Valid index)
    (hkeeps : walk.Keeps after) (hchain : after.path.IsChain (after.TurnsTo index))
    (more : List HierarchyError) (herrors : after.errors = walk.errors ++ more)
    (hcyclic : ∀ name cycle, .cyclicSupertypes name cycle ∈ more →
      ReportedCycle (walk.TurnsTo index) more name cycle)
    (hunresolvable : ∀ name super, .unresolvableSupertype name super ∈ more →
      walk.TurnsTo index name super ∧ walk.status super = .failed) :
    after.Explained index := by
  have hstep : ∀ sub super, walk.TurnsTo index sub super → after.TurnsTo index sub super :=
    fun _ _ hturns => hturns.mono hkeeps
  refine ⟨hchain, fun name cycle hmem => ?_, fun before name super hstart => ?_⟩
  · rw [herrors] at hmem ⊢
    rcases List.mem_append.mp hmem with hold | hnew
    · exact (h.cyclic name cycle hold).mono hstep (List.subset_append_left _ _)
    · exact (hcyclic name cycle hnew).mono hstep (List.subset_append_right _ _)
  · rw [herrors] at hstart
    rcases prefix_append_cases hstart with hold | ⟨hbefore, hnew⟩
    · exact (h.unresolvable before name super hold).imp_left (hstep _ _)
    · obtain ⟨hturns, hfailed⟩ := hunresolvable name super hnew
      have hknown := (hvalid.failed_iff super).mp hfailed
      exact ⟨hstep _ _ hturns, (hbefore.map HierarchyError.className).subset hknown⟩

/-- A move keeps the reasons true. -/
theorem Move.explained (hmove : Move index root walk after) (hvalid : walk.Valid index)
    (h : walk.Explained index) : after.Explained index := by
  have hkeeps := (hmove.valid_and_keeps hvalid).2
  have hchain : walk.path.IsChain (after.TurnsTo index) :=
    h.isChain.imp fun _ _ hturns => hturns.mono hkeeps
  -- Only closing a cycle and passing on a failure add errors that give reasons.
  cases hmove with
  | enter hmem hpending hasks hnew hdepth =>
    exact h.extend hvalid hkeeps (h.isChain_concat hasks) [] (List.append_nil _).symm nofun nofun
  | refuse => exact h.extend hvalid hkeeps hchain [_] rfl (by simp) (by simp)
  | @close name hname hasks hpath =>
    have hcycle := h.reportedCycle hvalid.path_nodup hasks hname
    refine h.extend hvalid hkeeps (by rwa [path_failAll]) _ (errors_failAll _ _)
      (fun other rotated hmem => ?_) (fun other super hmem => ?_)
    · obtain ⟨hhead, hrotated⟩ := mem_cycleErrors_iff.mp hmem
      exact hcycle.rotate hhead hrotated
    · simp [cycleErrors] at hmem
  | spread hpath hpending hturns hfailed herror =>
    refine h.extend hvalid hkeeps hchain [_] rfl (fun other cycle hmem => ?_)
      (fun other super hmem => ?_)
    · rcases herror with rfl | ⟨rfl, -⟩ <;> simp at hmem
    · rcases herror with rfl | ⟨rfl, -⟩
      · obtain ⟨rfl, rfl⟩ : other = _ ∧ super = _ := by simpa using hmem
        exact ⟨hturns, hfailed⟩
      · simp at hmem
  | leave hpath hfailed hpop =>
    refine h.extend hvalid hkeeps ?_ [] (by simp [pop_eq hpop]) nofun nofun
    rw [pop_eq hpop] at hchain ⊢
    exact hchain.prefix (List.dropLast_prefix _)
  | build hpath hpending hget hbuilt hpop =>
    refine h.extend hvalid hkeeps ?_ [] (by simp [setStatus, pop_eq hpop]) nofun nofun
    rw [setStatus, pop_eq hpop] at hchain ⊢
    exact hchain.prefix (List.dropLast_prefix _)

/-- At the end of a run the reasons that the errors give are true. -/
theorem exists_run_explained (index : ClassIndex) (maxDepth : Nat) :
    ∃ walk, run index maxDepth = .ok walk ∧ walk.Finished index ∧ walk.Explained index := by
  refine run_induction_of_moves (fun _ walk => walk.Explained index) index maxDepth
    (explained_start index maxDepth) ?_
  intro done root rest before after hsplit hbefore hafter htracked hmoves hexplained
  exact (Moves.induction (motive := fun walk => walk.Explained index) hmoves htracked hexplained
    fun walk next hwalk _ hmove => hmove.explained hwalk.valid).2

end Walk

namespace Hierarchy

variable {index : ClassIndex} {hierarchy : Hierarchy} {errors : List HierarchyError}

/-- The errors of a hierarchy give true reasons. A class that a supertype keeps from having a scope
names the first one without a scope, which has been reported before. -/
structure Explained (index : ClassIndex) (hierarchy : Hierarchy) (errors : List HierarchyError) :
    Prop where
  absent : ∀ name ∈ errors.map HierarchyError.className, name ∉ hierarchy.names
  cyclic : ∀ name cycle, .cyclicSupertypes name cycle ∈ errors →
    ReportedCycle (index.ExtendsAfter (· ∈ hierarchy.names)) errors name cycle
  unresolvable : ∀ before name super, before ++ [.unresolvableSupertype name super] <+: errors →
    index.ExtendsAfter (· ∈ hierarchy.names) name super ∧
      super ∈ before.map HierarchyError.className

/-- A supertype that is to blame has an error. -/
theorem Explained.extends_and_blamed (h : hierarchy.Explained index errors)
    {before : List HierarchyError} {name super : QualifiedName}
    (hstart : before ++ [.unresolvableSupertype name super] <+: errors) :
    index.ExtendsAfter (· ∈ hierarchy.names) name super ∧
      super ∈ errors.map HierarchyError.className := by
  obtain ⟨hextends, hblamed⟩ := h.unresolvable before name super hstart
  have hsubset : before ⊆ errors := fun _ hmem => hstart.subset (List.mem_append_left _ hmem)
  exact ⟨hextends, List.map_subset _ hsubset hblamed⟩

theorem explained_ofClasses (classes : List (QualifiedName × Declaration)) (maxDepth : Nat) :
    (ofClasses classes maxDepth).1.Explained (.ofList classes) (ofClasses classes maxDepth).2 := by
  obtain ⟨walk, hrun, hfinished, hexplained⟩ :=
    Walk.exists_run_explained (.ofList classes) maxDepth
  have hbuilt : ∀ name, name ∈ names ⟨walk.scopes⟩ ↔ ∃ scope, walk.status name = .built scope :=
    fun name => mem_names_scopes_iff hfinished.valid (ClassIndex.nodup_names_ofList classes)
  have hstep : ∀ sub super, walk.TurnsTo (.ofList classes) sub super →
      (ClassIndex.ofList classes).ExtendsAfter (· ∈ names ⟨walk.scopes⟩) sub super :=
    fun sub super hturns => hturns.imp fun other _ => (hbuilt other).mpr
  rw [ofClasses, hrun]
  refine ⟨fun name herror hname => ?_, fun name cycle herror => ?_,
    fun before name super hstart => ?_⟩
  · obtain ⟨scope, hscope⟩ := (hbuilt name).mp hname
    rw [(hfinished.valid.failed_iff name).mpr herror] at hscope
    cases hscope
  · exact (hexplained.cyclic name cycle herror).mono hstep (List.Subset.refl _)
  · exact (hexplained.unresolvable before name super hstart).imp_left (hstep name super)

/-- The reasons that the errors of a hierarchy give are true. A cycle of which an error speaks is a
cycle of supertypes that is reported for each of its classes, as it looks from there. A supertype
that an error blames is among those that the class declares, it has an error and no scope itself,
and those before it have scopes. -/
theorem errors_truthful (classes : List (QualifiedName × Declaration)) (maxDepth : Nat) :
    (∀ name cycle, .cyclicSupertypes name cycle ∈ (ofClasses classes maxDepth).2 →
      ReportedCycle (ClassIndex.ofList classes).Extends (ofClasses classes maxDepth).2 name cycle) ∧
    ∀ name super, .unresolvableSupertype name super ∈ (ofClasses classes maxDepth).2 →
      (ClassIndex.ofList classes).ExtendsAfter (· ∈ (ofClasses classes maxDepth).1.names)
        name super ∧
      super ∉ (ofClasses classes maxDepth).1.names ∧
      ∃ error ∈ (ofClasses classes maxDepth).2, error.className = super := by
  have hexplained := explained_ofClasses classes maxDepth
  refine ⟨fun name cycle herror => ?_, fun name super herror => ?_⟩
  · exact (hexplained.cyclic name cycle herror).mono
      (fun _ _ hstep => hstep.extends) (List.Subset.refl _)
  · obtain ⟨before, hstart⟩ := exists_prefix_of_mem herror
    obtain ⟨hextends, hblamed⟩ := hexplained.extends_and_blamed hstart
    exact ⟨hextends, hexplained.absent super hblamed, List.mem_map.mp hblamed⟩

/-- In the knot two classes see the same cycle, each from itself on, and the class below blames the
second of them. -/
theorem errors_truthful_knot :
    (ofClasses knot 5).2 =
      [.cyclicSupertypes ⟨"Chicken"⟩ [⟨"Chicken"⟩, ⟨"Egg"⟩],
        .cyclicSupertypes ⟨"Egg"⟩ [⟨"Egg"⟩, ⟨"Chicken"⟩],
        .unresolvableSupertype ⟨"Nest"⟩ ⟨"Egg"⟩] ∧
    ReportedCycle (ClassIndex.ofList knot).Extends (ofClasses knot 5).2 ⟨"Egg"⟩
      [⟨"Egg"⟩, ⟨"Chicken"⟩] ∧
    (ClassIndex.ofList knot).ExtendsAfter (· ∈ (ofClasses knot 5).1.names) ⟨"Nest"⟩ ⟨"Egg"⟩ := by
  obtain ⟨hcyclic, hunresolvable⟩ := errors_truthful knot 5
  exact ⟨by decide, hcyclic _ _ (by decide), (hunresolvable _ _ (by decide)).1⟩

end Hierarchy

end DeclMerge
