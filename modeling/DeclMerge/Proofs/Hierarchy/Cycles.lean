import DeclMerge.Proofs.Hierarchy.Depth

/-!
# Cycles alone take scopes away

Where the limit on the depth is no smaller than the number of classes, no chain without repetitions
is too long. A class then has a scope exactly if it runs into no cycle of supertypes. This does not
depend on the order in which the classes are visited, and neither do the scopes.

## Main results

* `Hierarchy.Coherent.not_cyclic` — a class with a scope runs into no cycle
* `ClassIndex.Blocked.cyclic` — under an ample limit only cycles are in the way
* `Hierarchy.decidedByCycles` — which classes have scopes, and that their order does not matter
-/

namespace DeclMerge

open Relation

variable {index index' : ClassIndex} {hierarchy hierarchy' : Hierarchy}
  {name sub super : QualifiedName}

namespace ClassIndex

theorem Extends.super_mem_names (h : index.Extends sub super) : super ∈ index.names := by
  obtain ⟨declaration, -, hmem⟩ := h
  exact (mem_supertypes.mp hmem).2

/-- A chain that begins with a class of the index has classes of the index only. -/
theorem IsChainFrom.subset_names {chain : List QualifiedName} (h : index.IsChainFrom name chain)
    (hname : name ∈ index.names) : chain ⊆ index.names := by
  intro other hother
  rcases (h.reaches hother).cases_tail with rfl | ⟨before, -, hstep⟩
  · exact hname
  · exact hstep.super_mem_names

/-- If the limit is no smaller than the number of classes, then only cycles are in the way. -/
theorem Blocked.cyclic {maxDepth : Nat} (h : index.Blocked maxDepth index.names name)
    (hample : index.names.length ≤ maxDepth) : index.Cyclic name := by
  rcases h with hcyclic | ⟨earlier, root, chain, -, hroots, -, hchain, hnodup, hlong, -⟩
  · exact hcyclic
  · -- A chain without repetitions has at most as many classes as there are.
    have hroot : root ∈ index.names := hroots.subset (List.mem_concat_self ..)
    have hlength := (hnodup.subperm (hchain.subset_names hroot)).length_le
    omega

/-- Two indexes with the same classes know the same supertypes. -/
theorem supertypes_congr (h : ∀ name, index'.get? name = index.get? name)
    (declaration : Declaration) : index'.supertypes declaration = index.supertypes declaration := by
  rw [supertypes, supertypes]
  congr 1
  funext name
  rw [h]

theorem mem_names_congr (h : ∀ name, index'.get? name = index.get? name) :
    name ∈ index'.names ↔ name ∈ index.names := by
  rw [mem_names_iff, mem_names_iff, h]

theorem extends_congr (h : ∀ name, index'.get? name = index.get? name) :
    index'.Extends = index.Extends := by
  ext sub super
  rw [extends_iff, extends_iff, h, funext (supertypes_congr h)]

theorem cyclic_congr (h : ∀ name, index'.get? name = index.get? name) :
    index'.Cyclic name ↔ index.Cyclic name := by
  rw [Cyclic, Cyclic, extends_congr h]

end ClassIndex

/-- To compare the first classes of all names it is enough to look at the names that occur. -/
theorem find?_class_congr {classes classes' : List (QualifiedName × Declaration)}
    (h : ∀ name ∈ classNames classes ++ classNames classes',
      classes'.find? (fun entry => entry.2.isClass && entry.1 = name) =
        classes.find? fun entry => entry.2.isClass && entry.1 = name) (name : QualifiedName) :
    classes'.find? (fun entry => entry.2.isClass && entry.1 = name) =
      classes.find? fun entry => entry.2.isClass && entry.1 = name := by
  by_cases hmem : name ∈ classNames classes ++ classNames classes'
  · exact h name hmem
  · -- Neither list has a class of another name.
    have habsent : ∀ list : List (QualifiedName × Declaration), name ∉ classNames list →
        (list.find? fun entry => entry.2.isClass && entry.1 = name) = none := by
      intro list hnone
      rw [List.find?_eq_none]
      intro entry hentry hfound
      simp only [Bool.and_eq_true, decide_eq_true_eq] at hfound
      exact hnone (List.mem_map.mpr ⟨entry, List.mem_filter.mpr ⟨hentry, hfound.1⟩, hfound.2⟩)
    rw [List.mem_append, not_or] at hmem
    rw [habsent classes hmem.1, habsent classes' hmem.2]

namespace Hierarchy

/-- The steps from a class with a scope are the same in the index and in the hierarchy. -/
theorem Coherent.directSupertype_of_extends (h : hierarchy.Coherent index)
    (hsub : sub ∈ hierarchy.names) (hextends : index.Extends sub super) :
    hierarchy.DirectSupertype sub super := by
  obtain ⟨scope, hscope, rfl⟩ := exists_of_mem_names hsub
  obtain ⟨declaration, hget, hsuper⟩ := hextends
  obtain rfl := Option.some.inj ((h.get?_eq scope hscope).symm.trans hget)
  obtain ⟨supertype, hsupertype, hget'⟩ := h.exists_mem_supertypes hscope hsuper
  obtain ⟨-, rfl⟩ := get?_eq_some hget'
  exact (h.directSupertype_iff hscope).mpr ⟨supertype, hsupertype, rfl⟩

/-- From a class with a scope the index leads to classes with scopes only. -/
theorem Coherent.upward_of_reaches (h : hierarchy.Coherent index) (hsub : sub ∈ hierarchy.names)
    (hreaches : ReflTransGen index.Extends sub super) : hierarchy.Upward sub super := by
  induction hreaches with
  | refl => exact .refl
  | tail _ hstep ih => exact ih.tail (h.directSupertype_of_extends (ih.mem_names hsub) hstep)

/-- A class that has a scope runs into no cycle: the hierarchy would have the whole of it. -/
theorem Coherent.not_cyclic (h : hierarchy.Coherent index) (hname : name ∈ hierarchy.names) :
    ¬ index.Cyclic name := by
  rintro ⟨other, hreaches, hcycle⟩
  have hother := (h.upward_of_reaches hname hreaches).mem_names hname
  obtain ⟨next, hstep, hback⟩ := TransGen.head'_iff.mp hcycle
  have hnext := h.directSupertype_of_extends hother hstep
  have hup : hierarchy.Upward other next := .single hnext
  exact h.acyclic other (.head' hnext (h.upward_of_reaches (hup.mem_names hother) hback))

/-- With an ample limit a class has a scope exactly if it runs into no cycle. -/
theorem mem_names_iff_not_cyclic (classes : List (QualifiedName × Declaration)) {maxDepth : Nat}
    (hsmall : (ClassIndex.ofList classes).names.length ≤ 500000)
    (hample : (ClassIndex.ofList classes).names.length ≤ maxDepth)
    (hname : name ∈ classNames classes) : name ∈ (ofClasses classes maxDepth).1.names ↔
      ¬ (ClassIndex.ofList classes).Cyclic name := by
  constructor
  · exact (coherent_ofClasses classes maxDepth).not_cyclic
  · intro hacyclic
    by_contra habsent
    exact hacyclic ((blocked_of_not_mem_names classes maxDepth hsmall hname habsent).cyclic hample)

/-- Two hierarchies of the same classes that have scopes for the same ones have the same scopes. -/
theorem Coherent.get?_congr (h : hierarchy.Coherent index) (h' : hierarchy'.Coherent index')
    (hindex : ∀ name, index'.get? name = index.get? name)
    (hnames : ∀ name, name ∈ hierarchy'.names ↔ name ∈ hierarchy.names) (name : QualifiedName) :
    hierarchy'.get? name = hierarchy.get? name := by
  cases hget : hierarchy.get? name with
  | some scope =>
    obtain ⟨hscope, rfl⟩ := get?_eq_some hget
    refine h.get?_eq_of_upward h' (ClassIndex.supertypes_congr hindex) hscope
      fun other hupward => ⟨?_, hindex other⟩
    rw [hnames]
    exact hupward.mem_names (List.mem_map_of_mem hscope)
  | none =>
    cases hget' : hierarchy'.get? name with
    | none => rfl
    | some scope =>
      obtain ⟨other, hother, rfl⟩ :=
        exists_of_mem_names ((hnames name).mp (mem_names_of_get? hget'))
      rw [get?_name h.nodup hother] at hget
      cases hget

/-- Under a limit that is no smaller than the number of classes, a class has a scope exactly if no
cycle can be reached from it. Any other list in which the same class comes first under each name,
such as the same list in another order, gives the same scopes: each class answers for every name
with the same members, with the same roots, and with the same clashes. -/
theorem decidedByCycles (classes : List (QualifiedName × Declaration)) (maxDepth : Nat)
    (hsmall : (ClassIndex.ofList classes).names.length ≤ 500000)
    (hample : (ClassIndex.ofList classes).names.length ≤ maxDepth) :
    (∀ name ∈ classNames classes, name ∈ (ofClasses classes maxDepth).1.names ↔
      ¬ (ClassIndex.ofList classes).Cyclic name) ∧
    ∀ classes' : List (QualifiedName × Declaration),
      (∀ name, classes'.find? (fun entry => entry.2.isClass && entry.1 = name) =
        classes.find? fun entry => entry.2.isClass && entry.1 = name) →
      (∀ name, name ∈ (ofClasses classes' maxDepth).1.names ↔
        name ∈ (ofClasses classes maxDepth).1.names) ∧
      ∀ name, (ofClasses classes' maxDepth).1.get? name =
        (ofClasses classes maxDepth).1.get? name := by
  refine ⟨fun name => mem_names_iff_not_cyclic classes hsmall hample, fun classes' hfirst => ?_⟩
  have hindex : ∀ name, (ClassIndex.ofList classes').get? name =
      (ClassIndex.ofList classes).get? name := by
    intro name
    rw [ClassIndex.get?_ofList, ClassIndex.get?_ofList, hfirst]
  have hknown : ∀ name, name ∈ (ClassIndex.ofList classes').names ↔
      name ∈ (ClassIndex.ofList classes).names := fun _ => ClassIndex.mem_names_congr hindex
  have hlength : (ClassIndex.ofList classes').names.length =
      (ClassIndex.ofList classes).names.length :=
    ((List.perm_ext_iff_of_nodup (ClassIndex.nodup_names_ofList classes')
      (ClassIndex.nodup_names_ofList classes)).mpr hknown).length_eq
  have hnames : ∀ name, name ∈ (ofClasses classes' maxDepth).1.names ↔
      name ∈ (ofClasses classes maxDepth).1.names := by
    intro name
    have hcoherent := coherent_ofClasses classes maxDepth
    have hcoherent' := coherent_ofClasses classes' maxDepth
    by_cases hname : name ∈ (ClassIndex.ofList classes).names
    · rw [mem_names_iff_not_cyclic classes hsmall hample (ClassIndex.mem_names_ofList.mp hname),
        mem_names_iff_not_cyclic classes' (by omega) (by omega)
          (ClassIndex.mem_names_ofList.mp ((hknown name).mpr hname)),
        ClassIndex.cyclic_congr hindex]
    · exact iff_of_false (fun hmem => hname ((hknown name).mp (hcoherent'.mem_index hmem)))
        fun hmem => hname (hcoherent.mem_index hmem)
  exact ⟨hnames, (coherent_ofClasses classes maxDepth).get?_congr
    (coherent_ofClasses classes' maxDepth) hindex hnames⟩

/-! ### A knot of classes -/

/-- A class without members, with its name and those of its supertypes. -/
def bare (name : String) (supertypes : List String) : QualifiedName × Declaration :=
  (⟨name⟩, .class { name := ⟨name⟩, modality := .open } .class
    (supertypes.map fun super => ⟨⟨super⟩, [], false⟩) [])

/-- Two classes that are supertypes of each other, one below them, and two that are apart. A second
class with one of the names does not count. -/
def knot : List (QualifiedName × Declaration) :=
  [bare "Chicken" ["Bird", "Egg"], bare "Egg" ["Chicken"], bare "Nest" ["Egg"],
    bare "Bird" ["Animal"], bare "Animal" [], bare "Bird" ["Nest"]]

/-- The same classes in another order. -/
def knotAgain : List (QualifiedName × Declaration) :=
  [bare "Animal" [], bare "Nest" ["Egg"], bare "Bird" ["Animal"], bare "Bird" ["Nest"],
    bare "Egg" ["Chicken"], bare "Chicken" ["Bird", "Egg"]]

/-- Of the knot only the two classes that are apart have scopes, in either order. -/
theorem decidedByCycles_knot :
    (∀ name ∈ classNames knot, name ∈ (ofClasses knot 5).1.names ↔
      ¬ (ClassIndex.ofList knot).Cyclic name) ∧
    (ofClasses knot 5).1.names = [⟨"Bird"⟩, ⟨"Animal"⟩] ∧
    (ofClasses knotAgain 5).1.names = [⟨"Animal"⟩, ⟨"Bird"⟩] ∧
    ∀ name, (ofClasses knotAgain 5).1.get? name = (ofClasses knot 5).1.get? name := by
  have hfirst : ∀ name, knotAgain.find? (fun entry => entry.2.isClass && entry.1 = name) =
      knot.find? fun entry => entry.2.isClass && entry.1 = name :=
    find?_class_congr (by decide)
  obtain ⟨hiff, halike⟩ := decidedByCycles knot 5 (by decide) (by decide)
  exact ⟨hiff, by decide, by decide, (halike knotAgain hfirst).2⟩

end Hierarchy

end DeclMerge
