import DeclMerge.Hierarchy.Basic
import DeclMerge.Proofs.Association
import DeclMerge.Proofs.FirstAppearance
import Mathlib.Data.List.Induction

/-!
# Classes by name

A class index has the first class of each name, in order of first appearance. During a walk the
status of a class is looked up by its name as well, and changing one status leaves the others.

## Main definitions

* `classNames` — the names that some class of a list carries

## Main results

* `ClassIndex.names_ofList`, `ClassIndex.get?_ofList` — the classes of an index
* `Walk.status_setStatus` — the status of each class after one has been changed
-/

namespace DeclMerge

/-- The names that some class of a list carries, with repetitions. -/
def classNames (declarations : List (QualifiedName × Declaration)) : List QualifiedName :=
  (declarations.filter fun entry => entry.2.isClass).map Prod.fst

namespace ClassIndex

theorem ofList_concat (declarations : List (QualifiedName × Declaration))
    (entry : QualifiedName × Declaration) :
    (ofList (declarations ++ [entry])).classes =
      if entry.2.isClass ∧ entry.1 ∉ (ofList declarations).names then
        (ofList declarations).classes ++ [entry]
      else (ofList declarations).classes := by
  have hany : ((ofList declarations).classes.any fun known => known.1 = entry.1) = false ↔
      entry.1 ∉ (ofList declarations).names := by
    rw [List.any_eq_false, names, List.mem_map]
    constructor
    · rintro h ⟨known, hknown, heq⟩
      exact h known hknown (by simpa using heq)
    · intro h known hknown heq
      exact h ⟨known, hknown, by simpa using heq⟩
  have hstep : (ofList (declarations ++ [entry])).classes =
      if entry.2.isClass && !(ofList declarations).classes.any fun known => known.1 = entry.1 then
        (ofList declarations).classes ++ [entry]
      else (ofList declarations).classes := by
    simp only [ofList, List.foldl_append, List.foldl_cons, List.foldl_nil]
    rfl
  rw [hstep]
  simp only [Bool.and_eq_true, Bool.not_eq_true', hany]

theorem mem_names_iff {index : ClassIndex} {name : QualifiedName} :
    name ∈ index.names ↔ (index.get? name).isSome = true :=
  isSome_lookup_iff.symm

/-- An index has each name of a class once, in order of first appearance. -/
theorem names_ofList (declarations : List (QualifiedName × Declaration)) :
    (ofList declarations).names = (classNames declarations).eraseDups := by
  induction declarations using List.reverseRecOn with
  | nil => rfl
  | append_singleton declarations entry ih =>
    have hnames : classNames (declarations ++ [entry]) =
        classNames declarations ++ if entry.2.isClass then [entry.1] else [] := by
      rw [classNames, List.filter_append, List.map_append]
      cases h : entry.2.isClass <;> simp [classNames, h]
    rw [hnames, names, ofList_concat]
    cases hclass : entry.2.isClass with
    | false => simpa [names] using ih
    | true =>
      rw [if_pos rfl, eraseDups_concat, ← ih]
      have hmem : entry.1 ∈ classNames declarations ↔ entry.1 ∈ (ofList declarations).names := by
        rw [ih, List.mem_eraseDups]
      by_cases hknown : entry.1 ∈ classNames declarations
      · rw [if_neg (fun h => h.2 (hmem.mp hknown)), if_pos hknown]
        rfl
      · rw [if_pos ⟨rfl, fun h => hknown (hmem.mpr h)⟩, if_neg hknown, List.map_append]
        rfl

theorem nodup_names_ofList (declarations : List (QualifiedName × Declaration)) :
    (ofList declarations).names.Nodup :=
  names_ofList declarations ▸ nodup_eraseDups _

theorem mem_names_ofList {declarations : List (QualifiedName × Declaration)}
    {name : QualifiedName} :
    name ∈ (ofList declarations).names ↔ name ∈ classNames declarations := by
  rw [names_ofList, List.mem_eraseDups]

/-- Of several classes with one name the first counts. -/
theorem get?_ofList (declarations : List (QualifiedName × Declaration)) (name : QualifiedName) :
    (ofList declarations).get? name =
      (declarations.find? fun entry => entry.2.isClass && entry.1 = name).map Prod.snd := by
  induction declarations using List.reverseRecOn with
  | nil => rfl
  | append_singleton declarations entry ih =>
    rw [get?, ofList_concat, List.find?_append, Option.map_or, ← ih]
    cases hclass : entry.2.isClass with
    | false => simp [hclass, get?]
    | true =>
      by_cases hname : entry.1 = name
      · subst hname
        by_cases hknown : entry.1 ∈ (ofList declarations).names
        · rw [if_neg (fun h => h.2 hknown)]
          obtain ⟨known, hget⟩ := Option.isSome_iff_exists.mp (mem_names_iff.mp hknown)
          rw [hget]
          exact hget
        · rw [if_pos ⟨rfl, hknown⟩, lookup_concat]
          simp [hclass, get?]
      · have hne : ¬ name = entry.1 := fun h => hname h.symm
        split
        · rw [lookup_concat]
          simp [hclass, hname, hne, get?]
        · simp [hclass, hname, get?]

theorem mem_supertypes {index : ClassIndex} {declaration : Declaration} {name : QualifiedName} :
    name ∈ index.supertypes declaration ↔
      name ∈ declaration.superclassifiers ∧ name ∈ index.names := by
  rw [supertypes, List.mem_filter, mem_names_iff]

end ClassIndex

namespace Walk

/-- The classes that a walk is about. -/
def names (walk : Walk) : List QualifiedName := walk.statuses.map Prod.fst

theorem map_fst_setStatusIn (name : QualifiedName) (status : Status)
    (statuses : List (QualifiedName × Status)) :
    (setStatusIn name status statuses).map Prod.fst = statuses.map Prod.fst := by
  induction statuses with
  | nil => rfl
  | cons entry statuses ih =>
    obtain ⟨n, s⟩ := entry
    rw [setStatusIn]
    split
    · rfl
    · rw [List.map_cons, List.map_cons, ih]

@[simp] theorem names_setStatus (walk : Walk) (name : QualifiedName) (status : Status) :
    (walk.setStatus name status).names = walk.names :=
  map_fst_setStatusIn name status walk.statuses

theorem lookup_setStatusIn (name other : QualifiedName) (status : Status)
    (statuses : List (QualifiedName × Status)) :
    (setStatusIn name status statuses).lookup other =
      if other = name then (statuses.lookup other).map fun _ => status
      else statuses.lookup other := by
  induction statuses with
  | nil => simp [setStatusIn]
  | cons entry statuses ih =>
    obtain ⟨n, s⟩ := entry
    rw [setStatusIn]
    by_cases hn : n = name
    · subst hn
      rw [if_pos rfl, List.lookup_cons, List.lookup_cons]
      by_cases ho : other = n
      · simp [ho]
      · simp [ho, beq_eq_false_iff_ne.mpr ho]
    · rw [if_neg hn, List.lookup_cons, List.lookup_cons, ih]
      by_cases ho : other = n
      · subst ho
        simp [hn]
      · simp [beq_eq_false_iff_ne.mpr ho]

/-- The class that is changed has the new status; the others keep theirs. -/
theorem status_setStatus {walk : Walk} {name : QualifiedName} (h : name ∈ walk.names)
    (status : Status) (other : QualifiedName) :
    (walk.setStatus name status).status other =
      if other = name then status else walk.status other := by
  rw [Walk.status, Walk.status, setStatus, lookup_setStatusIn]
  split
  · rename_i heq
    obtain ⟨s, hs⟩ := Option.isSome_iff_exists.mp (isSome_lookup_iff.mpr (heq ▸ h))
    simp [hs]
  · rfl

end Walk

end DeclMerge
