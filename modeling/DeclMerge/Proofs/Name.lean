import DeclMerge.Name
import DeclMerge.Proofs.Text.Pieces

/-!
# Steps along paths

A step down adds a segment to a path, and a step up takes away the last dot and what is behind it.
The two undo each other, as long as a segment is added that has some characters and no dot among
them. Going up first and then down again fails in one case only: a path whose first character is its
only dot lies below the root, and no dot is added to the root.

## Main definitions

* `Name.IsSegment` — a name that makes one segment
* `QualifiedName.Continues` — a path that consists of another one and a last segment
* `QualifiedName.StepsUndone` — the laws of steps down and up

## Main results

* `QualifiedName.parent?_and_shortName_iff` — the parent and the last segment of a path
* `QualifiedName.stepsUndone` — steps down and up undo each other, and steps up end at the root
-/

namespace DeclMerge

/-- A name that makes one segment of a path: it has some characters, and no dot among them. -/
structure Name.IsSegment (name : Name) : Prop where
  ne_empty : name.text ≠ ""
  not_mem : '.' ∉ name.text.toList

namespace QualifiedName

variable {p q p' : QualifiedName} {name name' : Name}

/-- The first character is a dot, and it is the only one. -/
def StartsWithOnlyDot (q : QualifiedName) : Prop :=
  ∃ rest, q.text.toList = '.' :: rest ∧ '.' ∉ rest

/-- A path consists of `p` and `name` with a dot between them, and no dot is in `name`. Where `p` is
the root the dot may be missing. -/
def Continues (p : QualifiedName) (name : Name) (q : QualifiedName) : Prop :=
  '.' ∉ name.text.toList ∧
    (q.text.toList = p.text.toList ++ '.' :: name.text.toList ∨
      p = root ∧ q ≠ root ∧ q.text = name.text)

theorem eq_root_iff : q = root ↔ q.text = "" := by
  cases q
  simp [root]

theorem isRoot_iff : q.isRoot = true ↔ q = root := by
  rw [isRoot, String.isEmpty_iff, eq_root_iff]

theorem ne_root_of_toList {c : Char} {before after : List Char}
    (h : q.text.toList = before ++ c :: after) : q ≠ root := by
  rintro rfl
  simp [root] at h

/-! ### One step up -/

theorem parent?_eq_none_iff : q.parent? = none ↔ q = root := by
  rw [← isRoot_iff, parent?]
  split
  · simp [*]
  · split <;> simp [*]

/-- A path is cut at its last dot. -/
theorem parent?_and_shortName_of_cut {before after : List Char}
    (h : Text.cutLast? '.' q.text.toList = some (before, after)) :
    q.parent? = some ⟨.ofList before⟩ ∧ q.shortName = ⟨.ofList after⟩ := by
  have hroot : q ≠ root := ne_root_of_toList (Text.cutLast?_eq_some h).1
  rw [parent?, if_neg (mt isRoot_iff.mp hroot), shortName, h]
  exact ⟨rfl, rfl⟩

/-- A path without dots lies below the root. -/
theorem parent?_and_shortName_of_not_mem (hroot : q ≠ root) (h : '.' ∉ q.text.toList) :
    q.parent? = some root ∧ q.shortName = ⟨q.text⟩ := by
  rw [parent?, if_neg (mt isRoot_iff.mp hroot), shortName, Text.cutLast?_eq_none_iff.mpr h]
  exact ⟨rfl, rfl⟩

/-- The parent of a path and its last segment are what the path consists of. -/
theorem parent?_and_shortName_iff :
    q.parent? = some p ∧ q.shortName = name ↔ Continues p name q := by
  constructor
  · rintro ⟨hparent, rfl⟩
    have hroot : q ≠ root := fun h => by
      rw [parent?_eq_none_iff.mpr h] at hparent
      cases hparent
    cases hcut : Text.cutLast? '.' q.text.toList with
    | none =>
      have hnot := Text.cutLast?_eq_none_iff.mp hcut
      obtain ⟨hp, hname⟩ := parent?_and_shortName_of_not_mem hroot hnot
      obtain rfl := Option.some.inj (hp.symm.trans hparent)
      rw [hname]
      exact ⟨hnot, .inr ⟨rfl, hroot, rfl⟩⟩
    | some parts =>
      obtain ⟨htext, hnot⟩ := Text.cutLast?_eq_some hcut
      obtain ⟨hp, hname⟩ := parent?_and_shortName_of_cut hcut
      obtain rfl := Option.some.inj (hp.symm.trans hparent)
      rw [hname]
      simpa only [Continues, String.toList_ofList] using ⟨hnot, .inl htext⟩
  · rintro ⟨hnot, htext | ⟨rfl, hroot, htext⟩⟩
    · have hcut : Text.cutLast? '.' q.text.toList = some (p.text.toList, name.text.toList) := by
        rw [htext, Text.cutLast?_append hnot]
      simpa only [String.ofList_toList] using parent?_and_shortName_of_cut hcut
    · rw [← htext] at hnot
      obtain ⟨hp, hname⟩ := parent?_and_shortName_of_not_mem hroot hnot
      exact ⟨hp, by rw [hname, htext]⟩

/-! ### One step down -/

theorem child_root (name : Name) : root.child name = ⟨name.text⟩ := rfl

theorem toList_child (h : q ≠ root) (name : Name) :
    (q.child name).text.toList = q.text.toList ++ '.' :: name.text.toList := by
  rw [child, if_neg (mt isRoot_iff.mp h), String.toList_append, String.toList_append,
    List.append_assoc]
  rfl

theorem continues_child (q : QualifiedName) (h : name.IsSegment) :
    Continues q name (q.child name) := by
  by_cases hroot : q = root
  · subst hroot
    exact ⟨h.not_mem, .inr ⟨rfl, mt eq_root_iff.mp h.ne_empty, rfl⟩⟩
  · exact ⟨h.not_mem, .inl (toList_child hroot name)⟩

theorem parent?_child (q : QualifiedName) (h : name.IsSegment) : (q.child name).parent? = some q :=
  (parent?_and_shortName_iff.mpr (continues_child q h)).1

theorem shortName_child (q : QualifiedName) (h : name.IsSegment) : (q.child name).shortName = name :=
  (parent?_and_shortName_iff.mpr (continues_child q h)).2

theorem child_inj (h : name.IsSegment) (h' : name'.IsSegment) :
    p.child name = p'.child name' ↔ p = p' ∧ name = name' := by
  constructor
  · intro heq
    have hparent : some p = some p' := by rw [← parent?_child p h, heq, parent?_child p' h']
    have hname : name = name' := by rw [← shortName_child p h, heq, shortName_child p' h']
    exact ⟨Option.some.inj hparent, hname⟩
  · rintro ⟨rfl, rfl⟩
    rfl

/-- A segment is added at the end. -/
theorem segments_child (q : QualifiedName) (h : name.IsSegment) :
    (q.child name).segments = q.segments ++ [name.text] := by
  have hname : Text.splitOn '.' name.text.toList = [name.text.toList] :=
    Text.splitOn_of_not_mem h.not_mem
  have hne : name.text.toList ≠ [] := mt String.toList_eq_nil_iff.mp h.ne_empty
  by_cases hroot : q = root
  · subst hroot
    have hsegments : root.segments = [] := rfl
    rw [hsegments, child_root, segments, hname]
    simp [hne]
  · rw [segments, segments, toList_child hroot, Text.splitOn_append, hname, List.filter_append,
      List.map_append]
    simp [hne]

/-! ### Up and down again -/

theorem eq_of_toList_eq (h : p.text.toList = q.text.toList) : p = q := by
  cases p
  cases q
  exact congrArg mk (String.toList_inj.mp h)

/-- A path with a dot before its last segment starts with its only dot exactly if it lies below the
root. -/
theorem startsWithOnlyDot_iff (h : q.text.toList = p.text.toList ++ '.' :: name.text.toList)
    (hnot : '.' ∉ name.text.toList) : q.StartsWithOnlyDot ↔ p = root := by
  constructor
  · rintro ⟨rest, htext, hrest⟩
    have hcut : Text.cutLast? '.' q.text.toList = some ([], rest) := by
      rw [htext]
      exact Text.cutLast?_append hrest []
    rw [h, Text.cutLast?_append hnot] at hcut
    have hempty : p.text.toList = [] := congrArg Prod.fst (Option.some.inj hcut)
    exact eq_root_iff.mpr (String.toList_eq_nil_iff.mp hempty)
  · rintro rfl
    exact ⟨name.text.toList, h, hnot⟩

/-- Up and down again leads back, unless the path starts with its only dot. -/
theorem child_shortName_iff (h : q.parent? = some p) :
    p.child q.shortName = q ↔ ¬ q.StartsWithOnlyDot := by
  obtain ⟨hnot, hdot | ⟨rfl, -, hname⟩⟩ := parent?_and_shortName_iff.mp ⟨h, rfl⟩
  · rw [startsWithOnlyDot_iff hdot hnot]
    by_cases hp : p = root
    · -- The dot in front is lost.
      subst hp
      refine iff_of_false (fun heq => ?_) (not_not_intro rfl)
      have hlost : q.shortName.text.toList = q.text.toList := congrArg (fun q => q.text.toList) heq
      apply hnot
      rw [hlost, hdot]
      exact List.mem_append_right _ List.mem_cons_self
    · exact iff_of_true (eq_of_toList_eq ((toList_child hp _).trans hdot.symm)) hp
  · -- There is no dot.
    refine iff_of_true (eq_of_toList_eq (congrArg String.toList hname.symm)) ?_
    rintro ⟨rest, hrest, -⟩
    rw [← hname, hrest] at hnot
    exact hnot List.mem_cons_self

/-! ### To the root -/

theorem utf8ByteSize_lt_of_parent? (h : q.parent? = some p) :
    p.text.utf8ByteSize < q.text.utf8ByteSize := by
  obtain ⟨-, hdot | ⟨rfl, hroot, -⟩⟩ := parent?_and_shortName_iff.mp ⟨h, rfl⟩
  · have htext : q.text = p.text ++ ("." ++ q.shortName.text) := by
      rw [← String.toList_inj, hdot, String.toList_append, String.toList_append]
      rfl
    have hbyte : ".".utf8ByteSize = 1 := rfl
    rw [htext, String.utf8ByteSize_append, String.utf8ByteSize_append, hbyte]
    omega
  · have hne : q.text.utf8ByteSize ≠ 0 :=
      mt String.utf8ByteSize_eq_zero_iff.mp (mt eq_root_iff.mpr hroot)
    exact Nat.pos_of_ne_zero hne

theorem isChain_ancestors (q : QualifiedName) :
    (q :: q.ancestors).IsChain fun q p => q.parent? = some p := by
  fun_induction ancestors q with
  | case1 q h => exact .singleton q
  | case2 q p h ih => exact .cons_cons h ih

theorem getLast?_ancestors (q : QualifiedName) : (q :: q.ancestors).getLast? = some root := by
  fun_induction ancestors q with
  | case1 q h => rw [parent?_eq_none_iff.mp h, List.getLast?_singleton]
  | case2 q p h ih => rw [List.getLast?_cons_cons, ih]

/-! ### The laws -/

/-- Steps down and up undo each other, and steps up end at the root. -/
structure StepsUndone : Prop where
  parent?_child : ∀ (q : QualifiedName) (name : Name), name.IsSegment →
    (q.child name).parent? = some q
  shortName_child : ∀ (q : QualifiedName) (name : Name), name.IsSegment →
    (q.child name).shortName = name
  segments_child : ∀ (q : QualifiedName) (name : Name), name.IsSegment →
    (q.child name).segments = q.segments ++ [name.text]
  /-- Different paths and segments make different paths. -/
  child_inj : ∀ (q q' : QualifiedName) (name name' : Name), name.IsSegment → name'.IsSegment →
    q.child name = q'.child name' → q = q' ∧ name = name'
  /-- Up and down again leads back, unless the path starts with its only dot. -/
  child_shortName_iff : ∀ q p : QualifiedName, q.parent? = some p →
    (p.child q.shortName = q ↔ ¬ q.StartsWithOnlyDot)
  /-- A parent is shorter, in characters and in bytes. -/
  shorter : ∀ q p : QualifiedName, q.parent? = some p →
    p.text.length < q.text.length ∧ p.text.utf8ByteSize < q.text.utf8ByteSize
  /-- Only from the root there is no step up. -/
  parent?_eq_none_iff : ∀ q : QualifiedName, q.parent? = none ↔ q = root
  /-- The steps up from a path lead through its ancestors. -/
  isChain_ancestors : ∀ q : QualifiedName,
    (q :: q.ancestors).IsChain fun q p => q.parent? = some p
  getLast?_ancestors : ∀ q : QualifiedName, (q :: q.ancestors).getLast? = some root

/-- Steps down and up undo each other, whatever the path, and steps up end at the root. -/
theorem stepsUndone : StepsUndone where
  parent?_child q _ h := parent?_child q h
  shortName_child q _ h := shortName_child q h
  segments_child q _ h := segments_child q h
  child_inj _ _ _ _ h h' := (child_inj h h').mp
  child_shortName_iff _ _ := child_shortName_iff
  shorter _ _ h := ⟨length_lt_of_parent? h, utf8ByteSize_lt_of_parent? h⟩
  parent?_eq_none_iff _ := parent?_eq_none_iff
  isChain_ancestors := isChain_ancestors
  getLast?_ancestors := getLast?_ancestors

/-- A segment below a path that begins and ends with a dot, and a path that loses its only dot. -/
theorem stepsUndone_dots :
    (child ⟨".a."⟩ ⟨"b"⟩).parent? = some ⟨".a."⟩ ∧ (child ⟨".a."⟩ ⟨"b"⟩).segments = ["a", "b"] ∧
      root.child (shortName ⟨".a"⟩) ≠ ⟨".a"⟩ := by
  have hsegment : Name.IsSegment ⟨"b"⟩ := ⟨by decide, by decide⟩
  refine ⟨stepsUndone.parent?_child _ _ hsegment, stepsUndone.segments_child _ _ hsegment, ?_⟩
  have hparent : parent? ⟨".a"⟩ = some root := by decide
  exact fun heq => (stepsUndone.child_shortName_iff _ _ hparent).mp heq ⟨['a'], by decide, by decide⟩

end QualifiedName

end DeclMerge
