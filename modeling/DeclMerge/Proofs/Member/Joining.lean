import DeclMerge.Proofs.Member.Roots

/-!
# Joining members with one signature

Candidates with one signature are joined if all of them are compatible. The member they become
stands for all of them, in their order; it looks like the first one, but its visibility and its
modality come from all. Everything that joining can bring about is said here once, for members and
for clashes.

## Main definitions

* `Compatible` — members of one kind that give their names one type
* `sharedVisibility` — the visibility that dominates all, or else the unknown one

## Main results

* `mem_members_joinPart`, `mem_clashes_joinPart` — what becomes of candidates with one signature
* `Resolution.mem_members_of_iff`, `Resolution.mem_clashes_of_iff` — the members and clashes of one
  name, signature by signature
-/

namespace DeclMerge

variable {owner : QualifiedName} {name : Name} {declared fromSupertypes part : List Member}
  {m : Member} {clash : Clash} {signature : Signature}

/-- All members are of one kind and give their names one type. -/
def Compatible (part : List Member) : Prop := ∀ a ∈ part, ∀ b ∈ part, a.compatible b = true

theorem Member.compatible_iff {a b : Member} :
    a.compatible b = true ↔ a.kind = b.kind ∧ a.declaration.type? = b.declaration.type? := by
  rw [Member.compatible, Bool.and_eq_true, decide_eq_true_iff, decide_eq_true_iff]

/-- It is enough to compare all others with the first member. -/
theorem compatible_cons_iff {first : Member} {rest : List Member} :
    Compatible (first :: rest) ↔ rest.all first.compatible = true := by
  rw [List.all_eq_true]
  constructor
  · exact fun h n hn => h first List.mem_cons_self n (List.mem_cons_of_mem first hn)
  · intro h
    have hfirst : ∀ n ∈ first :: rest,
        first.kind = n.kind ∧ first.declaration.type? = n.declaration.type? := by
      intro n hn
      rcases List.mem_cons.mp hn with rfl | hn
      · exact ⟨rfl, rfl⟩
      · exact Member.compatible_iff.mp (h n hn)
    intro a ha b hb
    exact Member.compatible_iff.mpr
      ⟨(hfirst a ha).1.symm.trans (hfirst b hb).1, (hfirst a ha).2.symm.trans (hfirst b hb).2⟩

/-- The visibilities of several members. -/
def visibilities (part : List Member) : List Visibility :=
  part.map fun m => m.declaration.visibility

/-- The visibility that dominates those of all members, or else the unknown one. -/
def sharedVisibility (part : List Member) : Visibility :=
  (Visibility.dominant? (visibilities part)).getD .unknown

/-- The member that stands for `first` and the others with its signature. -/
def joinedMember (owner : QualifiedName) (first : Member) (part : List Member) : Member :=
  .inherited owner ((first.declaration.withVisibility (sharedVisibility part)).withModality
    (inheritedModality part)) part

theorem joinPart_cons (owner : QualifiedName) (name : Name) (first : Member) (rest : List Member) :
    joinPart owner name (first :: rest) =
      if rest.all first.compatible then
        ⟨[joinedMember owner first (first :: rest)],
          if Visibility.dominant? (visibilities (first :: rest)) = none then
            [⟨owner, name, .ambiguousVisibility, first :: rest⟩] else []⟩
      else ⟨[], [⟨owner, name, .incompatibleInherited, first :: rest⟩]⟩ := by
  rw [joinPart, joinSources, joinedMember, sharedVisibility, visibilities]
  congr 1
  cases Visibility.dominant? ((first :: rest).map fun m => m.declaration.visibility) <;> rfl

/-- Compatible candidates become one member, and others none. -/
theorem mem_members_joinPart : m ∈ (joinPart owner name part).members ↔
    ∃ first rest, part = first :: rest ∧ Compatible part ∧ m = joinedMember owner first part := by
  cases part with
  | nil => simp [joinPart]
  | cons first rest =>
    rw [joinPart_cons]
    by_cases hall : rest.all first.compatible = true
    · simp [hall, compatible_cons_iff]
    · simp [hall, compatible_cons_iff]

/-- Candidates that are not compatible clash, and so do compatible ones without a visibility that
dominates all. -/
theorem mem_clashes_joinPart : clash ∈ (joinPart owner name part).clashes ↔
    part ≠ [] ∧
      (clash = ⟨owner, name, .incompatibleInherited, part⟩ ∧ ¬ Compatible part ∨
        clash = ⟨owner, name, .ambiguousVisibility, part⟩ ∧ Compatible part ∧
          Visibility.dominant? (visibilities part) = none) := by
  cases part with
  | nil => simp [joinPart]
  | cons first rest =>
    rw [joinPart_cons]
    by_cases hall : rest.all first.compatible = true
    · by_cases hnone : Visibility.dominant? (visibilities (first :: rest)) = none
      · simp [hall, hnone, compatible_cons_iff]
      · simp [hall, hnone, compatible_cons_iff]
    · simp [hall, compatible_cons_iff]

theorem mem_partOf {members : List Member} :
    m ∈ partOf signature members ↔ m ∈ members ∧ m.signature = signature := by
  rw [partOf, List.mem_filter, decide_eq_true_iff]

/-- A clash with a declared member is that of an inherited member which it hides. -/
theorem mem_hidingClashes {inherited : List Member} :
    clash ∈ hidingClashes owner name declared inherited ↔ ∃ m ∈ inherited, ∃ d kind,
      hiding? declared m = some d ∧ hidingClash? m d = some kind ∧
        clash = ⟨owner, name, kind, [m, d]⟩ := by
  rw [hidingClashes, List.mem_filterMap]
  refine exists_congr fun m => and_congr_right fun _ => ?_
  constructor
  · intro h
    obtain ⟨d, hd, h⟩ := Option.bind_eq_some_iff.mp h
    obtain ⟨kind, hkind, h⟩ := Option.bind_eq_some_iff.mp h
    exact ⟨d, kind, hd, hkind, (Option.some.inj h).symm⟩
  · rintro ⟨d, kind, hd, hkind, rfl⟩
    exact Option.bind_eq_some_iff.mpr ⟨d, hd, Option.bind_eq_some_iff.mpr ⟨kind, hkind, rfl⟩⟩

/-- Clashes with declared members are of two kinds. -/
theorem kind_of_hidingClash? {d : Member} {kind : ClashKind} (h : hidingClash? m d = some kind) :
    kind = .incompatibleOverride ∨ kind = .overridesFinal := by
  rw [hidingClash?] at h
  split at h
  · exact .inl (Option.some.inj h).symm
  · split at h
    · exact .inr (Option.some.inj h).symm
    · cases h

/-- Clashes with declared members come part by part. -/
theorem hidingClashes_flatMap {α : Type} (owner : QualifiedName) (name : Name)
    (declared : List Member) (parts : List α) (f : α → List Member) :
    hidingClashes owner name declared (parts.flatMap f) =
      parts.flatMap fun part => hidingClashes owner name declared (f part) :=
  List.filterMap_flatMap

namespace Resolution

/-- The signature that some candidate has, if anything is found in its part. -/
theorem mem_signatures_of_ne_nil {members : List Member} (h : partOf signature members ≠ []) :
    signature ∈ (members.map Member.signature).eraseDups := by
  obtain ⟨m, hm⟩ := List.exists_mem_of_ne_nil _ h
  obtain ⟨hmem, hsignature⟩ := mem_partOf.mp hm
  exact List.mem_eraseDups.mpr (List.mem_map.mpr ⟨m, hmem, hsignature⟩)

/-- The members of one name are the declared ones and those joined under some signature. -/
theorem mem_members_of_iff : m ∈ (Resolution.of owner name declared fromSupertypes).members ↔
    m ∈ declared ∨ ∃ signature,
      m ∈ (joinPart owner name
        (partOf signature (candidates declared fromSupertypes))).members := by
  rw [members_of, List.mem_append, List.mem_flatMap]
  refine or_congr_right ⟨?_, ?_⟩
  · rintro ⟨signature, -, h⟩
    exact ⟨signature, h⟩
  · rintro ⟨signature, h⟩
    obtain ⟨first, rest, hpart, -⟩ := mem_members_joinPart.mp h
    exact ⟨signature, mem_signatures_of_ne_nil (hpart ▸ List.cons_ne_nil first rest), h⟩

/-- The clashes of one name are those with declared members and those under some signature. -/
theorem mem_clashes_of_iff : clash ∈ (Resolution.of owner name declared fromSupertypes).clashes ↔
    clash ∈ hidingClashes owner name declared (inheritable fromSupertypes) ∨ ∃ signature,
      clash ∈ (joinPart owner name
        (partOf signature (candidates declared fromSupertypes))).clashes := by
  rw [clashes_of, List.mem_append, List.mem_flatMap]
  refine or_congr_right ⟨?_, ?_⟩
  · rintro ⟨signature, -, h⟩
    exact ⟨signature, h⟩
  · rintro ⟨signature, h⟩
    exact ⟨signature, mem_signatures_of_ne_nil (mem_clashes_joinPart.mp h).1, h⟩

end Resolution

end DeclMerge
