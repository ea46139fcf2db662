import DeclMerge.Member.Inheritance
import DeclMerge.Proofs.Grouping

/-!
# The members of one name

The inherited members that a class takes over are those of its supertypes that pass down, that no
declared member hides and whose roots have not come before. They are joined by signature, and each
signature has one member at most. Collapsing members with the same roots loses none of the roots,
so a root that comes from a supertype is a root of the joined member of its signature, unless the
members with that signature cannot be joined.

## Main definitions

* `candidates` — the inherited members that are left to be joined
* `joinPart` — what becomes of the candidates with one signature
* `joinedMembers` — the members that come out of all candidates

## Main results

* `exists_mem_distinctRoots` — every set of roots keeps a member
* `Resolution.filter_members_of` — the members with a signature that is not declared
* `Resolution.mem_members_of` — every member is declared or joined from candidates
* `Resolution.exists_inherited` — a root that comes from a supertype is not lost
-/

namespace DeclMerge

variable {owner : QualifiedName} {name : Name} {declared fromSupertypes members : List Member}
  {m first : Member} {rest : List Member} {id : MemberId} {signature : Signature}

theorem mem_rootsList : id ∈ Member.rootsList members ↔ ∃ m ∈ members, id ∈ m.roots := by
  induction members with
  | nil => simp [Member.rootsList]
  | cons first rest ih => rw [Member.rootsList, List.mem_append, ih, List.exists_mem_cons_iff]

/-- The roots of an inherited member are those of its sources. -/
theorem mem_roots_inherited {declaration : Declaration} :
    id ∈ (Member.inherited owner declaration members).roots ↔ ∃ m ∈ members, id ∈ m.roots := by
  rw [Member.roots, List.mem_eraseDups, mem_rootsList]

theorem distinctRoots_sublist (members : List Member) :
    (distinctRoots members).Sublist members := by
  induction members with
  | nil => exact .refl []
  | cons first rest ih =>
    rw [distinctRoots]
    exact (List.filter_sublist.trans ih).cons_cons first

/-- The members that are kept have different roots. -/
theorem pairwise_distinctRoots (members : List Member) :
    (distinctRoots members).Pairwise fun m n => m.sameRoots n = false := by
  induction members with
  | nil => exact .nil
  | cons first rest ih =>
    -- What comes after the first member has been filtered for other roots.
    rw [distinctRoots]
    refine List.pairwise_cons.mpr ⟨fun n hn => ?_, ih.filter _⟩
    simpa using (List.mem_filter.mp hn).2

/-- Of the members with one set of roots the first is kept. -/
theorem exists_mem_distinctRoots (h : m ∈ members) :
    ∃ n ∈ distinctRoots members, ∀ id, id ∈ n.roots ↔ id ∈ m.roots := by
  induction members with
  | nil => cases h
  | cons first rest ih =>
    rw [distinctRoots]
    rcases List.mem_cons.mp h with rfl | hm
    · exact ⟨_, List.mem_cons_self, fun _ => Iff.rfl⟩
    · obtain ⟨n, hn, hroots⟩ := ih hm
      -- The member that was kept of the rest may itself be dropped for the first one.
      by_cases hsame : first.sameRoots n = true
      · have hfirst := Member.sameRoots_iff.mp hsame
        exact ⟨first, List.mem_cons_self, fun id => (hfirst id).trans (hroots id)⟩
      · refine ⟨n, List.mem_cons_of_mem _ (List.mem_filter.mpr ⟨hn, ?_⟩), hroots⟩
        simpa using hsame

/-- The inherited members that are left to be joined. -/
def candidates (declared fromSupertypes : List Member) : List Member :=
  distinctRoots (notHidden declared (inheritable fromSupertypes))

theorem hiding?_isNone_iff :
    (hiding? declared m).isNone = true ↔ ∀ d ∈ declared, d.signature ≠ m.signature := by
  simp [hiding?, Option.isNone_iff_eq_none]

/-- A candidate comes from a supertype, passes down and is hidden by nothing. -/
theorem of_mem_candidates (h : m ∈ candidates declared fromSupertypes) :
    m ∈ fromSupertypes ∧ m.declaration.visibility.passesDown = true ∧
      ∀ d ∈ declared, d.signature ≠ m.signature := by
  have hnotHidden := List.mem_filter.mp ((distinctRoots_sublist _).subset h)
  have hinheritable := List.mem_filter.mp hnotHidden.1
  exact ⟨hinheritable.1, hinheritable.2, hiding?_isNone_iff.mp hnotHidden.2⟩

/-- A member of a supertype that passes down and is not hidden has its roots among the
candidates. -/
theorem exists_candidate (h : m ∈ fromSupertypes)
    (hpasses : m.declaration.visibility.passesDown = true)
    (hundeclared : ∀ d ∈ declared, d.signature ≠ m.signature) :
    ∃ n ∈ candidates declared fromSupertypes, ∀ id, id ∈ n.roots ↔ id ∈ m.roots :=
  exists_mem_distinctRoots (List.mem_filter.mpr
    ⟨List.mem_filter.mpr ⟨h, hpasses⟩, hiding?_isNone_iff.mpr hundeclared⟩)

/-- What becomes of the candidates with one signature. -/
def joinPart (owner : QualifiedName) (name : Name) : List Member → Resolution
  | [] => ⟨[], []⟩
  | first :: rest => joinSources owner name first rest

/-- Sources of one signature clash, or they become one member with a visibility of one of them or
an unknown one. -/
theorem joinSources_cases (owner : QualifiedName) (name : Name) (first : Member)
    (rest : List Member) :
    joinSources owner name first rest =
      ⟨[], [⟨owner, name, .incompatibleInherited, first :: rest⟩]⟩ ∨
    ∃ visibility clashes, joinSources owner name first rest =
        ⟨[.inherited owner ((first.declaration.withVisibility visibility).withModality
          (inheritedModality (first :: rest))) (first :: rest)], clashes⟩ ∧
      (visibility = .unknown ∨
        ∃ source ∈ first :: rest, source.declaration.visibility = visibility) := by
  unfold joinSources
  by_cases hall : rest.all first.compatible = true
  · rw [if_pos hall]
    right
    cases hdominant : Visibility.dominant?
        ((first :: rest).map fun m => m.declaration.visibility) with
    | none => exact ⟨.unknown, _, rfl, .inl rfl⟩
    | some visibility =>
      have hmem := (Visibility.dominant?_eq_some hdominant).1
      exact ⟨visibility, _, rfl, .inr (List.mem_map.mp hmem)⟩
  · rw [if_neg hall]
    exact .inl rfl

@[simp] theorem signature_withModality_withVisibility (d : Declaration) (visibility : Visibility)
    (modality : Modality) :
    Signature.of ((d.withVisibility visibility).withModality modality) = Signature.of d := by
  cases d <;> rfl

@[simp] theorem visibility_withModality_withVisibility (d : Declaration) (visibility : Visibility)
    (modality : Modality) :
    ((d.withVisibility visibility).withModality modality).visibility = visibility := by
  cases d <;> rfl

/-- A joined member stands for its sources: it has their signature and their roots. -/
theorem of_mem_members_joinPart {part : List Member} (h : m ∈ (joinPart owner name part).members) :
    m.isInherited = true ∧ m.owner = owner ∧ (∃ source ∈ part, m.signature = source.signature) ∧
      (∀ id, id ∈ m.roots ↔ ∃ source ∈ part, id ∈ source.roots) ∧
      (m.declaration.visibility = .unknown ∨
        ∃ source ∈ part, source.declaration.visibility = m.declaration.visibility) := by
  cases part with
  | nil => cases h
  | cons first rest =>
    rw [joinPart] at h
    rcases joinSources_cases owner name first rest with heq | ⟨visibility, clashes, heq, hvisible⟩
    · rw [heq] at h
      cases h
    · rw [heq] at h
      obtain rfl := List.mem_singleton.mp h
      refine ⟨rfl, rfl, ⟨first, List.mem_cons_self, ?_⟩, fun id => mem_roots_inherited, ?_⟩
      · exact signature_withModality_withVisibility ..
      · rwa [Member.declaration, visibility_withModality_withVisibility]

/-- A part without a clash of incompatible members becomes one member. -/
theorem exists_members_joinPart {part : List Member} (hne : part ≠ [])
    (hclash : ∀ clash ∈ (joinPart owner name part).clashes,
      clash.kind = .incompatibleInherited → clash.members ≠ part) :
    ∃ m, (joinPart owner name part).members = [m] := by
  cases part with
  | nil => exact absurd rfl hne
  | cons first rest =>
    rw [joinPart] at hclash ⊢
    rcases joinSources_cases owner name first rest with heq | ⟨visibility, clashes, heq, -⟩
    · rw [heq] at hclash
      exact absurd rfl (hclash _ (List.mem_singleton_self _) rfl)
    · exact ⟨_, by rw [heq]⟩

/-- The part of the candidates that has a signature. -/
def partOf (signature : Signature) (members : List Member) : List Member :=
  members.filter fun m => m.signature = signature

theorem joinGroups_groups (owner : QualifiedName) (name : Name) (members : List Member) :
    joinGroups owner name (Grouping.ofList Member.signature members).groups =
      ((members.map Member.signature).eraseDups.map fun signature =>
        joinPart owner name (partOf signature members)) := by
  rw [joinGroups, Grouping.groups_ofList, List.filterMap_map]
  refine (List.filterMap_congr fun signature hsignature => ?_).trans
    (congrFun (List.filterMap_eq_map (f := fun signature =>
      joinPart owner name (partOf signature members))) _)
  obtain ⟨m, hm, rfl⟩ := List.mem_map.mp (List.mem_eraseDups.mp hsignature)
  have hpart : m ∈ partOf m.signature members := List.mem_filter.mpr ⟨hm, by simp⟩
  change (match partOf m.signature members with
    | [] => none
    | first :: rest => some (joinSources owner name first rest)) =
      some (joinPart owner name (partOf m.signature members))
  cases hcases : partOf m.signature members with
  | nil => rw [hcases] at hpart; cases hpart
  | cons first rest => rfl

/-- Of lists with one key each, a condition that picks out a key picks out the list of that key. -/
theorem filter_flatMap_of_iff {κ α : Type} [DecidableEq κ] {f : κ → List α} {p : α → Bool}
    {key : κ} (hp : ∀ other, ∀ value ∈ f other, p value = true ↔ other = key) {keys : List κ}
    (hnodup : keys.Nodup) : (keys.flatMap f).filter p = if key ∈ keys then f key else [] := by
  induction keys with
  | nil => rfl
  | cons first keys ih =>
    obtain ⟨hnew, hrest⟩ := List.nodup_cons.mp hnodup
    rw [List.flatMap_cons, List.filter_append, ih hrest]
    by_cases hkey : first = key
    · subst hkey
      rw [if_neg hnew, if_pos List.mem_cons_self, List.append_nil]
      exact List.filter_eq_self.mpr fun value hvalue => (hp first value hvalue).mpr rfl
    · have hnone : (f first).filter p = [] := by
        rw [List.filter_eq_nil_iff]
        exact fun value hvalue hpicked => hkey ((hp first value hvalue).mp hpicked)
      have hne : ¬ key = first := fun h => hkey h.symm
      rw [hnone, List.nil_append]
      simp only [List.mem_cons, hne, false_or]

/-- Of lists with one key each, only the list of a key has values with that key. -/
theorem filter_flatMap_of_nodup {κ α : Type} [DecidableEq κ] {keyOf : α → κ} {f : κ → List α}
    (hf : ∀ key, ∀ value ∈ f key, keyOf value = key) {keys : List κ} (hnodup : keys.Nodup)
    (key : κ) : (keys.flatMap f).filter (fun value => keyOf value = key) =
      if key ∈ keys then f key else [] := by
  refine filter_flatMap_of_iff (fun other value hvalue => ?_) hnodup
  rw [decide_eq_true_iff, hf other value hvalue]

theorem signature_of_mem_joinPart
    (h : m ∈ (joinPart owner name (partOf signature members)).members) :
    m.signature = signature := by
  obtain ⟨-, -, ⟨source, hsource, heq⟩, -⟩ := of_mem_members_joinPart h
  rw [heq]
  simpa using (List.mem_filter.mp hsource).2

/-- The members joined from candidates, signature by signature. -/
def joinedMembers (owner : QualifiedName) (name : Name) (members : List Member) : List Member :=
  (members.map Member.signature).eraseDups.flatMap fun signature =>
    (joinPart owner name (partOf signature members)).members

/-- Nothing is joined under a signature but the candidates that have it. -/
theorem partOf_joinedMembers (owner : QualifiedName) (name : Name) (members : List Member)
    (signature : Signature) : partOf signature (joinedMembers owner name members) =
      (joinPart owner name (partOf signature members)).members := by
  rw [joinedMembers, partOf,
    filter_flatMap_of_nodup (fun _ _ h => signature_of_mem_joinPart h) (nodup_eraseDups _)]
  split
  · rfl
  · rename_i hnone
    have hempty : partOf signature members = [] := by
      rw [partOf, List.filter_eq_nil_iff]
      intro m hm heq
      apply hnone
      rw [List.mem_eraseDups, List.mem_map]
      exact ⟨m, hm, by simpa using heq⟩
    rw [hempty]
    rfl

namespace Resolution

theorem members_of (owner : QualifiedName) (name : Name) (declared fromSupertypes : List Member) :
    (Resolution.of owner name declared fromSupertypes).members =
      declared ++ ((candidates declared fromSupertypes).map Member.signature).eraseDups.flatMap
        fun signature =>
          (joinPart owner name
            (partOf signature (candidates declared fromSupertypes))).members := by
  rw [candidates, Resolution.of, joinGroups_groups, List.flatMap_map]

theorem clashes_of (owner : QualifiedName) (name : Name) (declared fromSupertypes : List Member) :
    (Resolution.of owner name declared fromSupertypes).clashes =
      hidingClashes owner name declared (inheritable fromSupertypes) ++
        ((candidates declared fromSupertypes).map Member.signature).eraseDups.flatMap
          fun signature =>
            (joinPart owner name
              (partOf signature (candidates declared fromSupertypes))).clashes := by
  rw [candidates, Resolution.of, joinGroups_groups]
  simp only [List.flatMap_map]

/-- Every member is declared or joined from the candidates with its signature. -/
theorem mem_members_of : m ∈ (Resolution.of owner name declared fromSupertypes).members →
    m ∈ declared ∨
      m ∈ (joinPart owner name
        (partOf m.signature (candidates declared fromSupertypes))).members := by
  intro h
  rw [members_of, List.mem_append, List.mem_flatMap] at h
  rcases h with hdeclared | ⟨signature, -, hjoined⟩
  · exact .inl hdeclared
  · exact .inr (signature_of_mem_joinPart hjoined ▸ hjoined)

/-- The members with a signature that is not declared are joined from its candidates. -/
theorem filter_members_of (hundeclared : ∀ d ∈ declared, d.signature ≠ signature) :
    partOf signature (Resolution.of owner name declared fromSupertypes).members =
      (joinPart owner name (partOf signature (candidates declared fromSupertypes))).members := by
  have hdeclared : partOf signature declared = [] := by
    rw [partOf, List.filter_eq_nil_iff]
    exact fun d hd => by simpa using hundeclared d hd
  rw [members_of, partOf, List.filter_append]
  change partOf signature declared ++ partOf signature (joinedMembers owner name _) = _
  rw [hdeclared, List.nil_append, partOf_joinedMembers]

theorem mem_clashes_of {clash : Clash} (hclash : clash ∈
    (joinPart owner name (partOf signature (candidates declared fromSupertypes))).clashes) :
    clash ∈ (Resolution.of owner name declared fromSupertypes).clashes := by
  have hne : partOf signature (candidates declared fromSupertypes) ≠ [] := by
    intro hempty
    rw [hempty] at hclash
    cases hclash
  obtain ⟨m, hm⟩ := List.exists_mem_of_ne_nil _ hne
  obtain ⟨hcandidate, hsignature⟩ := List.mem_filter.mp hm
  rw [clashes_of]
  refine List.mem_append_right _ (List.mem_flatMap.mpr ⟨signature, ?_, hclash⟩)
  rw [List.mem_eraseDups, List.mem_map]
  exact ⟨m, hcandidate, by simpa using hsignature⟩

/-- A root that comes from a supertype is a root of the one member with its signature. -/
theorem exists_inherited (hundeclared : ∀ d ∈ declared, d.signature ≠ m.signature)
    (hclash : ∀ clash ∈ (Resolution.of owner name declared fromSupertypes).clashes,
      clash.kind = .incompatibleInherited → ∀ n ∈ clash.members, n.signature ≠ m.signature)
    (hroots : ∀ n ∈ fromSupertypes, id ∈ n.roots → n.signature = m.signature)
    (hm : m ∈ fromSupertypes) (hpasses : m.declaration.visibility.passesDown = true)
    (hid : id ∈ m.roots) :
    ∃ n, partOf m.signature (Resolution.of owner name declared fromSupertypes).members = [n] ∧
      n.isInherited = true ∧ id ∈ n.roots ∧ n.declaration.visibility.passesDown = true := by
  -- Another member may stand for `m`, but it shares the root and so has the signature of `m`.
  obtain ⟨source, hsource, hsame⟩ := exists_candidate hm hpasses hundeclared
  have hsignature := hroots source (of_mem_candidates hsource).1 ((hsame id).mpr hid)
  have hpart : source ∈ partOf m.signature (candidates declared fromSupertypes) :=
    List.mem_filter.mpr ⟨hsource, by simpa using hsignature⟩
  obtain ⟨n, hn⟩ : ∃ n, (joinPart owner name
      (partOf m.signature (candidates declared fromSupertypes))).members = [n] := by
    refine exists_members_joinPart (List.ne_nil_of_mem hpart) fun clash hmem hkind heq => ?_
    exact hclash clash (mem_clashes_of hmem) hkind source (heq ▸ hpart) hsignature
  obtain ⟨hinherited, -, -, hrootsOf, hvisible⟩ :=
    of_mem_members_joinPart (hn ▸ List.mem_singleton_self n)
  refine ⟨n, (filter_members_of hundeclared).trans hn, hinherited, ?_, ?_⟩
  · exact (hrootsOf id).mpr ⟨source, hpart, (hsame id).mpr hid⟩
  · rcases hvisible with hunknown | ⟨other, hother, heq⟩
    · rw [hunknown]
      rfl
    · rw [← heq]
      exact (of_mem_candidates (List.mem_filter.mp hother).1).2.1

end Resolution

end DeclMerge
