import DeclMerge.Proofs.Member.Reordering

/-!
# Where members of supertypes are found again

A class takes over what its supertypes have under a name: each signature that it does not declare
itself has one joined member, or one clash in which all members with it are left out. A member of a
supertype is found again in one of these places only, among the sources of the member or in the
clash, by itself or by another one with the same roots. Members with the same roots are collapsed
before signatures are looked at, and no signature is lost by that: a declared member has one
declaration, so members that earlier resolutions have brought down from it have its signature.

## Main definitions

* `Member.Resolved` — declared members, and those inherited by earlier resolutions
* `Resolution.dropped` — the clashes in which members of supertypes are left out
* `Placed` — a member of a supertype that is found again in one place, once
* `PlacesOnce` — what becomes of all members of supertypes

## Main results

* `countP_sameRoots_distinctRoots` — of the members with one set of roots exactly one is kept
* `listed_perm` — no candidate is lost, and none is listed twice
* `Resolution.placesOnce` — every inherited member is placed exactly once
-/

namespace DeclMerge

variable {store : MemberId → Option Declaration} {owner : QualifiedName} {name : Name}
  {declared above members part : List Member} {m n : Member} {signature : Signature}

/-! ### Members of earlier resolutions -/

namespace Member

/-- A member as it can come from a supertype: declared, with the one declaration that its identity
has, or inherited as the outcome of an earlier resolution of such members. -/
inductive Resolved (store : MemberId → Option Declaration) : Member → Prop where
  | declared {owner : QualifiedName} {place : Nat} {d : Declaration}
      (stored : store ⟨owner, place⟩ = some d) : Resolved store (.declared owner place d)
  | inherited {owner : QualifiedName} {name : Name} {declared above : List Member} {m : Member}
      (declares : ∀ d ∈ declared, d.isInherited = false)
      (resolved : ∀ source ∈ above, Resolved store source)
      (mem : m ∈ (Resolution.of owner name declared above).members)
      (isInherited : m.isInherited = true) : Resolved store m

/-- Earlier resolutions keep what members have from their roots. -/
theorem Resolved.stemsFrom (h : m.Resolved store) : m.StemsFrom store := by
  induction h with
  | declared stored => exact stemsFrom_declared stored
  | inherited declares _ mem isInherited ih =>
    rcases Resolution.mem_members_of_iff.mp mem with hdeclared | ⟨signature, hjoined⟩
    · rw [declares _ hdeclared] at isInherited
      cases isInherited
    · refine stemsFrom_of_mem_joinPart hjoined fun source hsource => ?_
      exact ih source (of_mem_candidates (mem_partOf.mp hsource).1).1

/-- Members with the same roots have one signature. -/
theorem Resolved.signature_eq (hm : m.Resolved store) (hn : n.Resolved store)
    (hroots : m.sameRoots n = true) : m.signature = n.signature :=
  (hm.stemsFrom.alike hn.stemsFrom (sameRoots_iff.mp hroots)).signature_eq

theorem sameRoots_self (m : Member) : m.sameRoots m = true :=
  sameRoots_iff.mpr fun _ => Iff.rfl

theorem sameRoots_comm (m n : Member) : m.sameRoots n = n.sameRoots m := by
  rw [Bool.eq_iff_iff, sameRoots_iff, sameRoots_iff]
  simp only [iff_comm]

/-- Members with the same roots are told from others alike. -/
theorem sameRoots_congr (h : m.sameRoots n = true) (other : Member) :
    m.sameRoots other = n.sameRoots other := by
  have hroots := sameRoots_iff.mp h
  rw [Bool.eq_iff_iff, sameRoots_iff, sameRoots_iff]
  simp only [hroots]

end Member

/-- Of the members with one set of roots exactly one is kept. -/
theorem countP_sameRoots_distinctRoots (h : m ∈ members) :
    (distinctRoots members).countP m.sameRoots = 1 := by
  induction members with
  | nil => cases h
  | cons first rest ih =>
    rw [distinctRoots, List.countP_cons, List.countP_filter]
    by_cases hsame : m.sameRoots first = true
    · -- The first member is kept, and all others with its roots have been filtered out.
      have hnone : (distinctRoots rest).countP
          (fun n => m.sameRoots n && !first.sameRoots n) = 0 := by
        simp [Member.sameRoots_congr hsame]
      rw [hnone, if_pos hsame]
    · -- The first member has other roots, so nothing that counts has been filtered out for it.
      have hmem : m ∈ rest := by
        refine (List.mem_cons.mp h).resolve_left ?_
        rintro rfl
        exact hsame m.sameRoots_self
      have hkept : (distinctRoots rest).countP (fun n => m.sameRoots n && !first.sameRoots n) =
          (distinctRoots rest).countP m.sameRoots := by
        refine List.countP_congr fun n _ => ?_
        rw [Bool.and_eq_true, and_iff_left_iff_imp]
        intro hroots
        rw [Member.sameRoots_comm, ← Member.sameRoots_congr hroots]
        simpa using hsame
      rw [hkept, ih hmem, if_neg hsame]

/-! ### Places -/

/-- The clashes in which members of supertypes are left out. -/
def Resolution.dropped (resolution : Resolution) : List Clash :=
  resolution.clashes.filter fun clash => clash.kind = .incompatibleInherited

/-- All candidates with a signature go the same way: they become the sources of one member, or they
are left out in one clash. -/
theorem joinPart_cases (owner : QualifiedName) (name : Name) (hne : part ≠ []) :
    (∃ n, n.sources = part ∧ n.isInherited = true ∧ n.owner = owner ∧
      (joinPart owner name part).members = [n] ∧ (joinPart owner name part).dropped = []) ∨
    (joinPart owner name part).members = [] ∧
      (joinPart owner name part).dropped = [⟨owner, name, .incompatibleInherited, part⟩] := by
  obtain ⟨first, rest, rfl⟩ := List.exists_cons_of_ne_nil hne
  rw [joinPart_cons]
  by_cases hall : rest.all first.compatible = true
  · rw [if_pos hall]
    refine .inl ⟨joinedMember owner first (first :: rest), rfl, rfl, rfl, rfl, ?_⟩
    -- What may clash beside the member is its visibility.
    rw [Resolution.dropped]
    split <;> rfl
  · rw [if_neg hall]
    exact .inr ⟨rfl, rfl⟩

/-- The clashes in which candidates are left out, signature by signature. -/
def droppedClashes (owner : QualifiedName) (name : Name) (members : List Member) : List Clash :=
  (members.map Member.signature).eraseDups.flatMap fun signature =>
    (joinPart owner name (partOf signature members)).dropped

/-- No declared member is left out in a clash. -/
theorem dropped_of (owner : QualifiedName) (name : Name) (declared above : List Member) :
    (Resolution.of owner name declared above).dropped =
      droppedClashes owner name (candidates declared above) := by
  have hhiding : (hidingClashes owner name declared (inheritable above)).filter
      (fun clash => clash.kind = .incompatibleInherited) = [] := by
    refine List.filter_eq_nil_iff.mpr fun clash hclash => ?_
    obtain ⟨m, -, current, kind, -, hkind, rfl⟩ := mem_hidingClashes.mp hclash
    rcases kind_of_hidingClash? hkind with rfl | rfl <;> simp
  rw [Resolution.dropped, Resolution.clashes_of, List.filter_append, hhiding, List.nil_append,
    List.filter_flatMap]
  rfl

/-- What candidates are listed under, as sources or in clashes: nothing is lost, and nothing comes
twice. -/
theorem listed_perm (owner : QualifiedName) (name : Name) (members : List Member) :
    ((joinedMembers owner name members).flatMap Member.sources ++
      (droppedClashes owner name members).flatMap Clash.members).Perm members := by
  have hpart : ∀ signature ∈ (members.map Member.signature).eraseDups,
      (joinPart owner name (partOf signature members)).members.flatMap Member.sources ++
        (joinPart owner name (partOf signature members)).dropped.flatMap Clash.members =
      partOf signature members := by
    intro signature _
    by_cases hne : partOf signature members = []
    · rw [hne]
      rfl
    · rcases joinPart_cases owner name hne with
        ⟨n, hsources, -, -, hmembers, hdropped⟩ | ⟨hmembers, hdropped⟩
      · simp [hmembers, hdropped, hsources]
      · simp [hmembers, hdropped]
  rw [joinedMembers, droppedClashes, List.flatMap_assoc, List.flatMap_assoc]
  refine (List.flatMap_append_perm _ _ _).trans ?_
  rw [List.flatMap_congr hpart]
  have hparts := Grouping.flatten_parts_perm Member.signature members
  rwa [Grouping.parts_eq, ← List.flatMap_def] at hparts

instance (clash : Clash) (signature : Signature) : Decidable (clash.Concerns signature) :=
  inferInstanceAs (Decidable (∃ m ∈ clash.members, m.signature = signature))

/-- No clash is about a signature but that of the candidates that have it. -/
theorem filter_droppedClashes (owner : QualifiedName) (name : Name) (members : List Member)
    (signature : Signature) :
    (droppedClashes owner name members).filter (·.Concerns signature) =
      (joinPart owner name (partOf signature members)).dropped := by
  have hconcerns : ∀ other,
      ∀ clash ∈ (joinPart owner name (partOf other members)).dropped,
        decide (clash.Concerns signature) = true ↔ other = signature := by
    intro other clash hclash
    rw [decide_eq_true_iff]
    exact concerns_iff_of_mem_joinPart (List.mem_filter.mp hclash).1
  rw [droppedClashes, filter_flatMap_of_iff hconcerns (nodup_eraseDups _)]
  split
  · rfl
  · rename_i hnone
    have hempty : partOf signature members = [] :=
      by_contra fun hne => hnone (Resolution.mem_signatures_of_ne_nil hne)
    rw [hempty]
    rfl

/-- No two joined members have one signature. -/
theorem nodup_signatures_joinedMembers (owner : QualifiedName) (name : Name)
    (members : List Member) : ((joinedMembers owner name members).map Member.signature).Nodup := by
  refine List.nodup_iff_count_le_one.mpr fun signature => ?_
  have hcount : ((joinedMembers owner name members).map Member.signature).count signature =
      (joinPart owner name (partOf signature members)).members.length := by
    rw [← partOf_joinedMembers, partOf, ← List.countP_eq_length_filter, List.count, List.countP_map]
    rfl
  rw [hcount]
  by_cases hne : partOf signature members = []
  · simp [hne, joinPart]
  · rcases joinPart_cases owner name hne with ⟨n, -, -, -, hmembers, -⟩ | ⟨hmembers, -⟩
    · simp [hmembers]
    · simp [hmembers]

/-- A member of a supertype that is found again in one place, once: among the sources of the joined
member with its signature, or in the clash about it, and nowhere else. -/
structure Placed (joined : List Member) (dropped : List Clash) (m : Member) : Prop where
  under : (∃ n, partOf m.signature joined = [n] ∧
      dropped.filter (·.Concerns m.signature) = [] ∧ n.sources.countP m.sameRoots = 1) ∨
    ∃ clash, partOf m.signature joined = [] ∧
      dropped.filter (·.Concerns m.signature) = [clash] ∧ clash.members.countP m.sameRoots = 1
  once : (joined.flatMap Member.sources ++ dropped.flatMap Clash.members).countP m.sameRoots = 1

/-- What becomes of all members of supertypes: what is joined, and in which clashes members are left
out. -/
structure PlacesOnce (owner : QualifiedName) (declared above joined : List Member)
    (dropped : List Clash) : Prop where
  inherited : ∀ n ∈ joined, n.isInherited = true ∧ n.owner = owner
  nodup : (joined.map Member.signature).Nodup
  undeclared : ∀ n ∈ joined, ∀ d ∈ declared, d.signature ≠ n.signature
  /-- A joined member has the signature of its sources. -/
  joined_signature : ∀ n ∈ joined, ∀ source ∈ n.sources, source.signature = n.signature
  /-- All members in a clash have one signature. -/
  dropped_signature : ∀ clash ∈ dropped, ∀ m ∈ clash.members, ∀ n ∈ clash.members,
    m.signature = n.signature
  placed : ∀ m ∈ above, m.declaration.visibility ≠ .private → m.declaration.visibility ≠ .local →
    (∀ d ∈ declared, d.signature ≠ m.signature) → Placed joined dropped m
  /-- Nothing is listed but members of supertypes that pass down and that are not declared. -/
  listed : ∀ n ∈ joined.flatMap Member.sources ++ dropped.flatMap Clash.members,
    n ∈ above ∧ n.declaration.visibility ≠ .private ∧ n.declaration.visibility ≠ .local ∧
      ∀ d ∈ declared, d.signature ≠ n.signature

/-- A member of a supertype that passes down and is not declared is placed once. -/
theorem placed_candidates (habove : ∀ m ∈ above, m.Resolved store) (hm : m ∈ above)
    (hpasses : m.declaration.visibility.passesDown = true)
    (hundeclared : ∀ d ∈ declared, d.signature ≠ m.signature) :
    Placed (joinedMembers owner name (candidates declared above))
      (droppedClashes owner name (candidates declared above)) m := by
  have honce : (candidates declared above).countP m.sameRoots = 1 :=
    countP_sameRoots_distinctRoots (List.mem_filter.mpr
      ⟨List.mem_filter.mpr ⟨hm, hpasses⟩, hiding?_isNone_iff.mpr hundeclared⟩)
  -- What has the roots of `m` has its signature, so all of it is in one part.
  have hpart : (partOf m.signature (candidates declared above)).countP m.sameRoots = 1 := by
    rw [partOf, List.countP_filter, ← honce]
    refine List.countP_congr fun n hn => ?_
    rw [Bool.and_eq_true, decide_eq_true_iff, and_iff_left_iff_imp]
    intro hroots
    exact ((habove m hm).signature_eq (habove n (of_mem_candidates hn).1) hroots).symm
  have hne : partOf m.signature (candidates declared above) ≠ [] := by
    intro hempty
    rw [hempty] at hpart
    cases hpart
  refine ⟨?_, ((listed_perm owner name _).countP_eq _).trans honce⟩
  rw [partOf_joinedMembers, filter_droppedClashes]
  rcases joinPart_cases owner name hne with
    ⟨n, hsources, -, -, hmembers, hdropped⟩ | ⟨hmembers, hdropped⟩
  · refine .inl ⟨n, hmembers, hdropped, ?_⟩
    rw [hsources, hpart]
  · exact .inr ⟨_, hmembers, hdropped, hpart⟩

theorem mem_joinedMembers (h : n ∈ joinedMembers owner name members) :
    n.isInherited = true ∧ n.owner = owner ∧
      n.sources = partOf n.signature members ∧ n.sources ≠ [] := by
  obtain ⟨signature, -, hjoined⟩ := List.mem_flatMap.mp h
  have hsignature := signature_of_mem_joinPart hjoined
  obtain ⟨first, rest, hpart, -, rfl⟩ := mem_members_joinPart.mp hjoined
  rw [hsignature]
  exact ⟨rfl, rfl, rfl, fun hempty => List.cons_ne_nil first rest (hpart.symm.trans hempty)⟩

/-- Every inherited member is placed exactly once: after the declared members, which stay as they
are, stand joined members with signatures of their own, and each member of a supertype that passes
down and is not declared is found again under the one with its signature or in the clash about
it. -/
theorem Resolution.placesOnce (owner : QualifiedName) (name : Name) (declared : List Member)
    (habove : ∀ m ∈ above, m.Resolved store) :
    ∃ joined, (Resolution.of owner name declared above).members = declared ++ joined ∧
      PlacesOnce owner declared above joined (Resolution.of owner name declared above).dropped := by
  have hlisted : ∀ n ∈ (joinedMembers owner name (candidates declared above)).flatMap
        Member.sources ++
      (droppedClashes owner name (candidates declared above)).flatMap Clash.members,
      n ∈ above ∧ n.declaration.visibility ≠ .private ∧ n.declaration.visibility ≠ .local ∧
        ∀ d ∈ declared, d.signature ≠ n.signature := by
    intro n hn
    obtain ⟨hmem, hpasses, hundeclared⟩ :=
      of_mem_candidates ((listed_perm owner name _).mem_iff.mp hn)
    obtain ⟨hprivate, hlocal⟩ := Visibility.passesDown_iff.mp hpasses
    exact ⟨hmem, hprivate, hlocal, hundeclared⟩
  refine ⟨joinedMembers owner name (candidates declared above), members_of .., ?_⟩
  rw [dropped_of]
  refine ⟨fun n hn => ?_, nodup_signatures_joinedMembers .., fun n hn => ?_, fun n hn => ?_,
    fun clash hclash => ?_, fun m hm hprivate hlocal hundeclared => ?_, hlisted⟩
  · obtain ⟨hinherited, howner, -⟩ := mem_joinedMembers hn
    exact ⟨hinherited, howner⟩
  · obtain ⟨-, -, hsources, hne⟩ := mem_joinedMembers hn
    obtain ⟨source, hsource⟩ := List.exists_mem_of_ne_nil _ hne
    obtain ⟨-, -, -, hundeclared⟩ :=
      hlisted source (List.mem_append_left _ (List.mem_flatMap.mpr ⟨n, hn, hsource⟩))
    rw [hsources] at hsource
    rwa [(mem_partOf.mp hsource).2] at hundeclared
  · obtain ⟨-, -, hsources, -⟩ := mem_joinedMembers hn
    rw [hsources]
    exact fun source hsource => (mem_partOf.mp hsource).2
  · obtain ⟨signature, -, hdropped⟩ := List.mem_flatMap.mp hclash
    have hconcerns : ∀ m ∈ clash.members, m.signature = signature := fun m hm =>
      ((concerns_iff_of_mem_joinPart (List.mem_filter.mp hdropped).1).mp ⟨m, hm, rfl⟩).symm
    exact fun m hm n hn => (hconcerns m hm).trans (hconcerns n hn).symm
  · exact placed_candidates habove hm (Visibility.passesDown_iff.mpr ⟨hprivate, hlocal⟩) hundeclared

/-- The function at the top of a diamond. -/
def drawn : Member := .declared ⟨"Shape"⟩ 0 Hierarchy.drawFunction

/-- The function as one side of the diamond has it. -/
def drawnBy (side : QualifiedName) : Member := joinedMember side drawn [drawn]

/-- The declaration of the function under its identity. -/
def drawnStore (id : MemberId) : Option Declaration :=
  if id = ⟨⟨"Shape"⟩, 0⟩ then some Hierarchy.drawFunction else none

/-- A function that comes down a diamond on both sides. -/
theorem Resolution.placesOnce_drawn :
    (∀ m ∈ [drawnBy ⟨"Left"⟩, drawnBy ⟨"Right"⟩], m.Resolved drawnStore) ∧
    ∃ joined, (Resolution.of ⟨"Square"⟩ ⟨"draw"⟩ []
        [drawnBy ⟨"Left"⟩, drawnBy ⟨"Right"⟩]).members = [] ++ joined ∧
      PlacesOnce ⟨"Square"⟩ [] [drawnBy ⟨"Left"⟩, drawnBy ⟨"Right"⟩] joined
        (Resolution.of ⟨"Square"⟩ ⟨"draw"⟩ []
          [drawnBy ⟨"Left"⟩, drawnBy ⟨"Right"⟩]).dropped := by
  have hdrawn : ∀ m ∈ [drawn], m.Resolved drawnStore :=
    List.forall_mem_singleton.mpr (.declared (by decide))
  have hside : ∀ side, (drawnBy side).Resolved drawnStore := by
    intro side
    have hmem : drawnBy side ∈ (Resolution.of side ⟨"draw"⟩ [] [drawn]).members :=
      List.mem_singleton_self _
    exact .inherited (List.forall_mem_nil _) hdrawn hmem rfl
  have habove : ∀ m ∈ [drawnBy ⟨"Left"⟩, drawnBy ⟨"Right"⟩], m.Resolved drawnStore :=
    List.forall_mem_cons.mpr ⟨hside _, List.forall_mem_singleton.mpr (hside _)⟩
  exact ⟨habove, Resolution.placesOnce _ _ _ habove⟩

end DeclMerge
