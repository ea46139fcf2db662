import DeclMerge.Proofs.Hierarchy.Visits
import Mathlib.Logic.Relation

/-!
# The moves of a walk

Between two visits from outside, a walk goes by moves of six kinds: it enters a class, is refused
one, comes back to a class of its path, passes a failure on to the class below, leaves a class that
has failed, or builds the scope of a class whose supertypes have theirs. A move says all that it
changes and when it is made, so a fact about walks is an induction along their moves and none of
them has to follow the recursion.

## Main definitions

* `ClassIndex.Extends`, `ClassIndex.ExtendsAfter` — the supertype relation among the classes of an
  index, and the same with something known of the supertypes that are declared before
* `Walk.TurnsTo` — the supertype that a walk looks at, for what it knows of those before
* `Walk.Move` — one move, for a visit that began at a root
* `Walk.Moves` — several moves
* `Walk.Fails`, `Walk.Completes` — why a class fails or gets its scope

## Main results

* `Walk.Move.valid_and_keeps` — a move keeps what always holds, and takes nothing back
* `Walk.Move.status_cases` — which classes fail or get their scope in a move, and why
* `Walk.goes_visit` — a visit goes by moves, unless the class is refused
* `Walk.moves_visitRoot` — a visit from outside goes by moves
-/

namespace DeclMerge

/-- A class of the index declares another class of the index as a supertype. -/
def ClassIndex.Extends (index : ClassIndex) (sub super : QualifiedName) : Prop :=
  ∃ declaration, index.get? sub = some declaration ∧ super ∈ index.supertypes declaration

/-- A class of the index declares another one as a supertype, and something holds of all those that
it declares before. -/
def ClassIndex.ExtendsAfter (index : ClassIndex) (passed : QualifiedName → Prop)
    (sub super : QualifiedName) : Prop :=
  ∃ declaration earlier later, index.get? sub = some declaration ∧
    index.supertypes declaration = earlier ++ super :: later ∧ ∀ other ∈ earlier, passed other

theorem ClassIndex.ExtendsAfter.extends {index : ClassIndex} {passed : QualifiedName → Prop}
    {sub super : QualifiedName} (h : index.ExtendsAfter passed sub super) :
    index.Extends sub super := by
  obtain ⟨declaration, earlier, later, hget, hsplit, -⟩ := h
  exact ⟨declaration, hget, hsplit ▸ List.mem_append_cons_self⟩

/-- What is known of the supertypes before may be replaced by what it implies for classes of the
index. -/
theorem ClassIndex.ExtendsAfter.imp {index : ClassIndex} {passed passed' : QualifiedName → Prop}
    {sub super : QualifiedName} (h : index.ExtendsAfter passed sub super)
    (himp : ∀ other ∈ index.names, passed other → passed' other) :
    index.ExtendsAfter passed' sub super := by
  obtain ⟨declaration, earlier, later, hget, hsplit, hearlier⟩ := h
  refine ⟨declaration, earlier, later, hget, hsplit, fun other hother => ?_⟩
  have hmem : other ∈ index.supertypes declaration := hsplit ▸ List.mem_append_left _ hother
  exact himp other (ClassIndex.mem_supertypes.mp hmem).2 (hearlier other hother)

namespace Guard

variable {κ : Type} [DecidableEq κ]

/-- The limit on depth is looked at only for keys that are not being visited. -/
theorem not_mem_of_enter_eq_depthExceeded {guard guard' : Guard κ} {key : κ}
    (h : guard.enter key = (.depthExceeded, guard')) : key ∉ guard.active := by
  intro hmem
  simp only [enter, hmem, if_true] at h
  split at h <;> cases h

end Guard

namespace Walk

variable {index : ClassIndex} {root name supertype : QualifiedName} {walk before after : Walk}
  {path : List QualifiedName} {declaration : Declaration}

/-- The walk after its guard has counted a request. -/
def counted (walk : Walk) : Walk := { walk with guard := walk.guard.count }

/-- A walk looks at a supertype of a class once all that are declared before have their scopes. -/
def TurnsTo (index : ClassIndex) (walk : Walk) : QualifiedName → QualifiedName → Prop :=
  index.ExtendsAfter fun other => ∃ scope, walk.status other = .built scope

/-- A visit that began at `root` asks for the root itself, or for the next supertype of the last
class of the path. -/
def AsksFor (index : ClassIndex) (root : QualifiedName) (walk : Walk) (name : QualifiedName) :
    Prop :=
  (walk.path = [] ∧ name = root) ∨
    ∃ path last, walk.path = path ++ [last] ∧ walk.TurnsTo index last name

/-- The guard does not let the class in, although the path has not come back to it. -/
def Refuses (walk : Walk) (name : QualifiedName) : Prop :=
  walk.guard.maxIterations < walk.guard.count.iterations ∨
    (name ∉ walk.path ∧ walk.guard.maxDepth ≤ walk.guard.depth)

/-- The class that fails when another one is refused: the last one of the path, or the refused one
itself if it was asked for from outside. -/
def blamed (walk : Walk) (name : QualifiedName) : QualifiedName := walk.path.getLastD name

/-- The errors with which a class fails because of a failed supertype. -/
def Inherits (walk : Walk) (name supertype : QualifiedName) (error : HierarchyError) : Prop :=
  error = .unresolvableSupertype name supertype ∨
    (error = .hierarchyTooDeep name walk.guard.maxDepth ∧
      ∃ limit, .hierarchyTooDeep supertype limit ∈ walk.errors)

/-- One move of a walk, in a visit that began at `root`. -/
inductive Move (index : ClassIndex) (root : QualifiedName) (walk : Walk) : Walk → Prop
  | enter {name : QualifiedName} (hmem : name ∈ index.names)
      (hpending : walk.status name = .pending) (hasks : walk.AsksFor index root name)
      (hnew : name ∉ walk.path) (hdepth : walk.guard.depth < walk.guard.maxDepth) :
      Move index root walk (walk.push (walk.guard.withActive name) name)
  | refuse {name : QualifiedName} (hmem : name ∈ index.names)
      (hpending : walk.status name = .pending) (hasks : walk.AsksFor index root name)
      (hpath : walk.PathPending) (hrefuses : walk.Refuses name) :
      Move index root walk
        (walk.counted.fail (.hierarchyTooDeep (walk.blamed name) walk.guard.maxDepth))
  | close {name : QualifiedName} (hname : name ∈ walk.path)
      (hasks : walk.AsksFor index root name) (hpath : walk.PathPending) :
      Move index root walk
        (walk.counted.failAll (cycleErrors (walk.path.dropWhile (· ≠ name))))
  | spread {path : List QualifiedName} {name supertype : QualifiedName} {error : HierarchyError}
      (hpath : walk.path = path ++ [name]) (hpending : walk.status name = .pending)
      (hturns : walk.TurnsTo index name supertype) (hfailed : walk.status supertype = .failed)
      (herror : walk.Inherits name supertype error) :
      Move index root walk (walk.fail error)
  | leave {path : List QualifiedName} {name : QualifiedName} {popped : Walk}
      (hpath : walk.path = path ++ [name]) (hfailed : walk.status name = .failed)
      (hpop : walk.pop name = .ok popped) : Move index root walk popped
  | build {path : List QualifiedName} {name : QualifiedName} {declaration : Declaration}
      {scopes : List ClassScope} {popped : Walk} (hpath : walk.path = path ++ [name])
      (hpending : walk.status name = .pending) (hget : index.get? name = some declaration)
      (hbuilt : (index.supertypes declaration).map walk.status = scopes.map Status.built)
      (hpop : walk.pop name = .ok popped) :
      Move index root walk (popped.setStatus name (.built ⟨name, declaration, scopes⟩))

/-- Several moves, one after the other. -/
abbrev Moves (index : ClassIndex) (root : QualifiedName) : Walk → Walk → Prop :=
  Relation.ReflTransGen (Move index root)

/-! ### What a move keeps -/

theorem pop_eq {popped : Walk} (h : walk.pop name = .ok popped) :
    popped = { walk with
      guard := { walk.guard with
        active := walk.guard.active.erase name, depth := walk.guard.depth - 1 }
      path := walk.path.dropLast } := by
  unfold pop at h
  split at h
  · rename_i guard hleave
    cases h
    unfold Guard.leave? at hleave
    split at hleave
    · cases hleave
      rfl
    · cases hleave
  · cases h

/-- Where a walk has turned to stays true. -/
theorem TurnsTo.mono {sub super : QualifiedName} (h : walk.TurnsTo index sub super)
    (hkeeps : walk.Keeps after) : after.TurnsTo index sub super :=
  h.imp fun other _ ⟨scope, hscope⟩ => ⟨scope, by rw [hkeeps other (by simp [hscope]), hscope]⟩

theorem Inherits.className_eq {error : HierarchyError} (h : walk.Inherits name supertype error) :
    error.className = name := by
  rcases h with rfl | ⟨rfl, -⟩ <;> rfl

theorem blamed_mem (h : walk.Valid index) (hmem : name ∈ index.names) :
    walk.blamed name ∈ index.names := by
  rw [blamed]
  rcases List.eq_nil_or_concat walk.path with hpath | ⟨path, last, hpath⟩
  · simpa [hpath] using hmem
  · rw [hpath, List.concat_eq_append, List.getLastD_concat]
    exact h.path_subset (by simp [hpath])

theorem status_blamed (hpath : walk.PathPending) (hpending : walk.status name = .pending) :
    walk.status (walk.blamed name) = .pending := by
  rw [blamed]
  rcases List.eq_nil_or_concat walk.path with hnil | ⟨path, last, hconcat⟩
  · simpa [hnil] using hpending
  · rw [hconcat, List.concat_eq_append, List.getLastD_concat]
    exact hpath last (by simp [hconcat])

/-- A move keeps what always holds of a walk, and it takes nothing back. -/
theorem Move.valid_and_keeps (h : walk.Valid index) (hmove : Move index root walk after) :
    after.Valid index ∧ walk.Keeps after := by
  have hcounted := h.withGuard walk.guard.count rfl
  cases hmove with
  | enter hmem hpending hasks hnew hdepth => exact ⟨h.push rfl hmem hnew, fun _ _ => rfl⟩
  | refuse hmem hpending hasks hpath hrefuses =>
    have hfail : walk.Advances index
        (walk.counted.fail (.hierarchyTooDeep (walk.blamed _) walk.guard.maxDepth)) :=
      hcounted.trans (hcounted.valid.fail (blamed_mem h hmem) (status_blamed hpath hpending))
    exact ⟨hfail.valid, hfail.keeps⟩
  | close hname hasks hpath =>
    obtain ⟨hfail, -⟩ := hcounted.valid.failCycle hpath _
    exact ⟨hfail.valid, hfail.keeps⟩
  | spread hpath hpending hturns hfailed herror =>
    have hclass := herror.className_eq
    have hfail : walk.Advances index (walk.fail _) := h.fail (by
      rw [hclass]
      exact h.path_subset (hpath ▸ List.mem_concat_self ..)) (hclass ▸ hpending)
    exact ⟨hfail.valid, hfail.keeps⟩
  | leave hpath hfailed hpop =>
    obtain ⟨popped, hpop', hvalid, -, hsame⟩ := h.pop hpath
    obtain rfl := Except.ok.inj (hpop.symm.trans hpop')
    exact ⟨hvalid, fun other _ => congrFun hsame other⟩
  | @build _ name declaration scopes popped hpath hpending hget hbuilt hpop =>
    obtain ⟨_, hpop', hvalid, -, hsame⟩ := h.pop hpath
    obtain rfl := Except.ok.inj (hpop.symm.trans hpop')
    have hmem : name ∈ index.names := h.path_subset (hpath ▸ List.mem_concat_self ..)
    have hmade : popped.Made index ⟨name, declaration, scopes⟩ := ⟨hget, hsame ▸ hbuilt⟩
    have hbuild := hvalid.build hmem (hsame ▸ hpending) hmade
    exact ⟨hbuild.valid, fun other hother => by
      rw [hbuild.keeps other (hsame ▸ hother), hsame]⟩

theorem Moves.valid_and_keeps (hmoves : Moves index root walk after) (h : walk.Valid index) :
    after.Valid index ∧ walk.Keeps after := by
  induction hmoves with
  | refl => exact ⟨h, .refl walk⟩
  | tail _ hmove ih =>
    obtain ⟨hvalid, hkeeps⟩ := hmove.valid_and_keeps ih.1
    exact ⟨hvalid, ih.2.trans hkeeps⟩

/-! ### What a move changes -/

/-- How a class fails in a move of a visit that began at `root`. -/
inductive Fails (index : ClassIndex) (root : QualifiedName) (walk : Walk) : QualifiedName → Prop
  | refused {name : QualifiedName} (hmem : name ∈ index.names)
      (hpending : walk.status name = .pending) (hasks : walk.AsksFor index root name)
      (hrefuses : walk.Refuses name) : Fails index root walk (walk.blamed name)
  | closed {name other : QualifiedName} (hasks : walk.AsksFor index root name)
      (hmem : other ∈ walk.path.dropWhile (· ≠ name)) : Fails index root walk other
  | inherited {other supertype : QualifiedName} (hextends : index.Extends other supertype)
      (hfailed : walk.status supertype = .failed) : Fails index root walk other

theorem status_pop {popped : Walk} (hpop : walk.pop name = .ok popped) (other : QualifiedName) :
    popped.status other = walk.status other := by
  rw [pop_eq hpop]
  rfl

theorem names_pop {popped : Walk} (hpop : walk.pop name = .ok popped) :
    popped.names = walk.names := by
  rw [pop_eq hpop]
  rfl

/-- The last class of the path is complete: all its supertypes have their scopes. -/
def Completes (index : ClassIndex) (walk : Walk) (name : QualifiedName) : Prop :=
  (∃ path, walk.path = path ++ [name]) ∧
    ∀ super, index.Extends name super → ∃ scope, walk.status super = .built scope

/-- In a move a class keeps its status, or it was pending and now it fails or gets its scope. -/
theorem Move.status_cases (hmove : Move index root walk after) (h : walk.Valid index)
    (other : QualifiedName) :
    after.status other = walk.status other ∨ (walk.status other = .pending ∧
      ((after.status other = .failed ∧ Fails index root walk other) ∨
        ((∃ scope, after.status other = .built scope) ∧ Completes index walk other))) := by
  cases hmove with
  | enter => exact .inl rfl
  | @refuse name hmem hpending hasks hpath hrefuses =>
    have hclass : (HierarchyError.hierarchyTooDeep (walk.blamed name)
        walk.guard.maxDepth).className ∈ walk.counted.names := by
      change walk.blamed name ∈ walk.names
      rw [h.names_eq]
      exact blamed_mem h hmem
    rw [status_fail hclass]
    split
    · rename_i heq
      obtain rfl : other = walk.blamed name := heq
      exact .inr ⟨status_blamed hpath hpending, .inl ⟨rfl, .refused hmem hpending hasks hrefuses⟩⟩
    · exact .inl rfl
  | @close name hname hasks hpath =>
    have hcounted := (h.withGuard walk.guard.count rfl).valid
    have hstatus : (walk.counted.failAll _).status other = _ :=
      (hcounted.failCycle hpath name).2 other
    rw [hstatus]
    split
    · rename_i hmem
      exact .inr ⟨hpath other ((List.dropWhile_suffix _).subset hmem),
        .inl ⟨rfl, .closed hasks hmem⟩⟩
    · exact .inl rfl
  | @spread path name supertype error hpath hpending hturns hsuper herror =>
    have hclass := herror.className_eq
    have hmem : name ∈ walk.names := h.names_eq ▸ h.path_subset (hpath ▸ List.mem_concat_self ..)
    rw [status_fail (hclass ▸ hmem), hclass]
    split
    · rename_i heq
      subst heq
      exact .inr ⟨hpending, .inl ⟨rfl, .inherited hturns.extends hsuper⟩⟩
    · exact .inl rfl
  | leave hpath hname hpop => exact .inl (status_pop hpop other)
  | @build path name declaration scopes _ hpath hpending hget hbuilt hpop =>
    have hmem : name ∈ walk.names := h.names_eq ▸ h.path_subset (hpath ▸ List.mem_concat_self ..)
    rw [status_setStatus (names_pop hpop ▸ hmem), status_pop hpop]
    split
    · rename_i heq
      subst heq
      refine .inr ⟨hpending, .inr ⟨⟨_, rfl⟩, ⟨path, hpath⟩, ?_⟩⟩
      rintro super ⟨_, hget', hsuper⟩
      obtain rfl := Option.some.inj (hget.symm.trans hget')
      have hstatus := List.mem_map_of_mem (f := walk.status) hsuper
      rw [hbuilt, List.mem_map] at hstatus
      obtain ⟨scope, -, hscope⟩ := hstatus
      exact ⟨scope, hscope.symm⟩
    · exact .inl rfl

/-! ### Visits go by moves -/

/-- The class has been reported as too deep, and the classes of `path` are still pending. -/
def ReportedDeep (walk : Walk) (path : List QualifiedName) (name : QualifiedName) : Prop :=
  (∀ other ∈ path, walk.status other = .pending) ∧
    ∃ limit, .hierarchyTooDeep name limit ∈ walk.errors

theorem ReportedDeep.failed (h : walk.ReportedDeep path name) (hvalid : walk.Valid index) :
    walk.status name = .failed := by
  obtain ⟨-, limit, herror⟩ := h
  exact (hvalid.failed_iff name).mpr (List.mem_map_of_mem herror)

/-- Only the last class of the path fails when it is too deep. -/
theorem reportedDeep_fail (hvalid : walk.Valid index) (hpending : walk.PathPending)
    (hpath : walk.path = path ++ [name]) (limit : Nat) :
    (walk.fail (.hierarchyTooDeep name limit)).ReportedDeep path name := by
  refine ⟨fun other hother => ?_, limit, List.mem_concat_self ..⟩
  have hknown : (HierarchyError.hierarchyTooDeep name limit).className ∈ walk.names := by
    rw [hvalid.names_eq]
    exact hvalid.path_subset (hpath ▸ List.mem_concat_self ..)
  have hne : other ≠ name := fun heq =>
    (nodup_append_singleton_iff.mp (hpath ▸ hvalid.path_nodup)).2 (heq ▸ hother)
  rw [status_fail hknown]
  exact (if_neg hne).trans (hpending other (hpath ▸ List.mem_append_left _ hother))

/-- How a visit of a class goes. Only the refusal of the class itself is no move yet: it becomes
one when the class to blame fails. -/
inductive Goes (index : ClassIndex) (root : QualifiedName) (before : Walk) (name : QualifiedName) :
    Except Obstacle ClassScope → Walk → Prop
  | refused (hpending : before.status name = .pending) (hrefuses : before.Refuses name) :
      Goes index root before name (.error .tooDeep) before.counted
  | moves {outcome : Except Obstacle ClassScope} {after : Walk}
      (hmoves : Moves index root before after)
      (hdeep : outcome = .error .tooDeep → after.ReportedDeep after.path name) :
      Goes index root before name outcome after

/-- A class that is being visited fails after a supertype has given no scope, and that is a move
unless it has failed before. -/
theorem moves_failSupertype (hturns : walk.TurnsTo index name supertype)
    (hvalid : walk.Valid index) (hpending : walk.PathPending) (hpath : walk.path = path ++ [name])
    {obstacle reason : Obstacle} {middle : Walk}
    (hvisited : walk.Visited index supertype (.error obstacle) middle)
    (hgoes : Goes index root walk supertype (.error obstacle) middle)
    (hfail : middle.failSupertype name supertype obstacle = (reason, after)) :
    Moves index root walk after ∧ (reason = .tooDeep → after.ReportedDeep path name) := by
  have hmiddle : middle.path = path ++ [name] := hvisited.advances.path_eq.trans hpath
  have hlast : name ∈ middle.path := hmiddle ▸ List.mem_concat_self ..
  unfold failSupertype at hfail
  cases hstatus : middle.status name with
  | built scope =>
    exact absurd hstatus ((hvisited.of_error obstacle rfl).1 name hlast scope)
  | failed =>
    -- The class is on a cycle, so the supertype was not refused.
    rw [hstatus] at hfail
    cases hfail
    cases hgoes with
    | refused =>
      exact absurd ((hpending name (hpath ▸ List.mem_concat_self ..)).symm.trans hstatus) nofun
    | moves hmoves hdeep =>
      refine ⟨hmoves, fun heq => ?_⟩
      have hopen := (hdeep (heq ▸ rfl)).1 name hlast
      exact absurd (hopen.symm.trans hstatus) nofun
  | pending =>
    rw [hstatus] at hfail
    cases hgoes with
    | refused hunknown hrefuses =>
      cases hfail
      obtain ⟨declaration, -, hsupertype⟩ := hturns.extends
      have hrefuse : Move index root walk _ :=
        .refuse (ClassIndex.mem_supertypes.mp hsupertype).2 hunknown
          (.inr ⟨path, name, hpath, hturns⟩) hpending hrefuses
      rw [blamed, hpath, List.getLastD_concat] at hrefuse
      exact ⟨.single hrefuse, fun _ => reportedDeep_fail
        (hvalid.withGuard walk.guard.count rfl).valid hpending hpath _⟩
    | moves hmoves hdeep =>
      have hspread : ∀ error, middle.Inherits name supertype error →
          middle.status supertype = .failed → Moves index root walk (middle.fail error) :=
        fun error herror hfailed => hmoves.tail
          (.spread hmiddle hstatus (hturns.mono hvisited.advances.keeps) hfailed herror)
      cases obstacle with
      | tooDeep =>
        cases hfail
        have hfailed := (hdeep rfl).failed hvisited.advances.valid
        obtain ⟨hopen, limit, herror⟩ := hdeep rfl
        exact ⟨hspread _ (.inr ⟨rfl, limit, herror⟩) hfailed,
          fun _ => reportedDeep_fail hvisited.advances.valid hopen hmiddle _⟩
      | cycle | unresolvable =>
        cases hfail
        exact ⟨hspread _ (.inl rfl) ((hvisited.of_error _ rfl).2 nofun), nofun⟩

/-- Visiting the supertypes of a class goes by moves if visiting each of them does. -/
theorem moves_visitSupertypes {visit : QualifiedName → Visit}
    (hget : index.get? name = some declaration)
    (hvisit : ∀ supertype ∈ index.supertypes declaration, ∀ (walk : Walk) outcome after,
      walk.Valid index → walk.PathPending → walk.path = path ++ [name] →
        walk.TurnsTo index name supertype → visit supertype walk = .ok (outcome, after) →
          walk.Visited index supertype outcome after ∧
            Goes index root walk supertype outcome after)
    {earlier supertypes : List QualifiedName}
    (hsplit : index.supertypes declaration = earlier ++ supertypes) {scopes : List ClassScope}
    (hearlier : ∀ other ∈ earlier, ∃ scope, walk.status other = .built scope)
    (hvalid : walk.Valid index) (hpending : walk.PathPending) (hpath : walk.path = path ++ [name])
    {outcome : Except Obstacle (List ClassScope)}
    (hrun : visitSupertypes visit name supertypes scopes walk = .ok (outcome, after)) :
    Moves index root walk after ∧
      (outcome = .error .tooDeep → after.ReportedDeep path name) := by
  induction supertypes generalizing earlier scopes walk with
  | nil =>
    cases hrun
    exact ⟨.refl, nofun⟩
  | cons supertype supertypes ih =>
    obtain ⟨⟨found, middle⟩, hfound, hrest⟩ := bind_eq_ok_iff.mp hrun
    have hsupertype : supertype ∈ index.supertypes declaration :=
      hsplit ▸ List.mem_append_cons_self
    have hturns : walk.TurnsTo index name supertype :=
      ⟨declaration, earlier, supertypes, hget, hsplit, hearlier⟩
    obtain ⟨hvisited, hgoes⟩ :=
      hvisit supertype hsupertype walk found middle hvalid hpending hpath hturns hfound
    cases found with
    | ok scope =>
      obtain ⟨hopen, hscope⟩ := hvisited.of_ok scope rfl
      have hmoves : Moves index root walk middle := by
        cases hgoes
        assumption
      have hknown : ∀ other ∈ earlier ++ [supertype], ∃ scope,
          middle.status other = .built scope := by
        refine List.forall_mem_append.mpr ⟨fun other hother => ?_,
          List.forall_mem_singleton.mpr ⟨scope, hscope⟩⟩
        obtain ⟨scope, hscope⟩ := hearlier other hother
        exact ⟨scope, by rw [hvisited.advances.keeps other (by simp [hscope]), hscope]⟩
      obtain ⟨hlater, hdeep⟩ := ih (by rw [hsplit, List.append_assoc]; rfl) hknown
        hvisited.advances.valid hopen (hvisited.advances.path_eq.trans hpath) hrest
      exact ⟨hmoves.trans hlater, hdeep⟩
    | error obstacle =>
      cases hfail : middle.failSupertype name supertype obstacle with
      | mk reason last =>
        simp only [hfail] at hrest
        cases hrest
        obtain ⟨hmoves, hdeep⟩ :=
          moves_failSupertype hturns hvalid hpending hpath hvisited hgoes hfail
        exact ⟨hmoves, fun heq => hdeep (Except.error.inj heq)⟩

/-- A class that the guard lets in is visited by moves if its supertypes are. -/
theorem goes_of_entered {steps : Nat} (hvalid : walk.Valid index) (hpending : walk.PathPending)
    (hmem : name ∈ index.names) (hstatus : walk.status name = .pending)
    (hasks : walk.AsksFor index root name) (hnew : name ∉ walk.path)
    (hdepth : walk.guard.depth < walk.guard.maxDepth)
    (hget : index.get? name = some declaration)
    (henter : walk.guard.enter name = (.entered, walk.guard.withActive name))
    (hvisit : ∀ supertype ∈ index.supertypes declaration, ∀ (inner : Walk), inner.Valid index →
      inner.PathPending → inner.path = walk.path ++ [name] →
        (∃ outcome after, Walk.visit index steps supertype inner = .ok (outcome, after) ∧
          inner.Visited index supertype outcome after) ∧
        (inner.TurnsTo index name supertype →
          ∀ outcome after, Walk.visit index steps supertype inner = .ok (outcome, after) →
            Goes index root inner supertype outcome after))
    {outcome : Except Obstacle ClassScope}
    (hrun : visit index (steps + 1) name walk = .ok (outcome, after)) :
    Goes index root walk name outcome after := by
  have hpushed : (walk.push (walk.guard.withActive name) name).PathPending :=
    List.forall_mem_append.mpr ⟨hpending, List.forall_mem_singleton.mpr hstatus⟩
  have hentered : (walk.push (walk.guard.withActive name) name).Valid index :=
    hvalid.push rfl hmem hnew
  obtain ⟨found, inner, hfound, hall⟩ := exists_visitSupertypes (List.mem_concat_self ..)
    (index.supertypes declaration)
    (fun supertype hsupertype inner hinner hopen hpath =>
      (hvisit supertype hsupertype inner hinner hopen hpath).1) [] hentered hpushed rfl
  obtain ⟨hmoves, hdeep⟩ : Moves index root _ inner ∧ _ := moves_visitSupertypes hget
    (fun supertype hsupertype inner outcome after hinner hopen hpath hturns hrun => by
      obtain ⟨⟨outcome', after', hrun', hvisited⟩, hgoes⟩ :=
        hvisit supertype hsupertype inner hinner hopen hpath
      obtain ⟨rfl, rfl⟩ := Prod.mk.inj (Except.ok.inj (hrun'.symm.trans hrun))
      exact ⟨hvisited, hgoes hturns _ _ hrun⟩)
    (List.nil_append _).symm (by rintro _ ⟨⟩) hentered hpushed rfl hfound
  have hinner : inner.path = walk.path ++ [name] := hall.advances.path_eq
  obtain ⟨popped, hpop, -, hpath, hsame⟩ := hall.advances.valid.pop hinner
  have hbegun := Relation.ReflTransGen.head
    (Move.enter hmem hstatus hasks hnew hdepth : Move index root walk _) hmoves
  rw [visit, hstatus] at hrun
  simp only [hget, henter] at hrun
  obtain ⟨_, hfound', hrest⟩ := bind_eq_ok_iff.mp hrun
  obtain rfl := Except.ok.inj (hfound.symm.trans hfound')
  obtain ⟨_, hpop', hend⟩ := bind_eq_ok_iff.mp hrest
  obtain rfl := Except.ok.inj (hpop.symm.trans hpop')
  cases found with
  | error obstacle =>
    cases hend
    refine .moves (hbegun.tail (.leave hinner (hall.of_error obstacle rfl).2 hpop)) ?_
    rintro ⟨⟩
    obtain ⟨hopen, limit, herror⟩ := hdeep rfl
    refine ⟨fun other hother => ?_, limit, ?_⟩
    · rw [hsame]
      exact hopen other (hpath ▸ hother)
    · rwa [pop_eq hpop]
  | ok scopes =>
    cases hend
    obtain ⟨hopen, more, hmore, hbuilt⟩ := hall.of_ok scopes rfl
    rw [List.nil_append] at hmore
    subst hmore
    have hlast : inner.status name = .pending := hopen name (hinner ▸ List.mem_concat_self ..)
    exact .moves (hbegun.tail (.build hinner hlast hget hbuilt hpop)) (by rintro ⟨⟩)

/-- A visit goes by moves if its steps are enough for a path through all classes. -/
theorem goes_visit (steps : Nat) (hvalid : walk.Valid index) (hpending : walk.PathPending)
    (hmem : name ∈ index.names) (hasks : walk.AsksFor index root name)
    (hsteps : index.names.length < steps + walk.path.length)
    {outcome : Except Obstacle ClassScope}
    (hrun : visit index steps name walk = .ok (outcome, after)) :
    Goes index root walk name outcome after := by
  induction steps generalizing name walk outcome after with
  | zero => cases hrun
  | succ steps ih =>
    cases hstatus : walk.status name with
    | built scope =>
      rw [visit, hstatus] at hrun
      cases hrun
      exact .moves .refl (by rintro ⟨⟩)
    | failed =>
      rw [visit, hstatus] at hrun
      cases hrun
      exact .moves .refl (by rintro ⟨⟩)
    | pending =>
      obtain ⟨declaration, hget⟩ := Option.isSome_iff_exists.mp (ClassIndex.mem_names_iff.mp hmem)
      have hkey : name ∈ walk.guard.active ↔ name ∈ walk.path := by
        rw [hvalid.active_eq, List.mem_reverse]
      rcases walk.guard.enter_cases name with ⟨hcount, henter⟩ | ⟨hactive, henter⟩ |
        ⟨hdepth, henter⟩ | ⟨hactive, hdepth, henter⟩
      · rw [visit, hstatus] at hrun
        simp only [hget, henter] at hrun
        cases hrun
        exact .refused hstatus (.inl hcount)
      · have hname : name ∈ walk.counted.path := hkey.mp hactive
        rw [visit, hstatus] at hrun
        simp only [hget, henter] at hrun
        obtain ⟨closed, hclose, hend⟩ := bind_eq_ok_iff.mp hrun
        change walk.counted.closeCycle name = _ at hclose
        rw [closeCycle_eq hname] at hclose
        cases hclose
        cases hend
        exact .moves (.single (.close hname hasks hpending)) (by rintro ⟨⟩)
      · have hnew : name ∉ walk.path :=
          mt hkey.mpr (Guard.not_mem_of_enter_eq_depthExceeded henter)
        rw [visit, hstatus] at hrun
        simp only [hget, henter] at hrun
        cases hrun
        exact .refused hstatus (.inr ⟨hnew, hdepth⟩)
      · refine goes_of_entered hvalid hpending hmem hstatus hasks (mt hkey.mpr hactive) hdepth hget
          henter (fun supertype hsupertype inner hinner hopen hpath => ?_) hrun
        have hknown := (ClassIndex.mem_supertypes.mp hsupertype).2
        have hlength : index.names.length < steps + inner.path.length := by
          rw [hpath, List.length_append, List.length_singleton]
          omega
        exact ⟨exists_visit steps hinner hopen hknown hlength, fun hturns outcome after hrun =>
          ih hinner hopen hknown (.inr ⟨walk.path, name, hpath, hturns⟩) hlength hrun⟩

/-- A visit from outside the walk goes by moves. -/
theorem moves_visitRoot (hvalid : walk.Valid index) (hpath : walk.path = [])
    (hmem : name ∈ index.names) (hrun : visitRoot index walk name = .ok after) :
    Moves index name walk after := by
  have hpending : walk.PathPending := by simp [PathPending, hpath]
  have hsteps : index.names.length < index.classes.length + 1 + walk.path.length := by
    rw [length_names]
    omega
  obtain ⟨⟨outcome, last⟩, hvisit, hend⟩ := bind_eq_ok_iff.mp hrun
  have hgoes : Goes index name walk name outcome last :=
    goes_visit _ hvalid hpending hmem (.inl ⟨hpath, rfl⟩) hsteps hvisit
  cases hgoes with
  | refused hunknown hrefuses =>
    have hsame : walk.counted.status name = .pending := hunknown
    simp only [hsame] at hend
    cases hend
    have hrefuse : Move index name walk _ :=
      .refuse hmem hunknown (.inl ⟨hpath, rfl⟩) hpending hrefuses
    rw [blamed, hpath] at hrefuse
    exact .single hrefuse
  | moves hmoves hdeep =>
    have hvalid' := (hmoves.valid_and_keeps hvalid).1
    have hlast : after = last := by
      dsimp only at hend
      split at hend
      · -- A class that has been reported as too deep is not reported again.
        rename_i hunknown
        cases ((hdeep rfl).failed hvalid').symm.trans hunknown
      · cases hend
        rfl
    exact hlast ▸ hmoves

end Walk

end DeclMerge
