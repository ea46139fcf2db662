import DeclMerge.Proofs.Hierarchy.Invariant
import DeclMerge.Proofs.Steps
import Mathlib.Data.List.Perm.Subperm
import Mathlib.Data.List.TakeWhile

/-!
# Every visit ends

A visit of a class always gives a scope or an obstacle, and the state afterwards says which: the
class has its scope, or it has failed, or it could not be entered. A visit is only begun while no
class on the path has failed, so the path has no repetitions and its length bounds the recursion.
A run therefore never stops with a fault, and at its end something is known of every class.

## Main definitions

* `Walk.PathPending`, `Walk.PathUnbuilt` — what is known of the classes being visited
* `Walk.Visited`, `Walk.VisitedAll` — what a visit of a class, or of several supertypes, gives
* `Walk.Between` — the state between two visits from outside
* `Walk.Finished` — what holds at the end of a run

## Main results

* `Walk.exists_visit` — a visit ends
* `Walk.run_induction` — what every visit from outside keeps holds at the end of a run
* `Walk.exists_run` — a run ends, and it is finished
-/

namespace DeclMerge

namespace Walk

variable {index : ClassIndex} {walk before after : Walk} {name supertype : QualifiedName}
  {path : List QualifiedName}

/-- Nothing is known yet of the classes being visited. -/
def PathPending (walk : Walk) : Prop := ∀ name ∈ walk.path, walk.status name = .pending

/-- None of the classes being visited has a scope; some may have failed. -/
def PathUnbuilt (walk : Walk) : Prop := ∀ name ∈ walk.path, ∀ scope, walk.status name ≠ .built scope

theorem PathPending.pathUnbuilt (h : walk.PathPending) : walk.PathUnbuilt :=
  fun name hname scope => by simp [h name hname]

/-- What a visit of a class gives. A class without a scope has failed, unless it is too deep. -/
structure Visited (index : ClassIndex) (before : Walk) (name : QualifiedName)
    (outcome : Except Obstacle ClassScope) (after : Walk) : Prop where
  advances : before.Advances index after
  of_ok : ∀ scope, outcome = .ok scope → after.PathPending ∧ after.status name = .built scope
  of_error : ∀ obstacle, outcome = .error obstacle →
    after.PathUnbuilt ∧ (obstacle ≠ .tooDeep → after.status name = .failed)

/-- What a visit of the supertypes of a class gives, when `scopes` have been found already. The
class has failed if one of its supertypes has no scope. -/
structure VisitedAll (index : ClassIndex) (before : Walk) (name : QualifiedName)
    (supertypes : List QualifiedName) (scopes : List ClassScope)
    (outcome : Except Obstacle (List ClassScope)) (after : Walk) : Prop where
  advances : before.Advances index after
  of_ok : ∀ found, outcome = .ok found → after.PathPending ∧
    ∃ more, found = scopes ++ more ∧ supertypes.map after.status = more.map Status.built
  of_error : ∀ obstacle, outcome = .error obstacle →
    after.PathUnbuilt ∧ after.status name = .failed

theorem Visited.ok {scope : ClassScope} (h : before.Advances index after)
    (hpending : after.PathPending) (hbuilt : after.status name = .built scope) :
    before.Visited index name (.ok scope) after := by
  refine ⟨h, ?_, ?_⟩
  · rintro _ ⟨⟩
    exact ⟨hpending, hbuilt⟩
  · intro obstacle heq
    cases heq

theorem Visited.error {obstacle : Obstacle} (h : before.Advances index after)
    (hunbuilt : after.PathUnbuilt) (hfailed : obstacle ≠ .tooDeep → after.status name = .failed) :
    before.Visited index name (.error obstacle) after := by
  refine ⟨h, ?_, ?_⟩
  · intro scope heq
    cases heq
  · rintro _ ⟨⟩
    exact ⟨hunbuilt, hfailed⟩

theorem VisitedAll.ok {supertypes : List QualifiedName} {scopes more : List ClassScope}
    (h : before.Advances index after) (hpending : after.PathPending)
    (hbuilt : supertypes.map after.status = more.map Status.built) :
    before.VisitedAll index name supertypes scopes (.ok (scopes ++ more)) after := by
  refine ⟨h, ?_, ?_⟩
  · rintro _ ⟨⟩
    exact ⟨hpending, more, rfl, hbuilt⟩
  · intro obstacle heq
    cases heq

theorem VisitedAll.error {supertypes : List QualifiedName} {scopes : List ClassScope}
    {obstacle : Obstacle} (h : before.Advances index after) (hunbuilt : after.PathUnbuilt)
    (hfailed : after.status name = .failed) :
    before.VisitedAll index name supertypes scopes (.error obstacle) after := by
  refine ⟨h, ?_, fun _ _ => ⟨hunbuilt, hfailed⟩⟩
  intro found heq
  cases heq

/-- Failing keeps scopes away from the path. -/
theorem PathUnbuilt.fail (h : walk.PathUnbuilt) {error : HierarchyError}
    (hmem : error.className ∈ walk.names) : (walk.fail error).PathUnbuilt := by
  intro other hother scope
  rw [status_fail hmem]
  split
  · simp
  · exact h other hother scope

/-- A class one of whose supertypes has no scope fails as well, if it has not failed yet. -/
theorem exists_failSupertype (h : walk.Valid index) (hpath : walk.PathUnbuilt)
    (hname : name ∈ walk.path) (supertype : QualifiedName) (obstacle : Obstacle) :
    ∃ reason after, walk.failSupertype name supertype obstacle = (reason, after) ∧
      walk.Advances index after ∧ after.PathUnbuilt ∧ after.status name = .failed := by
  have hmem : name ∈ index.names := h.path_subset hname
  have hknown : name ∈ walk.names := h.names_eq ▸ hmem
  have hfail : ∀ error : HierarchyError, error.className = name → walk.status name = .pending →
      walk.Advances index (walk.fail error) ∧ (walk.fail error).PathUnbuilt ∧
        (walk.fail error).status name = .failed := by
    rintro error rfl hpending
    exact ⟨h.fail hmem hpending, hpath.fail hknown, by rw [status_fail hknown, if_pos rfl]⟩
  unfold failSupertype
  -- A class that is being visited is pending, unless it has failed on a cycle.
  cases hstatus : walk.status name with
  | built scope => exact absurd hstatus (hpath name hname scope)
  | failed => exact ⟨obstacle, walk, rfl, .refl h, hpath, hstatus⟩
  | pending =>
    cases obstacle with
    | tooDeep => exact ⟨_, _, rfl, hfail (.hierarchyTooDeep _ _) rfl hstatus⟩
    | cycle => exact ⟨_, _, rfl, hfail (.unresolvableSupertype _ _) rfl hstatus⟩
    | unresolvable => exact ⟨_, _, rfl, hfail (.unresolvableSupertype _ _) rfl hstatus⟩

/-- The supertypes of a class can be visited if each of them can. -/
theorem exists_visitSupertypes {visit : QualifiedName → Visit} (hname : name ∈ path)
    (supertypes : List QualifiedName)
    (hvisit : ∀ supertype ∈ supertypes, ∀ walk : Walk, walk.Valid index → walk.PathPending →
      walk.path = path → ∃ outcome after, visit supertype walk = .ok (outcome, after) ∧
        walk.Visited index supertype outcome after)
    (scopes : List ClassScope) (hvalid : walk.Valid index) (hpending : walk.PathPending)
    (hpath : walk.path = path) :
    ∃ outcome after, visitSupertypes visit name supertypes scopes walk = .ok (outcome, after) ∧
      walk.VisitedAll index name supertypes scopes outcome after := by
  induction supertypes generalizing scopes walk with
  | nil =>
    refine ⟨.ok (scopes ++ []), walk, ?_, .ok (.refl hvalid) hpending rfl⟩
    rw [List.append_nil, visitSupertypes]
  | cons supertype supertypes ih =>
    obtain ⟨outcome, middle, hrun, hvisited⟩ :=
      hvisit supertype List.mem_cons_self walk hvalid hpending hpath
    have hmiddle : middle.path = path := hvisited.advances.path_eq.trans hpath
    cases outcome with
    | ok scope =>
      obtain ⟨hopen, hbuilt⟩ := hvisited.of_ok scope rfl
      obtain ⟨outcome, after, hrest, hall⟩ :=
        ih (fun s hs => hvisit s (List.mem_cons_of_mem _ hs)) (scopes ++ [scope])
          hvisited.advances.valid hopen hmiddle
      refine ⟨outcome, after, ?_, hvisited.advances.trans hall.advances, ?_, hall.of_error⟩
      · exact bind_eq_ok_iff.mpr ⟨_, hrun, hrest⟩
      · rintro found rfl
        obtain ⟨hafter, more, rfl, hmore⟩ := hall.of_ok found rfl
        refine ⟨hafter, scope :: more, by simp, ?_⟩
        have hkept : after.status supertype = .built scope := by
          rw [hall.advances.keeps supertype (by simp [hbuilt]), hbuilt]
        rw [List.map_cons, List.map_cons, hkept, hmore]
    | error obstacle =>
      obtain ⟨reason, after, hfail, hadvances, hunbuilt, hfailed⟩ :=
        exists_failSupertype hvisited.advances.valid (hvisited.of_error obstacle rfl).1
          (hmiddle ▸ hname) supertype obstacle
      refine ⟨.error reason, after, ?_,
        .error (hvisited.advances.trans hadvances) hunbuilt hfailed⟩
      refine bind_eq_ok_iff.mpr ⟨_, hrun, ?_⟩
      simp only [hfail]
      rfl

/-- All classes of the path from `name` on may fail with their cycle. -/
theorem Valid.failCycle (h : walk.Valid index) (hpending : walk.PathPending)
    (name : QualifiedName) :
    walk.Advances index (walk.failAll (cycleErrors (walk.path.dropWhile (· ≠ name)))) ∧
      ∀ other, (walk.failAll (cycleErrors (walk.path.dropWhile (· ≠ name)))).status other =
        if other ∈ walk.path.dropWhile (· ≠ name) then .failed else walk.status other := by
  -- The cycle is a part of the path: its classes are different, and all are pending.
  have hsuffix := (List.dropWhile_suffix (· ≠ name) : walk.path.dropWhile _ <:+ walk.path)
  have herror : ∀ error ∈ cycleErrors (walk.path.dropWhile (· ≠ name)),
      error.className ∈ walk.path := by
    intro error herror
    apply hsuffix.subset
    rw [← map_className_cycleErrors (walk.path.dropWhile _)]
    exact List.mem_map_of_mem herror
  have hfail := h.failAll
    (by rw [map_className_cycleErrors]; exact h.path_nodup.sublist hsuffix.sublist)
    (fun error he => h.path_subset (herror error he)) fun error he => hpending _ (herror error he)
  rwa [map_className_cycleErrors] at hfail

/-- A class of the path is on the cycle that it closes. -/
theorem mem_dropWhile_ne (hname : name ∈ walk.path) :
    name ∈ walk.path.dropWhile (· ≠ name) := by
  rw [← List.takeWhile_append_dropWhile (p := (· ≠ name)) (l := walk.path)] at hname
  rcases List.mem_append.mp hname with hbefore | hfrom
  · simpa using List.mem_takeWhile_imp hbefore
  · exact hfrom

/-- The path has come back to a class: it fails, with all classes after it. -/
theorem exists_closeCycle (h : walk.Valid index) (hpending : walk.PathPending)
    (hname : name ∈ walk.path) :
    ∃ after, walk.closeCycle name = .ok after ∧ walk.Advances index after ∧ after.PathUnbuilt ∧
      after.status name = .failed := by
  obtain ⟨hadvances, hstatus⟩ := h.failCycle hpending name
  refine ⟨_, closeCycle_eq hname, hadvances, ?_, ?_⟩
  · intro other hother scope
    rw [hstatus]
    split
    · simp
    · simp [hpending other (hadvances.path_eq ▸ hother)]
  · rw [hstatus, if_pos (mem_dropWhile_ne hname)]

/-- A class that the guard lets in is visited if its supertypes can be. -/
theorem exists_visit_of_entered {steps : Nat} {declaration : Declaration}
    {guard : Guard QualifiedName} (hvalid : walk.Valid index) (hpending : walk.PathPending)
    (hmem : name ∈ index.names) (hstatus : walk.status name = .pending)
    (hnew : name ∉ walk.path) (hget : index.get? name = some declaration)
    (henter : walk.guard.enter name = (.entered, guard))
    (hactive : guard.active = name :: walk.guard.active)
    (hvisit : ∀ supertype ∈ index.supertypes declaration, ∀ inner : Walk, inner.Valid index →
      inner.PathPending → inner.path = walk.path ++ [name] →
        ∃ outcome after, visit index steps supertype inner = .ok (outcome, after) ∧
          inner.Visited index supertype outcome after) :
    ∃ outcome after, visit index (steps + 1) name walk = .ok (outcome, after) ∧
      walk.Visited index name outcome after := by
  have hpushed : (walk.push guard name).PathPending :=
    List.forall_mem_append.mpr ⟨hpending, List.forall_mem_singleton.mpr hstatus⟩
  obtain ⟨outcome, inner, hrun, hall⟩ := exists_visitSupertypes (List.mem_concat_self ..)
    (index.supertypes declaration) hvisit [] (hvalid.push hactive hmem hnew) hpushed rfl
  have hinner : inner.path = walk.path ++ [name] := hall.advances.path_eq
  obtain ⟨popped, hpop, hpopped, hpath, hsame⟩ := hall.advances.valid.pop hinner
  -- Apart from what is known of classes, popping takes the walk back to where it was.
  have hkeeps : walk.Keeps popped := by
    intro other hother
    rw [hsame]
    exact hall.advances.keeps other hother
  have hsub : ∀ other ∈ popped.path, other ∈ inner.path := by
    intro other hother
    rw [hinner]
    exact List.mem_append_left _ (hpath ▸ hother)
  rw [visit, hstatus]
  simp only [hget, henter]
  cases outcome with
  | error obstacle =>
    obtain ⟨hunbuilt, hfailed⟩ := hall.of_error obstacle rfl
    refine ⟨.error obstacle, popped, ?_, .error ⟨hpopped, hkeeps, hpath⟩ ?_ ?_⟩
    · exact bind_eq_ok_iff.mpr ⟨_, hrun, bind_eq_ok_iff.mpr ⟨popped, hpop, rfl⟩⟩
    · intro other hother scope
      rw [hsame]
      exact hunbuilt other (hsub other hother) scope
    · exact fun _ => by rw [hsame, hfailed]
  | ok scopes =>
    obtain ⟨hopen, more, hmore, hbuilt⟩ := hall.of_ok scopes rfl
    rw [List.nil_append] at hmore
    subst hmore
    have hname : popped.status name = .pending := by
      rw [hsame]
      exact hopen name (hinner ▸ List.mem_concat_self ..)
    have hmade : popped.Made index ⟨name, declaration, scopes⟩ := ⟨hget, hsame ▸ hbuilt⟩
    have hbuild := hpopped.build hmem hname hmade
    have hset := status_setStatus (hpopped.names_eq ▸ hmem : name ∈ popped.names)
      (.built ⟨name, declaration, scopes⟩)
    refine ⟨.ok ⟨name, declaration, scopes⟩, _, ?_,
      .ok ⟨hbuild.valid, hkeeps.trans hbuild.keeps, hbuild.path_eq.trans hpath⟩ ?_ ?_⟩
    · exact bind_eq_ok_iff.mpr ⟨_, hrun, bind_eq_ok_iff.mpr ⟨popped, hpop, rfl⟩⟩
    · intro other hother
      rw [hset, if_neg]
      · rw [hsame]
        exact hopen other (hsub other hother)
      · rintro rfl
        exact hnew (hpath ▸ hother)
    · rw [hset, if_pos rfl]

/-- A visit ends if its steps are enough for a path through all classes. -/
theorem exists_visit (steps : Nat) (hvalid : walk.Valid index) (hpending : walk.PathPending)
    (hmem : name ∈ index.names) (hsteps : index.names.length < steps + walk.path.length) :
    ∃ outcome after, visit index steps name walk = .ok (outcome, after) ∧
      walk.Visited index name outcome after := by
  induction steps generalizing name walk with
  | zero =>
    -- The path would be longer than the list of all classes.
    have hlength := (List.subperm_of_subset hvalid.path_nodup hvalid.path_subset).length_le
    omega
  | succ steps ih =>
    cases hstatus : walk.status name with
    | built scope =>
      refine ⟨.ok scope, walk, ?_, .ok (.refl hvalid) hpending hstatus⟩
      rw [visit, hstatus]
    | failed =>
      refine ⟨.error .unresolvable, walk, ?_,
        .error (.refl hvalid) hpending.pathUnbuilt fun _ => hstatus⟩
      rw [visit, hstatus]
    | pending =>
      obtain ⟨declaration, hget⟩ := Option.isSome_iff_exists.mp (ClassIndex.mem_names_iff.mp hmem)
      have hcounted := hvalid.withGuard walk.guard.count rfl
      have htooDeep : walk.Visited index name (.error .tooDeep)
          { walk with guard := walk.guard.count } :=
        .error hcounted hpending.pathUnbuilt fun h => absurd rfl h
      have hkey : name ∈ walk.guard.active ↔ name ∈ walk.path := by
        rw [hvalid.active_eq, List.mem_reverse]
      rcases walk.guard.enter_cases name with ⟨-, henter⟩ | ⟨hactive, henter⟩ | ⟨-, henter⟩ |
        ⟨hactive, -, henter⟩
      · refine ⟨.error .tooDeep, _, ?_, htooDeep⟩
        rw [visit, hstatus]
        simp only [hget, henter]
      · obtain ⟨after, hclose, hadvances, hunbuilt, hfailed⟩ :=
          exists_closeCycle hcounted.valid hpending (hkey.mp hactive)
        refine ⟨.error .cycle, after, ?_,
          .error (hcounted.trans hadvances) hunbuilt fun _ => hfailed⟩
        rw [visit, hstatus]
        simp only [hget, henter]
        exact bind_eq_ok_iff.mpr ⟨after, hclose, rfl⟩
      · refine ⟨.error .tooDeep, _, ?_, htooDeep⟩
        rw [visit, hstatus]
        simp only [hget, henter]
      · apply exists_visit_of_entered hvalid hpending hmem hstatus (mt hkey.mpr hactive) hget henter
          rfl
        intro supertype hsupertype inner hinner hinnerPending hpath
        refine ih hinner hinnerPending (ClassIndex.mem_supertypes.mp hsupertype).2 ?_
        rw [hpath, List.length_append, List.length_singleton]
        omega

/-- What holds at the end of a run: something is known of every class. -/
structure Finished (index : ClassIndex) (walk : Walk) : Prop where
  valid : walk.Valid index
  known : ∀ name ∈ index.names, walk.status name ≠ .pending

theorem length_names (index : ClassIndex) : index.names.length = index.classes.length :=
  List.length_map ..

/-- A visit from outside the walk leaves nothing open. -/
theorem exists_visitRoot (hvalid : walk.Valid index) (hpath : walk.path = [])
    (hmem : name ∈ index.names) :
    ∃ after, visitRoot index walk name = .ok after ∧ walk.Advances index after ∧
      after.status name ≠ .pending := by
  have hpending : walk.PathPending := by simp [PathPending, hpath]
  obtain ⟨outcome, after, hrun, hvisited⟩ :=
    exists_visit (index.classes.length + 1) hvalid hpending hmem (by rw [length_names]; omega)
  cases outcome with
  | ok scope =>
    have hbuilt := (hvisited.of_ok scope rfl).2
    refine ⟨after, ?_, hvisited.advances, by simp [hbuilt]⟩
    exact bind_eq_ok_iff.mpr ⟨_, hrun, rfl⟩
  | error obstacle =>
    have hfailed := (hvisited.of_error obstacle rfl).2
    cases hstatus : after.status name with
    | pending =>
      -- Only a class that could not be entered is still pending.
      have hdeep : obstacle = .tooDeep := by
        by_contra hne
        rw [hfailed hne] at hstatus
        cases hstatus
      subst hdeep
      have hclass : (HierarchyError.hierarchyTooDeep name after.guard.maxDepth).className ∈
          index.names := hmem
      have hfail := hvisited.advances.valid.fail hclass hstatus
      have hknown : name ∈ after.names := hvisited.advances.valid.names_eq ▸ hmem
      refine ⟨_, bind_eq_ok_iff.mpr ⟨_, hrun, ?_⟩, hvisited.advances.trans hfail, ?_⟩
      · simp only [hstatus]
        rfl
      · rw [(status_fail hknown name).trans (if_pos rfl)]
        simp
    | built scope =>
      refine ⟨after, bind_eq_ok_iff.mpr ⟨_, hrun, ?_⟩, hvisited.advances, by simp [hstatus]⟩
      simp only [hstatus]
      cases obstacle <;> rfl
    | failed =>
      refine ⟨after, bind_eq_ok_iff.mpr ⟨_, hrun, ?_⟩, hvisited.advances, by simp [hstatus]⟩
      simp only [hstatus]
      cases obstacle <;> rfl

theorem status_start (index : ClassIndex) (maxDepth : Nat) (name : QualifiedName) :
    (start index maxDepth).status name = .pending := by
  rw [status, start]
  induction index.names with
  | nil => rfl
  | cons first names ih =>
    rw [List.map_cons, List.lookup_cons]
    cases name == first
    · exact ih
    · rfl

theorem valid_start (index : ClassIndex) (maxDepth : Nat) :
    (start index maxDepth).Valid index where
  names_eq := by simp [names, start, Function.comp_def]
  active_eq := rfl
  path_nodup := List.nodup_nil
  path_subset := List.nil_subset _
  errors_nodup := List.nodup_nil
  failed_iff := fun name => by
    rw [status_start]
    exact iff_of_false (by simp) List.not_mem_nil
  name_of_built := fun name scope h => by
    rw [status_start] at h
    cases h
  made := fun name scope h => by
    rw [status_start] at h
    cases h

/-- The state between two visits from outside: nothing is being visited, and something is known of
the classes visited so far. -/
structure Between (index : ClassIndex) (done : List QualifiedName) (walk : Walk) : Prop where
  valid : walk.Valid index
  path_eq : walk.path = []
  known : ∀ name ∈ done, walk.status name ≠ .pending

theorem between_start (index : ClassIndex) (maxDepth : Nat) :
    (start index maxDepth).Between index [] :=
  ⟨valid_start index maxDepth, rfl, nofun⟩

/-- A visit from outside leads from one state between visits to the next. -/
theorem Between.exists_visitRoot {done : List QualifiedName} (h : walk.Between index done)
    (hname : name ∈ index.names) :
    ∃ after, visitRoot index walk name = .ok after ∧ after.Between index (done ++ [name]) := by
  obtain ⟨after, hvisit, hadvances, hknown⟩ := Walk.exists_visitRoot h.valid h.path_eq hname
  -- What is known of the classes before this one stays known.
  have hearlier : ∀ other ∈ done, after.status other ≠ .pending := by
    intro other hother
    rw [hadvances.keeps other (h.known other hother)]
    exact h.known other hother
  exact ⟨after, hvisit, hadvances.valid, hadvances.path_eq.trans h.path_eq,
    List.forall_mem_append.mpr ⟨hearlier, List.forall_mem_singleton.mpr hknown⟩⟩

/-- A run never stops with a fault, at its end something is known of every class, and what every
visit from outside keeps holds there. -/
theorem run_induction (motive : List QualifiedName → Walk → Prop) (index : ClassIndex)
    (maxDepth : Nat) (start : motive [] (start index maxDepth))
    (visit : ∀ done root rest before after, index.names = done ++ root :: rest →
      before.Between index done → after.Between index (done ++ [root]) →
        visitRoot index before root = .ok after → motive done before →
          motive (done ++ [root]) after) :
    ∃ walk, run index maxDepth = .ok walk ∧ walk.Finished index ∧ motive index.names walk := by
  obtain ⟨walk, hfold, hbetween, hmotive⟩ := foldlM_induction
    (motive := fun done walk => walk.Between index done ∧ motive done walk)
    (f := visitRoot index) ⟨between_start index maxDepth, start⟩ index.names (by
      rintro done root rest before hsplit ⟨hbefore, hmotive⟩
      obtain ⟨after, hvisit, hafter⟩ :=
        hbefore.exists_visitRoot (hsplit ▸ List.mem_append_cons_self)
      exact ⟨after, hvisit, hafter,
        visit done root rest before after hsplit hbefore hafter hvisit hmotive⟩)
  refine ⟨walk, ?_, ⟨hbetween.valid, hbetween.known⟩, hmotive⟩
  have hactive : walk.guard.active = [] := by
    rw [hbetween.valid.active_eq, hbetween.path_eq, List.reverse_nil]
  refine bind_eq_ok_iff.mpr ⟨walk, hfold, ?_⟩
  simp [Guard.close?, hactive, pure, Except.pure]

/-- A run never stops with a fault, and at its end something is known of every class. -/
theorem exists_run (index : ClassIndex) (maxDepth : Nat) :
    ∃ walk, run index maxDepth = .ok walk ∧ walk.Finished index := by
  obtain ⟨walk, hrun, hfinished, -⟩ :=
    run_induction (fun _ _ => True) index maxDepth trivial fun _ _ _ _ _ _ _ _ _ _ => trivial
  exact ⟨walk, hrun, hfinished⟩

end Walk

end DeclMerge
