import DeclMerge.Proofs.Hierarchy.Log
import DeclMerge.Proofs.Hierarchy.Trails

/-!
# Walks are balanced and short

At each call to its guard a walk is in step with it: the guard is visiting the classes of the path,
and its depth is the length of the path. So a class that is left is always being visited, a cycle
is always closed on the path, and nothing is left over at the end.

The number of requests is bounded by a payment: a request that enters its class is paid for by that
class, which is never entered again, and one that is refused or closes a cycle is paid for by a class
that fails. A refused request owes its payment for a moment, until the class that asked fails.

## Main definitions

* `Walk.InStep` — the guard of a walk and its path agree
* `Walk.GuardUse.Balanced` — a call that finds the walk in step and leaves it so
* `Walk.Logged` — what the log of a part of a walk says
* `Walk.LoggedVisited` — the same for a visit, which may still owe a payment
* `Walk.BalancedRun` — what the log of a whole run says

## Main results

* `Walk.loggedVisited` — the log of a visit
* `Hierarchy.walksInBalance` — the log of the run for a list of classes
-/

namespace DeclMerge

namespace Walk

variable {index : ClassIndex} {maxDepth : Nat} {name supertype : QualifiedName}
  {walk before middle after inner popped : Walk} {path : List QualifiedName}
  {log later : List GuardUse}

/-! ### Guard and path -/

/-- The guard is visiting the classes of the path, and it is as deep as the path is long. -/
structure InStep (maxDepth : Nat) (walk : Walk) : Prop where
  mem_active_iff : ∀ name, name ∈ walk.guard.active ↔ name ∈ walk.path
  path_nodup : walk.path.Nodup
  depth_eq : walk.guard.depth = walk.path.length
  depth_le : walk.guard.depth ≤ maxDepth
  maxDepth_eq : walk.guard.maxDepth = maxDepth

/-- In a valid walk the guard always visits the classes of the path, so only its depth matters. -/
theorem Valid.inStep (h : walk.Valid index) (hdepth : walk.guard.depth = walk.path.length)
    (hle : walk.guard.depth ≤ maxDepth) (hmax : walk.guard.maxDepth = maxDepth) :
    walk.InStep maxDepth :=
  ⟨fun name => by rw [h.active_eq, List.mem_reverse], h.path_nodup, hdepth, hle, hmax⟩

/-- Counting requests and changing what is known of classes keep a walk in step. -/
theorem InStep.congr (h : walk.InStep maxDepth)
    (hguard : after.guard = { walk.guard with iterations := after.guard.iterations })
    (hpath : after.path = walk.path) : after.InStep maxDepth where
  mem_active_iff := by rw [hguard, hpath]; exact h.mem_active_iff
  path_nodup := by rw [hpath]; exact h.path_nodup
  depth_eq := by rw [hguard, hpath]; exact h.depth_eq
  depth_le := by rw [hguard]; exact h.depth_le
  maxDepth_eq := by rw [hguard]; exact h.maxDepth_eq

theorem InStep.push (h : walk.InStep maxDepth) (hvalid : walk.Valid index)
    (hmem : name ∈ index.names) (hnew : name ∉ walk.path)
    (hdepth : walk.guard.depth < walk.guard.maxDepth) :
    (walk.push (walk.guard.withActive name) name).InStep maxDepth := by
  have hpushed : (walk.push (walk.guard.withActive name) name).Valid index :=
    hvalid.push rfl hmem hnew
  refine hpushed.inStep ?_ ?_ h.maxDepth_eq
  · change walk.guard.depth + 1 = (walk.path ++ [name]).length
    rw [List.length_append, List.length_singleton, h.depth_eq]
  · exact h.maxDepth_eq ▸ hdepth

theorem InStep.pop (h : walk.InStep maxDepth) (hvalid : walk.Valid index)
    (hpath : walk.path = path ++ [name]) (hpop : walk.pop name = .ok popped) :
    popped.InStep maxDepth := by
  obtain ⟨_, hpop', hpopped, hrest, -⟩ := hvalid.pop hpath
  obtain rfl := Except.ok.inj (hpop.symm.trans hpop')
  have hdepth := h.depth_eq
  rw [hpath, List.length_append, List.length_singleton] at hdepth
  refine hpopped.inStep ?_ ?_ ?_
  · rw [hrest, pop_eq hpop]
    change walk.guard.depth - 1 = path.length
    omega
  · rw [pop_eq hpop]
    exact (Nat.sub_le _ _).trans h.depth_le
  · rw [pop_eq hpop]
    exact h.maxDepth_eq

/-- A call to the guard that finds the walk in step and leaves it so. It is never a misuse, and a
cycle is closed at a class of the path. -/
structure GuardUse.Balanced (maxDepth : Nat) (use : GuardUse) : Prop where
  before_inStep : use.before.InStep maxDepth
  after_inStep : use.after.InStep maxDepth
  perform_eq : use.before.guard.perform use.event.call = .ok (use.event, use.after.guard)
  mem_active_of_left : ∀ name, use.event = .left name → name ∈ use.before.guard.active
  mem_path_of_cycle : ∀ name, use.event = .asked name .cycle → name ∈ use.before.path

/-- A request that enters nothing is balanced. -/
theorem InStep.balanced_counted (h : walk.InStep maxDepth) {answer : Admission}
    (henter : walk.guard.enter name = (answer, walk.guard.count))
    (hcycle : answer = .cycle → name ∈ walk.path) :
    GuardUse.Balanced maxDepth ⟨walk, .asked name answer, walk.counted⟩ where
  before_inStep := h
  after_inStep := h.congr rfl rfl
  perform_eq := by
    change Except.ok (GuardEvent.asked name (walk.guard.enter name).1,
      (walk.guard.enter name).2) = _
    rw [henter]
    rfl
  mem_active_of_left := nofun
  mem_path_of_cycle := by
    rintro _ ⟨⟩
    exact hcycle rfl

/-! ### Logs -/

/-- The events of a log. -/
def eventsOf (log : List GuardUse) : List (GuardEvent QualifiedName) := log.map GuardUse.event

/-- The calls of a log. -/
def callsOf (log : List GuardUse) : List (GuardCall QualifiedName) :=
  log.map fun use => use.event.call

/-- The classes that are entered in a log. -/
def enteredIn (log : List GuardUse) : List QualifiedName :=
  log.filterMap fun use => use.event.entered?

theorem eventsOf_append (log later : List GuardUse) :
    eventsOf (log ++ later) = eventsOf log ++ eventsOf later := List.map_append

theorem callsOf_append (log later : List GuardUse) :
    callsOf (log ++ later) = callsOf log ++ callsOf later := List.map_append

theorem enteredIn_append (log later : List GuardUse) :
    enteredIn (log ++ later) = enteredIn log ++ enteredIn later := List.filterMap_append

/-- What the log of a part of a walk says: the calls are balanced, they make the guard what it is
afterwards, no class is entered twice, and all requests are paid for by classes that are entered or
fail. -/
structure Logged (index : ClassIndex) (maxDepth : Nat) (before : Walk) (log : List GuardUse)
    (after : Walk) : Prop where
  advances : before.Advances index after
  inStep : after.InStep maxDepth
  balanced : ∀ use ∈ log, use.Balanced maxDepth
  performAll_eq : before.guard.performAll (callsOf log) = .ok (eventsOf log, after.guard)
  entered_nodup : (enteredIn log).Nodup
  pending_of_entered : ∀ name ∈ enteredIn log,
    before.status name = .pending ∧ name ∉ before.path
  known_of_entered : ∀ name ∈ enteredIn log, after.status name ≠ .pending
  paid : requestCount (eventsOf log) + before.errors.length ≤
    (enteredIn log).length + after.errors.length

/-- A part of a walk without calls. -/
theorem Logged.refl (hvalid : walk.Valid index) (hstep : walk.InStep maxDepth) :
    Logged index maxDepth walk [] walk where
  advances := .refl hvalid
  inStep := hstep
  balanced := nofun
  performAll_eq := rfl
  entered_nodup := List.nodup_nil
  pending_of_entered := nofun
  known_of_entered := nofun
  paid := le_rfl

/-- Two parts of a walk, one after the other. -/
theorem Logged.append (h : Logged index maxDepth before log middle)
    (h' : Logged index maxDepth middle later after) :
    Logged index maxDepth before (log ++ later) after where
  advances := h.advances.trans h'.advances
  inStep := h'.inStep
  balanced use huse := (List.mem_append.mp huse).elim (h.balanced use) (h'.balanced use)
  performAll_eq := by
    rw [callsOf_append, eventsOf_append]
    exact Guard.performAll_append h.performAll_eq h'.performAll_eq
  entered_nodup := by
    rw [enteredIn_append]
    refine List.nodup_append.mpr ⟨h.entered_nodup, h'.entered_nodup, ?_⟩
    rintro name hname _ hlater rfl
    exact h.known_of_entered name hname (h'.pending_of_entered name hlater).1
  pending_of_entered := by
    rw [enteredIn_append]
    refine List.forall_mem_append.mpr ⟨h.pending_of_entered, fun name hname => ?_⟩
    obtain ⟨hpending, hnew⟩ := h'.pending_of_entered name hname
    -- What is pending now has been so before.
    refine ⟨by_contra fun hknown => hknown ?_, h.advances.path_eq ▸ hnew⟩
    rw [← h.advances.keeps name hknown, hpending]
  known_of_entered := by
    rw [enteredIn_append]
    refine List.forall_mem_append.mpr ⟨fun name hname => ?_, h'.known_of_entered⟩
    have hknown := h.known_of_entered name hname
    rwa [h'.advances.keeps name hknown]
  paid := by
    have hpaid := h.paid
    have hpaid' := h'.paid
    rw [eventsOf_append, requestCount_append, enteredIn_append, List.length_append]
    omega

/-- What happens to the classes after the last call does no harm to the log. -/
theorem Logged.extend (h : Logged index maxDepth before log middle)
    (hadvances : middle.Advances index after) (hguard : after.guard = middle.guard)
    (herrors : middle.errors.length ≤ after.errors.length) :
    Logged index maxDepth before log after := by
  have hrest : Logged index maxDepth middle [] after := by
    refine ⟨hadvances, h.inStep.congr ?_ hadvances.path_eq, nofun, ?_, List.nodup_nil, nofun, nofun,
      ?_⟩
    · rw [hguard]
    · rw [hguard]
      rfl
    · change 0 + _ ≤ 0 + _
      omega
  have hall := h.append hrest
  rwa [List.append_nil] at hall

/-- A request that enters nothing is paid for by the errors after it. -/
theorem Logged.counted (hstep : walk.InStep maxDepth)
    {answer : Admission} (henter : walk.guard.enter name = (answer, walk.guard.count))
    (hanswer : answer ≠ .entered) (hcycle : answer = .cycle → name ∈ walk.path)
    (hadvances : walk.counted.Advances index after) (hvalid : walk.Valid index)
    (hguard : after.guard = walk.guard.count)
    (herrors : walk.errors.length < after.errors.length) :
    Logged index maxDepth walk [⟨walk, .asked name answer, walk.counted⟩] after := by
  have hbalanced := hstep.balanced_counted henter hcycle
  have hnothing : enteredIn [⟨walk, .asked name answer, walk.counted⟩] = [] := by
    cases answer with
    | entered => exact absurd rfl hanswer
    | cycle | depthExceeded | iterationExceeded => rfl
  exact {
    advances := (hvalid.withGuard walk.guard.count rfl).trans hadvances
    inStep := hbalanced.after_inStep.congr (by rw [hguard]; rfl) hadvances.path_eq
    balanced := List.forall_mem_singleton.mpr hbalanced
    performAll_eq := by
      refine Guard.performAll_cons_eq_ok_iff.mpr
        ⟨.asked name answer, walk.guard.count, [], hbalanced.perform_eq, ?_, rfl⟩
      rw [hguard]
      rfl
    entered_nodup := by
      rw [hnothing]
      exact List.nodup_nil
    pending_of_entered := by
      rw [hnothing]
      exact nofun
    known_of_entered := by
      rw [hnothing]
      exact nofun
    paid := by
      rw [hnothing]
      change 1 + _ ≤ 0 + _
      omega }

/-- A class that is entered and left around a part of a walk is entered once, and known after. -/
theorem Logged.enclose (hstep : walk.InStep maxDepth) (hvalid : walk.Valid index)
    (hmem : name ∈ index.names) (hpending : walk.status name = .pending) (hnew : name ∉ walk.path)
    (hdepth : walk.guard.depth < walk.guard.maxDepth)
    (henter : walk.guard.enter name = (.entered, walk.guard.withActive name))
    (h : Logged index maxDepth (walk.push (walk.guard.withActive name) name) log inner)
    (hpop : inner.pop name = .ok popped) (hadvances : popped.Advances index after)
    (hguard : after.guard = popped.guard) (herrors : after.errors = popped.errors)
    (hknown : after.status name ≠ .pending) :
    Logged index maxDepth walk
      (⟨walk, .asked name .entered, walk.push (walk.guard.withActive name) name⟩ :: log ++
        [⟨inner, .left name, popped⟩]) after := by
  have hpath : inner.path = walk.path ++ [name] := h.advances.path_eq
  obtain ⟨_, hpop', hpopped, hrest, hsame⟩ := h.advances.valid.pop hpath
  obtain rfl := Except.ok.inj (hpop.symm.trans hpop')
  have hpushed := hstep.push hvalid hmem hnew hdepth
  have hleft : popped.InStep maxDepth := h.inStep.pop h.advances.valid hpath hpop
  have hactive : name ∈ inner.guard.active :=
    (h.inStep.mem_active_iff name).mpr (hpath ▸ List.mem_concat_self ..)
  have hleave : inner.guard.leave? name = .ok popped.guard := by
    rw [Guard.leave?, if_pos hactive, pop_eq hpop]
  have hfirst : walk.guard.perform (.enter name) =
      .ok (.asked name .entered, walk.guard.withActive name) := by
    change Except.ok (GuardEvent.asked name (walk.guard.enter name).1,
      (walk.guard.enter name).2) = _
    rw [henter]
  have hlast : inner.guard.perform (.leave name) = .ok (.left name, popped.guard) :=
    bind_eq_ok_iff.mpr ⟨popped.guard, hleave, rfl⟩
  -- The class itself is entered first, and then those inside.
  have hentered : enteredIn (⟨walk, .asked name .entered,
      walk.push (walk.guard.withActive name) name⟩ :: log ++ [⟨inner, .left name, popped⟩]) =
      name :: enteredIn log := by
    rw [enteredIn_append]
    exact List.append_nil _
  have hkept : ∀ other, inner.status other ≠ .pending → after.status other ≠ .pending := by
    intro other hother
    rw [← hsame] at hother
    rwa [hadvances.keeps other hother]
  exact {
    advances := by
      refine ⟨hadvances.valid, fun other hother => ?_, hadvances.path_eq.trans hrest⟩
      have hinner : inner.status other = walk.status other := h.advances.keeps other hother
      rw [hadvances.keeps other (by rwa [hsame, hinner]), hsame, hinner]
    inStep := hleft.congr (by rw [hguard]) hadvances.path_eq
    balanced := by
      refine List.forall_mem_append.mpr ⟨List.forall_mem_cons.mpr ⟨?_, h.balanced⟩,
        List.forall_mem_singleton.mpr ?_⟩
      · exact ⟨hstep, hpushed, hfirst, by rintro _ ⟨⟩, by rintro _ ⟨⟩⟩
      · refine ⟨h.inStep, hleft, hlast, ?_, by rintro _ ⟨⟩⟩
        rintro _ ⟨⟩
        exact hactive
    performAll_eq := by
      have hend : inner.guard.performAll [.leave name] = .ok ([.left name], after.guard) :=
        Guard.performAll_cons_eq_ok_iff.mpr ⟨_, _, [], hlast, by rw [hguard]; rfl, rfl⟩
      have hinside := Guard.performAll_append h.performAll_eq hend
      have hall := Guard.performAll_cons_eq_ok_iff.mpr ⟨_, _, _, hfirst, hinside, rfl⟩
      rw [callsOf_append, eventsOf_append]
      exact hall
    entered_nodup := by
      rw [hentered]
      refine List.nodup_cons.mpr ⟨fun hinside => ?_, h.entered_nodup⟩
      exact (h.pending_of_entered name hinside).2 (List.mem_concat_self ..)
    pending_of_entered := by
      rw [hentered]
      refine List.forall_mem_cons.mpr ⟨⟨hpending, hnew⟩, fun other hother => ?_⟩
      obtain ⟨hunknown, hoff⟩ := h.pending_of_entered other hother
      exact ⟨hunknown, fun hon => hoff (List.mem_append_left _ hon)⟩
    known_of_entered := by
      rw [hentered]
      exact List.forall_mem_cons.mpr ⟨hknown, fun other hother =>
        hkept other (h.known_of_entered other hother)⟩
    paid := by
      -- The class pays for its own request, and leaving it costs nothing.
      have hpaid : requestCount (eventsOf log) + walk.errors.length ≤
          (enteredIn log).length + inner.errors.length := h.paid
      have hcount : requestCount (eventsOf (⟨walk, .asked name .entered,
          walk.push (walk.guard.withActive name) name⟩ :: log ++ [⟨inner, .left name, popped⟩])) =
          requestCount (eventsOf log) + 1 := by
        rw [eventsOf_append, requestCount_append]
        exact requestCount_asked_cons name .entered (eventsOf log)
      rw [hentered, hcount, List.length_cons, herrors, pop_eq hpop]
      change _ ≤ _ + inner.errors.length
      omega }

/-! ### Visits -/

/-- What the log of a visit says. The request for a class that is refused is still to be paid for. -/
inductive LoggedVisited (index : ClassIndex) (maxDepth : Nat) (before : Walk)
    (name : QualifiedName) :
    Except Obstacle ClassScope → List GuardUse → Walk → Prop
  | refused {answer : Admission} (hpending : before.status name = .pending)
      (henter : before.guard.enter name = (answer, before.guard.count))
      (hanswer : answer ≠ .entered) (hcycle : answer ≠ .cycle) :
      LoggedVisited index maxDepth before name (.error .tooDeep)
        [⟨before, .asked name answer, before.counted⟩] before.counted
  | logged {outcome : Except Obstacle ClassScope} {log : List GuardUse} {after : Walk}
      (hlogged : Logged index maxDepth before log after) :
      LoggedVisited index maxDepth before name outcome log after

/-- A refused request is paid for once a class fails. -/
theorem logged_fail_counted (hstep : walk.InStep maxDepth) (hvalid : walk.Valid index)
    {answer : Admission} (henter : walk.guard.enter supertype = (answer, walk.guard.count))
    (hanswer : answer ≠ .entered) (hcycle : answer ≠ .cycle) (error : HierarchyError)
    (hmem : error.className ∈ index.names) (hpending : walk.status error.className = .pending) :
    Logged index maxDepth walk [⟨walk, .asked supertype answer, walk.counted⟩]
      (walk.counted.fail error) := by
  have hcounted := (hvalid.withGuard walk.guard.count rfl).valid
  refine .counted hstep henter hanswer (absurd · hcycle) (hcounted.fail hmem hpending) hvalid rfl ?_
  change _ < (walk.errors ++ [error]).length
  rw [List.length_append, List.length_singleton]
  exact Nat.lt_succ_self _

/-- After a supertype has given no scope, all requests of its visit are paid for. -/
theorem logged_failSupertype (hstep : walk.InStep maxDepth) (hvalid : walk.Valid index)
    (hpending : walk.PathPending) (hname : name ∈ walk.path) {obstacle reason : Obstacle}
    (hvisited : walk.Visited index supertype (.error obstacle) middle)
    (hlogged : LoggedVisited index maxDepth walk supertype (.error obstacle) log middle)
    (hfail : middle.failSupertype name supertype obstacle = (reason, after)) :
    Logged index maxDepth walk log after := by
  have hmem : name ∈ index.names := hvalid.path_subset hname
  cases hlogged with
  | refused hunknown henter hanswer hcycle =>
    have hstatus : walk.counted.status name = .pending := hpending name hname
    unfold failSupertype at hfail
    rw [hstatus] at hfail
    cases hfail
    exact logged_fail_counted hstep hvalid henter hanswer hcycle _ hmem hstatus
  | logged h =>
    have hlast : name ∈ middle.path := hvisited.advances.path_eq ▸ hname
    have hunbuilt := (hvisited.of_error obstacle rfl).1
    -- The class fails now, unless it has failed on a cycle.
    have hfails : ∀ error : HierarchyError, error.className = name →
        middle.status name = .pending → Logged index maxDepth walk log (middle.fail error) := by
      rintro error rfl hstatus
      refine h.extend (h.advances.valid.fail hmem hstatus) rfl ?_
      change _ ≤ (middle.errors ++ [error]).length
      rw [List.length_append]
      exact Nat.le_add_right _ _
    unfold failSupertype at hfail
    cases hstatus : middle.status name with
    | built scope => exact absurd hstatus (hunbuilt name hlast scope)
    | failed =>
      rw [hstatus] at hfail
      cases hfail
      exact h
    | pending =>
      rw [hstatus] at hfail
      cases obstacle with
      | tooDeep | cycle | unresolvable =>
        cases hfail
        exact hfails _ rfl hstatus

/-- The log of the visits of supertypes, if each visit has one. -/
theorem logged_visitSupertypes {visit : QualifiedName → LoggedVisit} (hname : name ∈ path)
    {supertypes : List QualifiedName}
    (hvisit : ∀ supertype ∈ supertypes, ∀ (walk : Walk) outcome after log, walk.Valid index →
      walk.PathPending → walk.path = path → walk.InStep maxDepth →
        visit supertype walk = .ok ((outcome, after), log) →
          walk.Visited index supertype outcome after ∧
            LoggedVisited index maxDepth walk supertype outcome log after)
    {scopes : List ClassScope} (hvalid : walk.Valid index) (hpending : walk.PathPending)
    (hpath : walk.path = path) (hstep : walk.InStep maxDepth)
    {outcome : Except Obstacle (List ClassScope)}
    (hrun : visitSupertypesLogged visit name supertypes scopes walk = .ok ((outcome, after), log)) :
    Logged index maxDepth walk log after := by
  induction supertypes generalizing scopes walk log with
  | nil =>
    cases hrun
    exact .refl hvalid hstep
  | cons supertype supertypes ih =>
    rw [visitSupertypesLogged] at hrun
    obtain ⟨⟨⟨found, middle⟩, first⟩, hfound, hrest⟩ := bind_eq_ok_iff.mp hrun
    obtain ⟨hvisited, hlogged⟩ := hvisit supertype List.mem_cons_self walk found middle first
      hvalid hpending hpath hstep hfound
    cases found with
    | ok scope =>
      obtain ⟨⟨result, later⟩, hlater, hend⟩ := bind_eq_ok_iff.mp hrest
      cases hend
      cases hlogged with
      | logged h =>
        exact h.append (ih (fun other hother => hvisit other (List.mem_cons_of_mem _ hother))
          h.advances.valid (hvisited.of_ok scope rfl).1 (h.advances.path_eq.trans hpath) h.inStep
          hlater)
    | error obstacle =>
      cases hfail : middle.failSupertype name supertype obstacle with
      | mk reason last =>
        simp only [hfail] at hrest
        cases hrest
        exact logged_failSupertype hstep hvalid hpending (hpath ▸ hname) hvisited hlogged hfail

/-- With a log as well, a visit gives a scope or an obstacle. -/
theorem visited_of_visitLogged {steps : Nat} (hvalid : walk.Valid index)
    (hpending : walk.PathPending) (hmem : name ∈ index.names)
    (hsteps : index.names.length < steps + walk.path.length)
    {outcome : Except Obstacle ClassScope}
    (hrun : visitLogged index steps name walk = .ok ((outcome, after), log)) :
    walk.Visited index name outcome after := by
  have hvisit : visit index steps name walk = .ok (outcome, after) := by
    rw [← map_fst_visitLogged]
    exact map_fst_eq_ok_iff.mpr ⟨log, hrun⟩
  obtain ⟨_, _, hvisit', hvisited⟩ := exists_visit steps hvalid hpending hmem hsteps
  obtain ⟨rfl, rfl⟩ := Prod.mk.inj (Except.ok.inj (hvisit'.symm.trans hvisit))
  exact hvisited

/-- The log of a visit that closes a cycle. -/
theorem logged_closeCycle (hstep : walk.InStep maxDepth) (hvalid : walk.Valid index)
    (hpending : walk.PathPending) (hname : name ∈ walk.path)
    (henter : walk.guard.enter name = (.cycle, walk.guard.count)) :
    Logged index maxDepth walk [⟨walk, .asked name .cycle, walk.counted⟩]
      (walk.counted.failAll (cycleErrors (walk.path.dropWhile (· ≠ name)))) := by
  have hcounted := (hvalid.withGuard walk.guard.count rfl).valid
  refine .counted hstep henter nofun (fun _ => hname) (hcounted.failCycle hpending name).1 hvalid
    (guard_failAll walk.counted _) ?_
  -- At least the class itself fails.
  have hcycle : 0 < (cycleErrors (walk.path.dropWhile (· ≠ name))).length := by
    rw [← List.length_map HierarchyError.className, map_className_cycleErrors]
    exact List.length_pos_of_mem (mem_dropWhile_ne hname)
  rw [errors_failAll, List.length_append]
  exact Nat.lt_add_of_pos_right hcycle

/-- The visit of a class that the guard lets in: its supertypes are visited between the two calls to
the guard, and if all of them have scopes, so has the class. -/
theorem visitLogged_of_entered {steps : Nat} {declaration : Declaration}
    (hstatus : walk.status name = .pending) (hget : index.get? name = some declaration)
    (henter : walk.guard.enter name = (.entered, walk.guard.withActive name))
    {outcome : Except Obstacle ClassScope}
    (hrun : visitLogged index (steps + 1) name walk = .ok ((outcome, after), log)) :
    ∃ found inner inside popped,
      visitSupertypesLogged (visitLogged index steps) name (index.supertypes declaration) []
        (walk.push (walk.guard.withActive name) name) = .ok ((found, inner), inside) ∧
      inner.pop name = .ok popped ∧
      log = ⟨walk, .asked name .entered, walk.push (walk.guard.withActive name) name⟩ :: inside ++
        [⟨inner, .left name, popped⟩] ∧
      ((∃ obstacle, found = .error obstacle ∧ after = popped) ∨
        ∃ scopes, found = .ok scopes ∧
          after = popped.setStatus name (.built ⟨name, declaration, scopes⟩)) := by
  rw [visitLogged, hstatus] at hrun
  simp only [hget, henter] at hrun
  obtain ⟨⟨⟨found, inner⟩, inside⟩, hfound, hrest⟩ := bind_eq_ok_iff.mp hrun
  obtain ⟨popped, hpop, hend⟩ := bind_eq_ok_iff.mp hrest
  cases found with
  | error obstacle =>
    cases hend
    exact ⟨_, inner, inside, _, hfound, hpop, rfl, .inl ⟨obstacle, rfl, rfl⟩⟩
  | ok scopes =>
    cases hend
    exact ⟨_, inner, inside, popped, hfound, hpop, rfl, .inr ⟨scopes, rfl, rfl⟩⟩

/-- The log of a visit of a class that the guard lets in, if the visits of its supertypes have
one. -/
theorem logged_of_entered {steps : Nat} {declaration : Declaration}
    (hstep : walk.InStep maxDepth) (hvalid : walk.Valid index) (hpending : walk.PathPending)
    (hmem : name ∈ index.names) (hstatus : walk.status name = .pending) (hnew : name ∉ walk.path)
    (hsteps : index.names.length < steps + 1 + walk.path.length)
    (hdepth : walk.guard.depth < walk.guard.maxDepth) (hget : index.get? name = some declaration)
    (henter : walk.guard.enter name = (.entered, walk.guard.withActive name))
    (hvisit : ∀ supertype ∈ index.supertypes declaration, ∀ (inner : Walk) outcome after log,
      inner.Valid index → inner.PathPending → inner.path = walk.path ++ [name] →
        inner.InStep maxDepth →
          visitLogged index steps supertype inner = .ok ((outcome, after), log) →
            LoggedVisited index maxDepth inner supertype outcome log after)
    {outcome : Except Obstacle ClassScope}
    (hrun : visitLogged index (steps + 1) name walk = .ok ((outcome, after), log)) :
    Logged index maxDepth walk log after := by
  obtain ⟨found, inner, inside, popped, hfound, hpop, rfl, hend⟩ :=
    visitLogged_of_entered hstatus hget henter hrun
  have hpushed : (walk.push (walk.guard.withActive name) name).Valid index :=
    hvalid.push rfl hmem hnew
  have hopen : (walk.push (walk.guard.withActive name) name).PathPending :=
    List.forall_mem_append.mpr ⟨hpending, List.forall_mem_singleton.mpr hstatus⟩
  have hlength : ∀ inner : Walk, inner.path = walk.path ++ [name] →
      index.names.length < steps + inner.path.length := by
    intro inner hpath
    rw [hpath, List.length_append, List.length_singleton]
    omega
  have hknown : ∀ supertype ∈ index.supertypes declaration, supertype ∈ index.names :=
    fun supertype hsupertype => (ClassIndex.mem_supertypes.mp hsupertype).2
  -- The supertypes are visited as without a log, which tells what is known of the class then.
  have hplain : visitSupertypes (visit index steps) name (index.supertypes declaration) []
      (walk.push (walk.guard.withActive name) name) = .ok (found, inner) := by
    rw [← map_fst_visitSupertypesLogged (map_fst_visitLogged steps)]
    exact map_fst_eq_ok_iff.mpr ⟨inside, hfound⟩
  obtain ⟨_, _, hplain', hall⟩ := exists_visitSupertypes (List.mem_concat_self ..)
    (index.supertypes declaration) (fun supertype hsupertype inner hinner hopen hpath =>
      exists_visit steps hinner hopen (hknown supertype hsupertype) (hlength inner hpath)) []
    hpushed hopen rfl
  obtain ⟨rfl, rfl⟩ := Prod.mk.inj (Except.ok.inj (hplain.symm.trans hplain'))
  have hlogged : Logged index maxDepth _ inside _ := logged_visitSupertypes
    (List.mem_concat_self ..) (fun supertype hsupertype inner outcome after log hinner hopen hpath
      hinnerStep hrun => ⟨visited_of_visitLogged hinner hopen (hknown supertype hsupertype)
        (hlength inner hpath) hrun, hvisit supertype hsupertype inner outcome after log hinner hopen
          hpath hinnerStep hrun⟩) hpushed hopen rfl (hstep.push hvalid hmem hnew hdepth) hfound
  obtain ⟨_, hpop', hpopped, hpath, hsame⟩ := hlogged.advances.valid.pop hlogged.advances.path_eq
  obtain rfl := Except.ok.inj (hpop.symm.trans hpop')
  rcases hend with ⟨obstacle, rfl, rfl⟩ | ⟨scopes, rfl, rfl⟩
  · refine hlogged.enclose hstep hvalid hmem hstatus hnew hdepth henter hpop (.refl hpopped) rfl rfl
      ?_
    rw [hsame, (hall.of_error obstacle rfl).2]
    nofun
  · obtain ⟨hstill, more, hmore, hbuilt⟩ := hall.of_ok scopes rfl
    rw [List.nil_append] at hmore
    subst hmore
    have hlast : popped.status name = .pending := by
      rw [hsame]
      exact hstill name (hlogged.advances.path_eq ▸ List.mem_concat_self ..)
    have hmade : popped.Made index ⟨name, declaration, scopes⟩ := ⟨hget, hsame ▸ hbuilt⟩
    have hbuild := hpopped.build hmem hlast hmade
    refine hlogged.enclose hstep hvalid hmem hstatus hnew hdepth henter hpop hbuild rfl rfl ?_
    rw [status_setStatus (hpopped.names_eq ▸ hmem), if_pos rfl]
    nofun

/-- The log of a visit, if its steps are enough for a path through all classes. -/
theorem loggedVisited (steps : Nat) (hvalid : walk.Valid index) (hpending : walk.PathPending)
    (hstep : walk.InStep maxDepth) (hmem : name ∈ index.names)
    (hsteps : index.names.length < steps + walk.path.length)
    {outcome : Except Obstacle ClassScope}
    (hrun : visitLogged index steps name walk = .ok ((outcome, after), log)) :
    LoggedVisited index maxDepth walk name outcome log after := by
  induction steps generalizing name walk outcome after log with
  | zero => cases hrun
  | succ steps ih =>
    have hwhole := hrun
    rw [visitLogged] at hrun
    cases hstatus : walk.status name with
    | built scope =>
      rw [hstatus] at hrun
      cases hrun
      exact .logged (.refl hvalid hstep)
    | failed =>
      rw [hstatus] at hrun
      cases hrun
      exact .logged (.refl hvalid hstep)
    | pending =>
      obtain ⟨declaration, hget⟩ := Option.isSome_iff_exists.mp (ClassIndex.mem_names_iff.mp hmem)
      rw [hstatus] at hrun
      simp only [hget] at hrun
      rcases walk.guard.enter_cases name with ⟨-, henter⟩ | ⟨hactive, henter⟩ | ⟨-, henter⟩ |
        ⟨hactive, hdepth, henter⟩
      · simp only [henter] at hrun
        cases hrun
        exact .refused hstatus henter (by decide) (by rintro ⟨⟩)
      · simp only [henter] at hrun
        have hname : name ∈ walk.counted.path := (hstep.mem_active_iff name).mp hactive
        obtain ⟨closed, hclose, hend⟩ := bind_eq_ok_iff.mp hrun
        change walk.counted.closeCycle name = _ at hclose
        rw [closeCycle_eq hname] at hclose
        cases hclose
        cases hend
        exact .logged (logged_closeCycle hstep hvalid hpending hname henter)
      · simp only [henter] at hrun
        cases hrun
        exact .refused hstatus henter (by decide) (by rintro ⟨⟩)
      · have hnew : name ∉ walk.path := mt (hstep.mem_active_iff name).mpr hactive
        refine .logged (logged_of_entered hstep hvalid hpending hmem hstatus hnew hsteps hdepth hget
          henter ?_ hwhole)
        intro supertype hsupertype inner outcome after log hinner hopen hpath hinnerStep hrun
        refine ih hinner hopen hinnerStep (ClassIndex.mem_supertypes.mp hsupertype).2 ?_ hrun
        rw [hpath, List.length_append, List.length_singleton]
        omega

/-! ### Runs -/

/-- The log of a visit from outside. All its requests are paid for. -/
theorem logged_visitRoot (hvalid : walk.Valid index) (hpath : walk.path = [])
    (hstep : walk.InStep maxDepth) (hmem : name ∈ index.names)
    (hrun : visitRootLogged index walk name = .ok (after, log)) :
    Logged index maxDepth walk log after := by
  have hpending : walk.PathPending := by simp [PathPending, hpath]
  have hsteps : index.names.length < index.classes.length + 1 + walk.path.length := by
    rw [length_names]
    omega
  obtain ⟨⟨⟨outcome, last⟩, uses⟩, hvisit, hend⟩ := bind_eq_ok_iff.mp hrun
  have hlogged : LoggedVisited index maxDepth walk name outcome uses last :=
    loggedVisited _ hvalid hpending hstep hmem hsteps hvisit
  cases hlogged with
  | refused hunknown henter hanswer hcycle =>
    have hstatus : walk.counted.status name = .pending := hunknown
    simp only [hstatus] at hend
    cases hend
    exact logged_fail_counted hstep hvalid henter hanswer hcycle _ hmem hunknown
  | logged h =>
    dsimp only at hend
    split at hend
    · rename_i hstatus
      cases hend
      refine h.extend (h.advances.valid.fail hmem hstatus) rfl ?_
      change _ ≤ (last.errors ++ [_]).length
      rw [List.length_append]
      exact Nat.le_add_right _ _
    · cases hend
      exact h

theorem inStep_start (index : ClassIndex) (maxDepth : Nat) :
    (start index maxDepth).InStep maxDepth :=
  (valid_start index maxDepth).inStep rfl (Nat.zero_le _) rfl

/-- What the log of a whole run for `count` classes says. -/
structure BalancedRun (count maxDepth : Nat) (start : Walk) (log : List GuardUse) (walk : Walk) :
    Prop where
  balanced : ∀ use ∈ log, use.Balanced maxDepth
  /-- The calls of the log are all the calls that the guard has had. -/
  performAll_eq : start.guard.performAll (callsOf log) = .ok (eventsOf log, walk.guard)
  active_eq_nil : walk.guard.active = []
  close?_eq : walk.guard.close? = .ok ()
  entered_nodup : (enteredIn log).Nodup
  requests_le : requestCount (eventsOf log) ≤ 2 * count
  never_exceeded : count ≤ 500000 →
    ∀ use ∈ log, ∀ name, use.event ≠ .asked name .iterationExceeded

/-- Each class is paid for twice at most: when it is entered and when it fails. -/
theorem Logged.requestCount_le (h : Logged index maxDepth (start index maxDepth) log walk) :
    requestCount (eventsOf log) ≤ 2 * index.names.length := by
  have hentered : (enteredIn log).length ≤ index.names.length :=
    (List.subperm_of_subset h.entered_nodup fun name hname =>
      h.advances.valid.mem_names (h.known_of_entered name hname)).length_le
  have herrors : (walk.errors.map HierarchyError.className).length ≤ index.names.length := by
    refine (List.subperm_of_subset h.advances.valid.errors_nodup fun name hname => ?_).length_le
    refine h.advances.valid.mem_names ?_
    rw [(h.advances.valid.failed_iff name).mpr hname]
    nofun
  have hpaid := h.paid
  change _ + 0 ≤ _ at hpaid
  rw [List.length_map] at herrors
  omega

/-- The limit on requests is out of reach for a list that is not too long. -/
theorem Logged.never_exceeded (h : Logged index maxDepth (start index maxDepth) log walk)
    (hsmall : index.names.length ≤ 500000) {use : GuardUse} (huse : use ∈ log)
    (name : QualifiedName) : use.event ≠ .asked name .iterationExceeded := by
  intro hevent
  have hmem : use.event ∈ eventsOf log := List.mem_map_of_mem huse
  obtain ⟨earlier, rest, hsplit⟩ := List.append_of_mem hmem
  rw [hevent] at hsplit
  have htracks : Guard.Tracks maxDepth Guard.hierarchyIterations [] (start index maxDepth).guard :=
    Guard.tracks_nil maxDepth Guard.hierarchyIterations
  have hanswer := (htracks.performAll h.performAll_eq).2.2 earlier name _ rest hsplit
  have hexceeded := (Guard.ruling_eq_iterationExceeded_iff.mp hanswer.symm).1
  have hcount := h.requestCount_le
  rw [hsplit, requestCount_append, requestCount_asked_cons] at hcount
  rw [Guard.hierarchyIterations, List.nil_append] at hexceeded
  omega

/-- A run has a log, and the log is that of a balanced run. -/
theorem exists_runLogged (index : ClassIndex) (maxDepth : Nat) :
    ∃ walk log, runLogged index maxDepth = .ok (walk, log) ∧
      BalancedRun index.names.length maxDepth (start index maxDepth) log walk := by
  obtain ⟨⟨walk, log⟩, hfold, hbetween, hlogged⟩ := foldlM_induction
    (motive := fun done logged => logged.1.Between index done ∧
      Logged index maxDepth (start index maxDepth) logged.2 logged.1)
    (f := extendLog index) (s := (start index maxDepth, []))
    ⟨between_start index maxDepth, .refl (valid_start index maxDepth) (inStep_start index maxDepth)⟩
    index.names (by
      rintro done root rest ⟨before, log⟩ hsplit ⟨hbefore, hlogged⟩
      have hmem : root ∈ index.names := hsplit ▸ List.mem_append_cons_self
      obtain ⟨after, hvisit, hafter⟩ := hbefore.exists_visitRoot hmem
      rw [← map_fst_visitRootLogged] at hvisit
      obtain ⟨later, hlater⟩ := map_fst_eq_ok_iff.mp hvisit
      have hroot := logged_visitRoot hbefore.valid hbefore.path_eq hlogged.inStep hmem hlater
      exact ⟨(after, log ++ later), bind_eq_ok_iff.mpr ⟨_, hlater, rfl⟩, hafter,
        hlogged.append hroot⟩)
  have hactive : walk.guard.active = [] := by
    rw [hbetween.valid.active_eq, hbetween.path_eq, List.reverse_nil]
  have hclose : walk.guard.close? = .ok () := by rw [Guard.close?, hactive]; rfl
  refine ⟨walk, log, bind_eq_ok_iff.mpr ⟨_, hfold, by simp only [hclose]; rfl⟩, ?_⟩
  exact {
    balanced := hlogged.balanced
    performAll_eq := hlogged.performAll_eq
    active_eq_nil := hactive
    close?_eq := hclose
    entered_nodup := hlogged.entered_nodup
    requests_le := hlogged.requestCount_le
    never_exceeded := fun hsmall use huse name => hlogged.never_exceeded hsmall huse name }

end Walk

namespace Hierarchy

/-- The walk for a list of classes ends without a fault, whatever the limit on the depth. At each
call to its guard the guard is visiting the classes of the path, as deep as the path is long and no
deeper than the limit; only classes that are being visited are left, cycles are closed on the path,
and nothing is being visited at the end. Each class is entered at most once, the requests are at
most twice as many as the classes, and up to 500000 classes never exceed the limit on requests. -/
theorem walksInBalance (classes : List (QualifiedName × Declaration)) (maxDepth : Nat) :
    ∃ walk log, Walk.runLogged (.ofList classes) maxDepth = .ok (walk, log) ∧
      Walk.run (.ofList classes) maxDepth = .ok walk ∧
      ofClasses classes maxDepth = (⟨walk.scopes⟩, walk.errors) ∧
      Walk.BalancedRun (classNames classes).eraseDups.length maxDepth
        (Walk.start (.ofList classes) maxDepth) log walk := by
  obtain ⟨walk, log, hlogged, hbalanced⟩ := Walk.exists_runLogged (.ofList classes) maxDepth
  have hrun : Walk.run (.ofList classes) maxDepth = .ok walk := by
    rw [← Walk.map_fst_runLogged]
    exact Walk.map_fst_eq_ok_iff.mpr ⟨log, hlogged⟩
  rw [ClassIndex.names_ofList] at hbalanced
  exact ⟨walk, log, hlogged, hrun, by rw [ofClasses, hrun], hbalanced⟩

end Hierarchy

end DeclMerge
