import DeclMerge.Hierarchy.Walk
import DeclMerge.Proofs.Hierarchy.ActiveKeys

/-!
# The log of a walk

A walk can be made to write down each call to its guard, with the walk at that moment. The log is
only read afterwards: without it the walk is the same.

## Main definitions

* `Walk.GuardUse` — a call to the guard, and the walk around it
* `Walk.visitLogged`, `Walk.runLogged` — visits and runs with their logs

## Main results

* `Walk.map_fst_visitLogged`, `Walk.map_fst_runLogged` — without the log they are visits and runs
-/

namespace DeclMerge.Walk

/-- A call to the guard: the walk that makes it, what comes of it, and the walk as soon as its path
has followed the guard. -/
structure GuardUse where
  before : Walk
  event : GuardEvent QualifiedName
  after : Walk

/-- A visit with the calls that it makes to the guard. -/
abbrev LoggedVisit :=
  Walk → Except WalkFault ((Except Obstacle ClassScope × Walk) × List GuardUse)

/-- The visits of the supertypes of a class, with all their calls to the guard. -/
def visitSupertypesLogged (visit : QualifiedName → LoggedVisit) (name : QualifiedName) :
    List QualifiedName → List ClassScope → Walk →
      Except WalkFault ((Except Obstacle (List ClassScope) × Walk) × List GuardUse)
  | [], scopes, walk => .ok ((.ok scopes, walk), [])
  | supertype :: supertypes, scopes, walk => do
    match ← visit supertype walk with
    | ((.ok scope, walk), log) =>
      let (result, later) ← visitSupertypesLogged visit name supertypes (scopes ++ [scope]) walk
      return (result, log ++ later)
    | ((.error obstacle, walk), log) =>
      let (obstacle, walk) := walk.failSupertype name supertype obstacle
      return ((.error obstacle, walk), log)

/-- The visit of a class, with its calls to the guard. -/
def visitLogged (index : ClassIndex) : Nat → QualifiedName → LoggedVisit
  | 0, _, _ => .error .outOfSteps
  | steps + 1, name, walk =>
    match walk.status name with
    | .built scope => .ok ((.ok scope, walk), [])
    | .failed => .ok ((.error .unresolvable, walk), [])
    | .pending =>
      match index.get? name with
      | none => .error .unknownClass
      | some declaration =>
        match walk.guard.enter name with
        | (.cycle, guard) => do
          let counted := { walk with guard }
          let closed ← counted.closeCycle name
          return ((.error .cycle, closed), [⟨walk, .asked name .cycle, counted⟩])
        | (.depthExceeded, guard) =>
          let counted := { walk with guard }
          .ok ((.error .tooDeep, counted), [⟨walk, .asked name .depthExceeded, counted⟩])
        | (.iterationExceeded, guard) =>
          let counted := { walk with guard }
          .ok ((.error .tooDeep, counted), [⟨walk, .asked name .iterationExceeded, counted⟩])
        | (.entered, guard) => do
          let pushed := walk.push guard name
          let ((outcome, inner), log) ← visitSupertypesLogged (visitLogged index steps) name
            (index.supertypes declaration) [] pushed
          let popped ← inner.pop name
          let log := ⟨walk, .asked name .entered, pushed⟩ :: log ++ [⟨inner, .left name, popped⟩]
          match outcome with
          | .error obstacle => return ((.error obstacle, popped), log)
          | .ok scopes =>
            let scope : ClassScope := ⟨name, declaration, scopes⟩
            return ((.ok scope, popped.setStatus name (.built scope)), log)

/-- The visit of a class from outside the walk, with its calls to the guard. -/
def visitRootLogged (index : ClassIndex) (walk : Walk) (name : QualifiedName) :
    Except WalkFault (Walk × List GuardUse) := do
  let ((outcome, walk), log) ← visitLogged index (index.classes.length + 1) name walk
  match outcome, walk.status name with
  | .error .tooDeep, .pending =>
    return (walk.fail (.hierarchyTooDeep name walk.guard.maxDepth), log)
  | _, _ => return (walk, log)

/-- One more visit from outside, with the log so far. -/
def extendLog (index : ClassIndex) (logged : Walk × List GuardUse) (name : QualifiedName) :
    Except WalkFault (Walk × List GuardUse) := do
  let (walk, later) ← visitRootLogged index logged.1 name
  return (walk, logged.2 ++ later)

/-- A run, with all its calls to the guard. -/
def runLogged (index : ClassIndex) (maxDepth : Nat) :
    Except WalkFault (Walk × List GuardUse) := do
  let logged ← index.names.foldlM (extendLog index) (start index maxDepth, [])
  match logged.1.guard.close? with
  | .ok () => return logged
  | .error misuse => .error (.guardMisuse misuse)

variable {index : ClassIndex}

/-- What has a log goes as well without it. -/
theorem map_fst_eq_ok_iff {ε α β : Type} {x : Except ε (α × β)} {a : α} :
    x.map Prod.fst = .ok a ↔ ∃ b, x = .ok (a, b) := by
  cases x with
  | error e => simp [Except.map]
  | ok pair =>
    obtain ⟨a', b⟩ := pair
    simp [Except.map]

theorem map_fst_visitSupertypesLogged {visit : QualifiedName → Visit}
    {visitLogged : QualifiedName → LoggedVisit}
    (hvisit : ∀ name walk, (visitLogged name walk).map Prod.fst = visit name walk)
    (name : QualifiedName) (supertypes : List QualifiedName) (scopes : List ClassScope)
    (walk : Walk) :
    (visitSupertypesLogged visitLogged name supertypes scopes walk).map Prod.fst =
      visitSupertypes visit name supertypes scopes walk := by
  induction supertypes generalizing scopes walk with
  | nil => rfl
  | cons supertype supertypes ih =>
    rw [visitSupertypesLogged, visitSupertypes, ← hvisit]
    cases visitLogged supertype walk with
    | error fault => rfl
    | ok result =>
      obtain ⟨⟨outcome, middle⟩, log⟩ := result
      cases outcome with
      | error obstacle => rfl
      | ok scope =>
        have hrest := ih (scopes ++ [scope]) middle
        change Except.map Prod.fst (visitSupertypesLogged visitLogged name supertypes
          (scopes ++ [scope]) middle >>= _) = visitSupertypes visit name supertypes _ middle
        rw [← hrest]
        cases visitSupertypesLogged visitLogged name supertypes (scopes ++ [scope]) middle <;> rfl

/-- A visit is the same with a log. -/
theorem map_fst_visitLogged (steps : Nat) (name : QualifiedName) (walk : Walk) :
    (visitLogged index steps name walk).map Prod.fst = visit index steps name walk := by
  induction steps generalizing name walk with
  | zero => rfl
  | succ steps ih =>
    rw [visitLogged, visit]
    cases walk.status name with
    | built scope => rfl
    | failed => rfl
    | pending =>
      cases index.get? name with
      | none => rfl
      | some declaration =>
        obtain ⟨answer, guard⟩ := walk.guard.enter name
        cases answer with
        | cycle =>
          simp only
          cases ({ walk with guard } : Walk).closeCycle name <;> rfl
        | depthExceeded => rfl
        | iterationExceeded => rfl
        | entered =>
          simp only
          rw [← map_fst_visitSupertypesLogged ih]
          cases visitSupertypesLogged (visitLogged index steps) name
            (index.supertypes declaration) [] (walk.push guard name) with
          | error fault => rfl
          | ok result =>
            obtain ⟨⟨outcome, inner⟩, log⟩ := result
            simp only [Except.map, bind, Except.bind]
            cases inner.pop name with
            | error fault => rfl
            | ok popped => cases outcome <;> rfl

theorem map_fst_visitRootLogged (walk : Walk) (name : QualifiedName) :
    (visitRootLogged index walk name).map Prod.fst = visitRoot index walk name := by
  rw [visitRootLogged, visitRoot, ← map_fst_visitLogged]
  cases visitLogged index (index.classes.length + 1) name walk with
  | error fault => rfl
  | ok result =>
    obtain ⟨⟨outcome, after⟩, log⟩ := result
    simp only [Except.map, bind, Except.bind]
    cases outcome with
    | ok scope => cases after.status name <;> rfl
    | error obstacle => cases after.status name <;> cases obstacle <;> rfl

theorem map_fst_foldlM_extendLog (names : List QualifiedName) (logged : Walk × List GuardUse) :
    (names.foldlM (extendLog index) logged).map Prod.fst =
      names.foldlM (visitRoot index) logged.1 := by
  induction names generalizing logged with
  | nil => rfl
  | cons name names ih =>
    rw [List.foldlM_cons, List.foldlM_cons, ← map_fst_visitRootLogged, extendLog]
    cases visitRootLogged index logged.1 name with
    | error fault => rfl
    | ok result => exact ih (result.1, logged.2 ++ result.2)

/-- A run is the same with a log. -/
theorem map_fst_runLogged (index : ClassIndex) (maxDepth : Nat) :
    (runLogged index maxDepth).map Prod.fst = run index maxDepth := by
  rw [runLogged, run, ← map_fst_foldlM_extendLog index.names (start index maxDepth, [])]
  cases index.names.foldlM (extendLog index) (start index maxDepth, []) with
  | error fault => rfl
  | ok logged =>
    simp only [Except.map, bind, Except.bind]
    cases logged.1.guard.close? <;> rfl

end DeclMerge.Walk
