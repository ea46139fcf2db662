import DeclMerge.Hierarchy.Error
import DeclMerge.Hierarchy.Guard
import DeclMerge.Member.ClassScope

/-!
# Walking along supertypes

The scopes of a list of classes are built by one walk along the supertypes, depth first: a scope
is made once the scopes of all supertypes in the list exist. A class on a cycle of supertypes, a
class whose chain of supertypes is too long, and every class that inherits from one of these fail
with an error.

## Main definitions

* `ClassIndex` — the classes of a list, by name
* `Status` — what is known of a class during the walk
* `Walk` — the state of the walk
* `Walk.visit` — the scope of one class
* `Walk.run` — the state after all classes have been visited
-/

namespace DeclMerge

/-- Classes by name, in order of first appearance, each name once. -/
structure ClassIndex where
  classes : List (QualifiedName × Declaration)

namespace ClassIndex

/-- The first class of each name in a list of declarations. -/
def ofList (declarations : List (QualifiedName × Declaration)) : ClassIndex :=
  ⟨declarations.foldl
    (fun classes entry =>
      if entry.2.isClass && !classes.any (fun known => known.1 = entry.1) then classes ++ [entry]
      else classes) []⟩

/-- The names of the classes. -/
def names (index : ClassIndex) : List QualifiedName := index.classes.map Prod.fst

/-- The class with a name. -/
def get? (index : ClassIndex) (name : QualifiedName) : Option Declaration :=
  index.classes.lookup name

/-- The direct supertypes of a class that are in the index, in order and with repetitions. -/
def supertypes (index : ClassIndex) (declaration : Declaration) : List QualifiedName :=
  declaration.superclassifiers.filter fun name => (index.get? name).isSome

end ClassIndex

/-- What is known of a class during the walk. -/
inductive Status where
  | pending
  | built (scope : ClassScope)
  | failed

/-- Why the walk gives no scope for a class. -/
inductive Obstacle where
  | cycle | tooDeep | unresolvable
deriving DecidableEq, Repr

/-- What a walk never does. -/
inductive WalkFault where
  | guardMisuse (misuse : GuardMisuse)
  | offPath
  | unknownClass
  | outOfSteps

/-- The state of the walk: what is known of each class, the guard, the classes being visited from
the first one on, and the errors so far. -/
structure Walk where
  statuses : List (QualifiedName × Status)
  guard : Guard QualifiedName
  path : List QualifiedName := []
  errors : List HierarchyError := []

namespace Walk

/-- What is known of a class. -/
def status (walk : Walk) (name : QualifiedName) : Status :=
  (walk.statuses.lookup name).getD .pending

/-- The statuses with another one for a class. -/
def setStatusIn (name : QualifiedName) (status : Status) :
    List (QualifiedName × Status) → List (QualifiedName × Status)
  | [] => []
  | (n, s) :: statuses =>
    if n = name then (n, status) :: statuses else (n, s) :: setStatusIn name status statuses

/-- The walk with something else known of a class. -/
def setStatus (walk : Walk) (name : QualifiedName) (status : Status) : Walk :=
  { walk with statuses := setStatusIn name status walk.statuses }

/-- The walk after a class has failed with an error. -/
def fail (walk : Walk) (error : HierarchyError) : Walk :=
  { walk.setStatus error.className .failed with errors := walk.errors ++ [error] }

/-- The rotations of a list, each with the element that it starts with: of `seen ++ rest`, those
that start in `rest`. -/
def rotations (seen : List QualifiedName) :
    List QualifiedName → List (QualifiedName × List QualifiedName)
  | [] => []
  | name :: rest => (name, name :: rest ++ seen) :: rotations (seen ++ [name]) rest

/-- The walk after the path has come back to `name`: every class on the path from there on fails,
with the cycle as it looks from that class. -/
def closeCycle (walk : Walk) (name : QualifiedName) : Except WalkFault Walk :=
  if name ∈ walk.path then
    let cycle := walk.path.dropWhile (· ≠ name)
    .ok ((rotations [] cycle).foldl
      (fun walk rotation => walk.fail (.cyclicSupertypes rotation.1 rotation.2)) walk)
  else .error .offPath

/-- The scope of a class or the reason why there is none, and the walk afterwards. -/
abbrev Visit := Walk → Except WalkFault (Except Obstacle ClassScope × Walk)

/-- The walk after a supertype of `name` has given no scope, and the reason why `name` has none.
A class that has failed already, on a cycle, is not reported again. -/
def failSupertype (walk : Walk) (name supertype : QualifiedName) (obstacle : Obstacle) :
    Obstacle × Walk :=
  match walk.status name with
  -- The class is on a cycle, which has been reported for all its classes.
  | .failed => (obstacle, walk)
  | _ =>
    match obstacle with
    | .tooDeep => (.tooDeep, walk.fail (.hierarchyTooDeep name walk.guard.maxDepth))
    | .cycle | .unresolvable =>
      (.unresolvable, walk.fail (.unresolvableSupertype name supertype))

/-- Visits the supertypes of `name` one after the other, up to the first that has no scope. -/
def visitSupertypes (visit : QualifiedName → Visit) (name : QualifiedName) :
    List QualifiedName → List ClassScope → Walk →
      Except WalkFault (Except Obstacle (List ClassScope) × Walk)
  | [], scopes, walk => .ok (.ok scopes, walk)
  | supertype :: supertypes, scopes, walk => do
    match ← visit supertype walk with
    | (.ok scope, walk) => visitSupertypes visit name supertypes (scopes ++ [scope]) walk
    | (.error obstacle, walk) =>
      let (obstacle, walk) := walk.failSupertype name supertype obstacle
      return (.error obstacle, walk)

/-- Begins the visit of a class. -/
def push (walk : Walk) (guard : Guard QualifiedName) (name : QualifiedName) : Walk :=
  { walk with guard, path := walk.path ++ [name] }

/-- Ends the visit of a class. -/
def pop (walk : Walk) (name : QualifiedName) : Except WalkFault Walk :=
  match walk.guard.leave? name with
  | .ok guard => .ok { walk with guard, path := walk.path.dropLast }
  | .error misuse => .error (.guardMisuse misuse)

/-- Visits a class: what is known of it is the answer; otherwise its supertypes are visited, unless
the guard refuses. The first argument bounds the length of the path. -/
def visit (index : ClassIndex) : Nat → QualifiedName → Visit
  | 0, _, _ => .error .outOfSteps
  | steps + 1, name, walk =>
    match walk.status name with
    | .built scope => .ok (.ok scope, walk)
    | .failed => .ok (.error .unresolvable, walk)
    | .pending =>
      match index.get? name with
      | none => .error .unknownClass
      | some declaration =>
        match walk.guard.enter name with
        | (.cycle, guard) => do
          let walk ← { walk with guard }.closeCycle name
          return (.error .cycle, walk)
        -- Nothing is decided about the class itself: it can still be visited from outside.
        | (.depthExceeded, guard) | (.iterationExceeded, guard) =>
          .ok (.error .tooDeep, { walk with guard })
        | (.entered, guard) => do
          let (outcome, walk) ← visitSupertypes (visit index steps) name
            (index.supertypes declaration) [] (walk.push guard name)
          let walk ← walk.pop name
          match outcome with
          | .error obstacle => return (.error obstacle, walk)
          | .ok scopes =>
            let scope : ClassScope := ⟨name, declaration, scopes⟩
            return (.ok scope, walk.setStatus name (.built scope))

/-- Visits a class from outside the walk. A class that could not even be entered is too deep. -/
def visitRoot (index : ClassIndex) (walk : Walk) (name : QualifiedName) :
    Except WalkFault Walk := do
  let (outcome, walk) ← visit index (index.classes.length + 1) name walk
  match outcome, walk.status name with
  | .error .tooDeep, .pending => return walk.fail (.hierarchyTooDeep name walk.guard.maxDepth)
  | _, _ => return walk

/-- The walk before any visit. -/
def start (index : ClassIndex) (maxDepth : Nat) : Walk :=
  { statuses := index.names.map fun name => (name, .pending)
    guard := .forClasses QualifiedName maxDepth }

/-- Visits all classes in order, and puts the guard away. -/
def run (index : ClassIndex) (maxDepth : Nat) : Except WalkFault Walk := do
  let walk ← index.names.foldlM (visitRoot index) (start index maxDepth)
  match walk.guard.close? with
  | .ok () => return walk
  | .error misuse => .error (.guardMisuse misuse)

/-- The scopes that have been built, in the order of the classes. -/
def scopes (walk : Walk) : List ClassScope :=
  walk.statuses.filterMap fun entry =>
    match entry.2 with
    | .built scope => some scope
    | _ => none

end Walk

end DeclMerge
