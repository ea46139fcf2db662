import DeclMerge.Hierarchy.Walk
import DeclMerge.Member.Caches

/-!
# Class hierarchies

A hierarchy holds the scopes of those classes of a list whose supertypes are well-formed.

## Main definitions

* `Hierarchy` — scopes, in the order of the classes
* `Hierarchy.ofClasses` — the hierarchy of a list of classes, and the errors of the others
* `Hierarchy.clashes`, `Hierarchy.requestClashes` — the clashes of all classes, without and with
  caches
-/

namespace DeclMerge

/-- The scopes of the well-formed classes of a list, in the order of the list. -/
structure Hierarchy where
  scopes : List ClassScope

namespace Hierarchy

/-- The hierarchy without scopes. -/
def empty : Hierarchy := ⟨[]⟩

/-- The scopes of a list of classes, and an error for each class without one. Declarations that
are no classes are ignored, and of several classes with one name the first counts. -/
def ofClasses (classes : List (QualifiedName × Declaration)) (maxDepth : Nat) :
    Hierarchy × List HierarchyError :=
  match Walk.run (.ofList classes) maxDepth with
  | .ok walk => (⟨walk.scopes⟩, walk.errors)
  | .error _ => (empty, [])

/-- The scope of a class. -/
def get? (hierarchy : Hierarchy) (name : QualifiedName) : Option ClassScope :=
  hierarchy.scopes.find? fun scope => scope.name = name

/-- The names of the classes that have scopes. -/
def names (hierarchy : Hierarchy) : List QualifiedName := hierarchy.scopes.map ClassScope.name

/-- The number of scopes. -/
def size (hierarchy : Hierarchy) : Nat := hierarchy.scopes.length

/-- The clashes of all classes, in order. -/
def clashes (hierarchy : Hierarchy) : List Clash :=
  hierarchy.scopes.flatMap ClassScope.clashes

/-- The clashes of several scopes, with their caches. -/
def requestClashesOf : List ClassScope → StateM Caches (List Clash)
  | [] => return []
  | scope :: scopes => do
    let clashes ← scope.requestClashes
    return clashes ++ (← requestClashesOf scopes)

/-- The clashes of all classes, with their caches. -/
def requestClashes (hierarchy : Hierarchy) : StateM Caches (List Clash) :=
  requestClashesOf hierarchy.scopes

end Hierarchy

end DeclMerge
