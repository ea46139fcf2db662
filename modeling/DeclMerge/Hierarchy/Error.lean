import DeclMerge.Name

/-!
# Errors of hierarchies

## Main definitions

* `HierarchyError` — why a class has no scope
* `HierarchyError.message` — the text of an error
-/

namespace DeclMerge

/-- Why a class has no scope. -/
inductive HierarchyError where
  | cyclicSupertypes (className : QualifiedName) (cycle : List QualifiedName)
  | unresolvableSupertype (className : QualifiedName) (supertype : QualifiedName)
  | hierarchyTooDeep (className : QualifiedName) (limit : Nat)
deriving DecidableEq, Repr

namespace HierarchyError

/-- The class that has no scope. -/
def className : HierarchyError → QualifiedName
  | .cyclicSupertypes c _ | .unresolvableSupertype c _ | .hierarchyTooDeep c _ => c

/-- The names of a cycle with arrows between them, and the first one again at the end. -/
def cycleText (cycle : List QualifiedName) : String :=
  Text.joinWith " -> " ((cycle ++ cycle.take 1).map QualifiedName.text)

/-- The text of an error. -/
def message : HierarchyError → String
  | .cyclicSupertypes c cycle =>
    "class " ++ c.display ++ " is its own supertype through " ++ cycleText cycle
  | .unresolvableSupertype c supertype =>
    "class " ++ c.display ++ " inherits from " ++ supertype.display ++
      ", whose hierarchy could not be resolved"
  | .hierarchyTooDeep c limit =>
    "supertype chain of class " ++ c.display ++ " exceeds " ++ limit.repr ++ " levels"

end HierarchyError

end DeclMerge
