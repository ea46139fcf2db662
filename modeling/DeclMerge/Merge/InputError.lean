import DeclMerge.Hierarchy.Error
import DeclMerge.Target

/-!
# Errors of a run

## Main definitions

* `InputError` — what makes a run, or one container of it, unusable
* `InputError.message` — the text of an error
-/

namespace DeclMerge

/-- What makes a run, or one container of it, unusable. -/
inductive InputError where
  | duplicateTarget (target : Target)
  | duplicateDeclaration (container : QualifiedName) (key : String) (target : Target)
  | nestingTooDeep (container : QualifiedName) (limit : Nat)
  | expectAndActual (name : QualifiedName)
  | hierarchy (error : HierarchyError)
  | malformedSource (detail : String)
deriving DecidableEq, Repr

namespace InputError

/-- The text of an error. -/
def message : InputError → String
  | .duplicateTarget target => "target " ++ target.name ++ " is supplied more than once"
  | .duplicateDeclaration container key target =>
    container.display ++ " declares " ++ key ++ " more than once for target " ++ target.name
  | .nestingTooDeep container limit =>
    "classes nested in " ++ container.display ++ " exceed " ++ limit.repr ++ " levels"
  | .expectAndActual name => name.display ++ " would be both expect and actual"
  | .hierarchy error => error.message
  | .malformedSource detail => "malformed declaration tree: " ++ detail

end InputError

end DeclMerge
