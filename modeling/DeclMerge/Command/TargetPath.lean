import DeclMerge.Target
import DeclMerge.Text.Blank

/-!
# Targets on the command line

On the command line, a target is given as `NAME=PATH`: its name and the file of its library.

## Main definitions

* `TargetPath` — a target and a path
* `TargetPath.ofText?` — reading one
-/

namespace DeclMerge

/-- A target and the file of its library. -/
structure TargetPath where
  target : Target
  path : String
deriving DecidableEq, Repr

/-- Why a text does not give a target and a path. -/
inductive TargetPathError where
  | noEquals (text : String)
  | noName (text : String)
  | noPath (name : String)
deriving DecidableEq, Repr

/-- The text of an error. -/
def TargetPathError.message : TargetPathError → String
  | .noEquals text => "expected NAME=PATH, got `" ++ text ++ "`"
  | .noName text => "missing target name in `" ++ text ++ "`"
  | .noPath name => "missing path for target `" ++ name ++ "`"

/-- The target and path that a text gives: a name, whose blanks at both ends do not count, and after
the first equals sign a path, whose blanks do. Neither may be empty. -/
def TargetPath.ofText? (text : String) : Except TargetPathError TargetPath :=
  match Text.cutFirst? '=' text.toList with
  | none => .error (.noEquals text)
  | some (before, path) =>
    let name := Text.trim before
    if name.isEmpty then .error (.noName text)
    else if path.isEmpty then .error (.noPath (String.ofList name))
    else .ok ⟨⟨String.ofList name⟩, String.ofList path⟩

end DeclMerge
