import DeclMerge.Declaration.Basic

/-!
# The text of declarations

## Main definitions

* `Declaration.text` — one line for a declaration, like `public function f(x: A): B`
-/

namespace DeclMerge

/-- A parameter with its type. -/
def Parameter.text (p : Parameter) : String :=
  p.name.text ++ ": " ++ p.type.text

namespace Declaration

/-- What follows the name: the parameters and return type of a function, the type of a property
or value, the underlying type of an alias, the supertypes of a class when there are any. -/
def tail : Declaration → String
  | .function _ _ parameters returnType =>
    "(" ++ Text.joinWith ", " (parameters.map Parameter.text) ++ "): " ++ returnType.text
  | .property _ _ type => ": " ++ type.text
  | .value _ type => ": " ++ type.text
  | .typeAlias _ underlying _ => " = " ++ underlying.text
  | .class _ _ [] _ => ""
  | .class _ _ supertypes _ => " : " ++ Text.joinWith ", " (supertypes.map TypeExpr.text)

/-- Visibility, kind and name of a declaration, and what follows the name. -/
def text (d : Declaration) : String :=
  d.visibility.text ++ " " ++ d.kind.text ++ " " ++ d.name.text ++ d.tail

end Declaration

end DeclMerge
