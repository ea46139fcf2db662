import DeclMerge.Declaration.Basic

/-!
# Sets of kinds

A query for many members names the kinds it wants. Classes and type aliases go together as
classifiers, functions and properties as callables.

## Main definitions

* `KindSet` — the kinds that a query wants
* `KindSet.admits` — whether a declaration is wanted
* `Callable` — the two kinds that are inherited
-/

namespace DeclMerge

/-- The kinds that a query wants. -/
structure KindSet where
  functions : Bool := false
  properties : Bool := false
  classifiers : Bool := false
  values : Bool := false
deriving DecidableEq, Repr, Inhabited

namespace KindSet

/-- Functions and properties. -/
def callables : KindSet := { functions := true, properties := true }

/-- Every kind. -/
def all : KindSet := ⟨true, true, true, true⟩

/-- The kinds of either set. -/
def union (a b : KindSet) : KindSet :=
  ⟨a.functions || b.functions, a.properties || b.properties, a.classifiers || b.classifiers,
    a.values || b.values⟩

/-- Whether a kind is wanted. -/
def contains (kinds : KindSet) : DeclarationKind → Bool
  | .function => kinds.functions
  | .property => kinds.properties
  | .class | .typeAlias => kinds.classifiers
  | .value => kinds.values

/-- Whether a declaration is wanted. -/
def admits (kinds : KindSet) (d : Declaration) : Bool := kinds.contains d.kind

/-- The sets that queries may name. -/
def table : List (String × KindSet) :=
  [("FUNCTIONS", { functions := true }), ("VARIABLES", { properties := true }),
   ("CLASSIFIERS", { classifiers := true }), ("VALUES", { values := true }),
   ("CALLABLES", callables), ("ALL", all)]

end KindSet

/-- The two kinds of members that are inherited. -/
inductive Callable where
  | function | property
deriving DecidableEq, Repr, Inhabited

/-- The kind of declaration behind a kind of member. -/
def Callable.kind : Callable → DeclarationKind
  | .function => .function
  | .property => .property

end DeclMerge
