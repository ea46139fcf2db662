import DeclMerge.Member.Basic
import DeclMerge.Member.Kinds
import DeclMerge.Text.Quoted

/-!
# Flat scopes

A flat scope answers from the declarations of one container alone. Packages have flat scopes, and
so have the members that a class declares itself.

## Main definitions

* `FlatScope` — a container with its declarations
* `FlatScope.functions`, `FlatScope.properties`, `FlatScope.classifier?` — members by name
* `FlatScope.listing` — the members of some kinds and names
* `FlatScope.names` — the names of the members of some kinds
-/

namespace DeclMerge

/-- The diagnostic text of a qualified name. -/
def QualifiedName.debugText (q : QualifiedName) : String :=
  "FqName(" ++ Text.quoted q.text ++ ")"

/-- A container with its declarations. -/
structure FlatScope where
  owner : QualifiedName
  declarations : List Declaration

namespace FlatScope

/-- The members of a scope, in the order of their declarations. -/
def members (scope : FlatScope) : List Member :=
  scope.declarations.zipIdx.map fun d => .declared scope.owner d.2 d.1

/-- The members of one kind with one name. -/
def ofKind (scope : FlatScope) (kind : DeclarationKind) (name : Name) : List Member :=
  scope.members.filter fun m => m.kind = kind && m.name = name

/-- The functions with a name, all overloads. -/
def functions (scope : FlatScope) (name : Name) : List Member := scope.ofKind .function name

/-- The properties with a name. -/
def properties (scope : FlatScope) (name : Name) : List Member := scope.ofKind .property name

/-- The first classifier with a name. -/
def classifier? (scope : FlatScope) (name : Name) : Option Member :=
  scope.members.find? fun m => m.kind.isClassifier && m.name = name

/-- The members of the wanted kinds and names. -/
def listing (scope : FlatScope) (kinds : KindSet) (wanted : Name → Bool) : List Member :=
  scope.members.filter fun m => kinds.admits m.declaration && wanted m.name

/-- The names of the members of some kinds, each once, in order of first appearance. -/
def names (scope : FlatScope) (kinds : KindSet) : List Name :=
  ((scope.members.filter fun m => kinds.admits m.declaration).map Member.name).eraseDups

/-- The number of members. -/
def size (scope : FlatScope) : Nat := scope.declarations.length

/-- The diagnostic text of a scope. -/
def debugText (scope : FlatScope) : String :=
  "FlatMemberScope \x7b owner: " ++ scope.owner.debugText ++ ", members: " ++ scope.size.repr ++
    " \x7d"

end FlatScope

end DeclMerge
