import DeclMerge.Member.FlatScope
import DeclMerge.Member.Inheritance

/-!
# Class scopes

The scope of a class has the members that the class declares and those that it inherits from the
scopes of its supertypes. Classifiers are not inherited.

## Main definitions

* `ClassScope` — a class with the scopes of its supertypes
* `ClassScope.lookup` — the members and clashes of one name
* `ClassScope.callableNames`, `ClassScope.listing` — all names, and all members
* `ClassScope.clashes` — the clashes of all names
-/

namespace DeclMerge

/-- A class with the scopes of those of its supertypes that are known. -/
structure ClassScope where
  name : QualifiedName
  declaration : Declaration
  supertypes : List ClassScope

namespace ClassScope

/-- The scope of the members that a class declares. -/
def flatScope (name : QualifiedName) (declaration : Declaration) : FlatScope :=
  ⟨name, declaration.members⟩

/-- The scope of the members that the class declares. -/
def declared (scope : ClassScope) : FlatScope := flatScope scope.name scope.declaration

/-- The members and clashes of one name of a class, given what its supertypes have. -/
def lookupFrom (owner : QualifiedName) (declaration : Declaration) (kind : Callable)
    (name : Name) (fromSupertypes : List Member) : Resolution :=
  Resolution.of owner name ((flatScope owner declaration).ofKind kind.kind name) fromSupertypes

mutual
/-- The members and clashes of one name and kind. -/
def lookup (kind : Callable) (name : Name) : ClassScope → Resolution
  | ⟨owner, declaration, supertypes⟩ =>
    lookupFrom owner declaration kind name (membersOf kind name supertypes)
/-- The members that several scopes have under one name and kind. -/
def membersOf (kind : Callable) (name : Name) : List ClassScope → List Member
  | [] => []
  | scope :: scopes => (scope.lookup kind name).members ++ membersOf kind name scopes
end

/-- The functions with a name. -/
def functions (scope : ClassScope) (name : Name) : List Member :=
  (scope.lookup .function name).members

/-- The properties with a name. -/
def properties (scope : ClassScope) (name : Name) : List Member :=
  (scope.lookup .property name).members

/-- The classifier with a name, which the class itself has to declare. -/
def classifier? (scope : ClassScope) (name : Name) : Option Member :=
  scope.declared.classifier? name

/-- The names among `members` whose members are callable. -/
def namesAmong (members : List Member) : List Name :=
  (members.filter fun m => KindSet.callables.admits m.declaration).map Member.name

/-- The names of all callable members: those that the class declares, then those that its
supertypes have, each once. -/
def callableNamesFrom (declared : FlatScope) (inherited : List Name) : List Name :=
  (declared.names .callables ++ inherited).eraseDups

/-- The classifiers that a class declares, the first one of each name. -/
def classifiers (declared : FlatScope) : List Member :=
  (declared.names { classifiers := true }).filterMap declared.classifier?

/-- What a scope has in all. -/
structure Listing where
  names : List Name
  members : List Member

mutual
/-- All callable names, in order, and all members: under each name the functions and then the
properties, and the classifiers last. -/
def listing : ClassScope → Listing
  | ⟨owner, declaration, supertypes⟩ =>
    let declared := flatScope owner declaration
    let names := callableNamesFrom declared (listedNames supertypes)
    let callables := names.flatMap fun name =>
      (lookup .function name ⟨owner, declaration, supertypes⟩).members ++
        (lookup .property name ⟨owner, declaration, supertypes⟩).members
    ⟨names, callables ++ classifiers declared⟩
/-- The names of the callable members that several scopes list. -/
def listedNames : List ClassScope → List Name
  | [] => []
  | scope :: scopes => namesAmong scope.listing.members ++ listedNames scopes
end

/-- The listed members of the wanted kinds and names. -/
def listed (scope : ClassScope) (kinds : KindSet) (wanted : Name → Bool) : List Member :=
  scope.listing.members.filter fun m => kinds.admits m.declaration && wanted m.name

/-- The clashes of all names: for each name those of functions and then those of properties. -/
def clashes (scope : ClassScope) : List Clash :=
  scope.listing.names.flatMap fun name =>
    (scope.lookup .function name).clashes ++ (scope.lookup .property name).clashes

end ClassScope

end DeclMerge
