import DeclMerge.Member.ClassScope
import DeclMerge.Memo

/-!
# Cached class scopes

What a class scope has under a name is looked up once for each class, kind and name, and the
listing is made once for each class. The caches of all classes form one state, since a request to
a class makes requests to its supertypes.

## Main definitions

* `ClassCache`, `Caches` — the caches of one class, and of all classes
* `ClassScope.request` — the cached form of `ClassScope.lookup`
* `ClassScope.requestListing`, `ClassScope.requestClashes` — the cached forms of
  `ClassScope.listing` and `ClassScope.clashes`
* `Caches.count` — the number of look-ups computed for a class
-/

namespace DeclMerge

/-- The caches of one class. -/
structure ClassCache where
  functions : Memo Name Resolution := { label := "class_functions" }
  properties : Memo Name Resolution := { label := "class_properties" }
  listing : Once ClassScope.Listing := {}

/-- The caches of all classes that have been asked for something. -/
structure Caches where
  entries : List (QualifiedName × ClassCache) := []

namespace Caches

/-- The caches of a class. -/
def get (caches : Caches) (name : QualifiedName) : ClassCache :=
  (caches.entries.lookup name).getD {}

/-- The entries with other caches for a class. -/
def setIn (name : QualifiedName) (cache : ClassCache) :
    List (QualifiedName × ClassCache) → List (QualifiedName × ClassCache)
  | [] => [(name, cache)]
  | (n, c) :: entries =>
    if n = name then (n, cache) :: entries else (n, c) :: setIn name cache entries

/-- The caches with other ones for a class. -/
def set (caches : Caches) (name : QualifiedName) (cache : ClassCache) : Caches :=
  ⟨setIn name cache caches.entries⟩

/-- Where the look-ups of a class lie. -/
def resolutions (name : QualifiedName) : Callable → Part Caches (Memo Name Resolution)
  | .function =>
    ⟨fun caches => (caches.get name).functions,
      fun memo caches => caches.set name { caches.get name with functions := memo }⟩
  | .property =>
    ⟨fun caches => (caches.get name).properties,
      fun memo caches => caches.set name { caches.get name with properties := memo }⟩

/-- Where the listing of a class lies. -/
def listing (name : QualifiedName) : Part Caches (Once ClassScope.Listing) :=
  ⟨fun caches => (caches.get name).listing,
    fun once caches => caches.set name { caches.get name with listing := once }⟩

/-- The number of look-ups computed for a class. -/
def count (caches : Caches) (name : QualifiedName) : Nat :=
  (caches.get name).functions.computations + (caches.get name).properties.computations

end Caches

namespace ClassScope

mutual
/-- The members and clashes of one name and kind, looked up once. -/
def request (kind : Callable) (name : Name) : ClassScope → StateM Caches Resolution
  | ⟨owner, declaration, supertypes⟩ =>
    Memo.request (Caches.resolutions owner kind) name fun caches =>
      let (inherited, caches) := requestMembers kind name supertypes caches
      (lookupFrom owner declaration kind name inherited, caches)
/-- The members that several scopes have under one name and kind. -/
def requestMembers (kind : Callable) (name : Name) : List ClassScope → StateM Caches (List Member)
  | [] => fun caches => ([], caches)
  | scope :: scopes => fun caches =>
    let (resolution, caches) := request kind name scope caches
    let (members, caches) := requestMembers kind name scopes caches
    (resolution.members ++ members, caches)
end

/-- The resolutions of functions and of properties under each of several names, joined by
`collect`. -/
def requestEach {α : Type} (scope : ClassScope) (collect : Resolution → List α) :
    List Name → StateM Caches (List α)
  | [] => fun caches => ([], caches)
  | name :: names => fun caches =>
    let (functions, caches) := scope.request .function name caches
    let (properties, caches) := scope.request .property name caches
    let (others, caches) := requestEach scope collect names caches
    (collect functions ++ collect properties ++ others, caches)

mutual
/-- All names and members, computed once. -/
def requestListing : ClassScope → StateM Caches Listing
  | ⟨owner, declaration, supertypes⟩ =>
    Once.request (Caches.listing owner) fun caches =>
      let declared := flatScope owner declaration
      let (inherited, caches) := requestListedNames supertypes caches
      let names := callableNamesFrom declared inherited
      let (callables, caches) :=
        requestEach ⟨owner, declaration, supertypes⟩ Resolution.members names caches
      (⟨names, callables ++ classifiers declared⟩, caches)
/-- The names of the callable members that several scopes list. -/
def requestListedNames : List ClassScope → StateM Caches (List Name)
  | [] => fun caches => ([], caches)
  | scope :: scopes => fun caches =>
    let (listing, caches) := requestListing scope caches
    let (names, caches) := requestListedNames scopes caches
    (namesAmong listing.members ++ names, caches)
end

/-- The listed members of the wanted kinds and names. -/
def requestAll (scope : ClassScope) (kinds : KindSet) (wanted : Name → Bool) :
    StateM Caches (List Member) := do
  let listing ← scope.requestListing
  return listing.members.filter fun m => kinds.admits m.declaration && wanted m.name

/-- The clashes of all names. -/
def requestClashes (scope : ClassScope) : StateM Caches (List Clash) := do
  let listing ← scope.requestListing
  scope.requestEach Resolution.clashes listing.names

/-- The diagnostic text of a scope and its caches. -/
def debugText (scope : ClassScope) (caches : Caches) : String :=
  let cache := caches.get scope.name
  "ClassMemberScope \x7b owner: " ++ scope.name.debugText ++ ", supertypes: " ++
    Text.bracketed (scope.declaration.superclassifiers.map QualifiedName.debugText) ++
    ", functions: " ++ cache.functions.debugText ++ ", properties: " ++
    cache.properties.debugText ++ " \x7d"

end ClassScope

end DeclMerge
