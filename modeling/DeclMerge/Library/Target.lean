import DeclMerge.Declaration.Codec
import DeclMerge.Target

/-!
# Libraries of one target

The library of a target holds everything that the target declares, package by package. A package
may come in several fragments.

## Main definitions

* `PackageFragment` — the declarations of one fragment of a package
* `TargetLibrary` — the packages of one target
* `TargetLibrary.ofJson?`, `TargetLibrary.toJson` — libraries in documents
-/

namespace DeclMerge

/-- The declarations of one fragment of a package. -/
structure PackageFragment where
  name : QualifiedName
  declarations : List Declaration
deriving DecidableEq

/-- Everything that one target declares. -/
structure TargetLibrary where
  target : Target
  packages : List PackageFragment
deriving DecidableEq

/-- A target is written as a string. -/
def Target.ofJson? (json : Json) : Option Target := json.asText?.map Target.mk

/-- A target as a string. -/
def Target.toJson (target : Target) : Json := .string target.name

/-- Targets as strings. -/
def TargetSet.toJson (set : TargetSet) : Json := .array (set.items.map Target.toJson)

namespace PackageFragment

/-- The fields of a package in their order. -/
def fields : List String := ["fq_name", "declarations"]

/-- The fragment that a value describes. -/
def ofJson? (json : Json) : Option PackageFragment := do
  let record ← json.openRecord? fields
  let name ← record.required? "fq_name" QualifiedName.ofJson?
  let declarations ← record.optional? "declarations" [] (Json.asItems? Declaration.ofJson?)
  return ⟨name, declarations⟩

/-- A fragment as an object. -/
def toJson (package : PackageFragment) : Json :=
  .object [("fq_name", package.name.toJson),
    ("declarations", .array (package.declarations.map Declaration.toJson))]

end PackageFragment

namespace TargetLibrary

/-- The fields of a library in their order. -/
def fields : List String := ["target", "packages"]

/-- The library that a value describes. -/
def ofJson? (json : Json) : Option TargetLibrary := do
  let record ← json.openRecord? fields
  let target ← record.required? "target" Target.ofJson?
  let packages ← record.optional? "packages" [] (Json.asItems? PackageFragment.ofJson?)
  return ⟨target, packages⟩

/-- A library as an object. -/
def toJson (library : TargetLibrary) : Json :=
  .object [("target", library.target.toJson),
    ("packages", .array (library.packages.map PackageFragment.toJson))]

end TargetLibrary

end DeclMerge
