import DeclMerge.Json.Record

/-!
# Options of a merge

## Main definitions

* `Options` — the options, with their defaults
* `Options.ofJson?`, `Options.toJson` — options in documents
-/

namespace DeclMerge

/-- The options of a merge. Working in parallel never changes a result. -/
structure Options where
  parallel : Bool := true
  resolveOverrides : Bool := true
  maxSupertypeDepth : Nat := 256
  maxNestingDepth : Nat := 64
deriving DecidableEq, Repr, Inhabited

namespace Options

/-- The largest limit that can be written. -/
def maxLimit : Nat := 0xFFFFFFFF

/-- The options without parallel work. -/
def sequential (options : Options) : Options := { options with parallel := false }

/-- The options without the members of classes. -/
def withoutOverrides (options : Options) : Options :=
  { options with resolveOverrides := false }

/-- The fields of the options in their order. -/
def fields : List String :=
  ["parallel", "resolve_overrides", "max_supertype_depth", "max_nesting_depth"]

/-- The options that a value describes; anything that is left out has its default, and a member
that names no option is refused. -/
def ofJson? (json : Json) : Option Options := do
  let defaults : Options := {}
  let record ← json.closedRecord? fields
  let parallel ← record.optional? "parallel" defaults.parallel Json.asBool?
  let resolveOverrides ←
    record.optional? "resolve_overrides" defaults.resolveOverrides Json.asBool?
  let maxSupertypeDepth ← record.optional? "max_supertype_depth" defaults.maxSupertypeDepth
    (Json.asNatUpTo? maxLimit)
  let maxNestingDepth ← record.optional? "max_nesting_depth" defaults.maxNestingDepth
    (Json.asNatUpTo? maxLimit)
  return ⟨parallel, resolveOverrides, maxSupertypeDepth, maxNestingDepth⟩

/-- Options as an object. -/
def toJson (options : Options) : Json :=
  .object [("parallel", .bool options.parallel),
    ("resolve_overrides", .bool options.resolveOverrides),
    ("max_supertype_depth", .ofNat options.maxSupertypeDepth),
    ("max_nesting_depth", .ofNat options.maxNestingDepth)]

end Options

end DeclMerge
