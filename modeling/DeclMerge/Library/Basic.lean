import DeclMerge.Divergence.Codec
import DeclMerge.Library.Target
import DeclMerge.Member.FlatScope

/-!
# Merged libraries

A merged library has one entry for each declaration that some targets share. An entry whose targets
agree has one declaration; any other has an expected declaration and one implementation for each
target. The entry of a class has the entries of its members below it.

## Main definitions

* `Merged` — what stands for a declaration
* `Entry` — a declaration with its members
* `Entry.walk` — an entry and all entries below it
* `Package`, `Library` — entries by package
* `Library.classes` — all merged classes
-/

namespace DeclMerge

/-- What stands for a declaration of several targets. -/
inductive Merged where
  | common (declaration : Declaration) (targets : TargetSet)
  | expectActual (expect : Declaration) (actuals : List (Target × Declaration))

namespace Merged

/-- The declaration that stands for all targets. -/
def representative : Merged → Declaration
  | .common declaration _ => declaration
  | .expectActual expect _ => expect

/-- Whether one declaration serves all targets. -/
def isCommon : Merged → Bool
  | .common .. => true
  | .expectActual .. => false

/-- The targets that contribute. -/
def targets : Merged → TargetSet
  | .common _ targets => targets
  | .expectActual _ actuals => .ofList (actuals.map Prod.fst)

/-- What stands for a declaration, as an object. -/
def toJson : Merged → Json
  | .common declaration targets =>
    .object [("availability", .string "common"), ("decl", declaration.toJson),
      ("targets", targets.toJson)]
  | .expectActual expect actuals =>
    .object [("availability", .string "expect_actual"), ("expect", expect.toJson),
      ("actuals", .array (actuals.map fun a => .array [a.1.toJson, a.2.toJson]))]

end Merged

/-- A merged declaration with its members. -/
structure Entry where
  name : QualifiedName
  signature : Signature
  merged : Merged
  members : List Entry

namespace Entry

/-- The declaration that stands for all targets. -/
def representative (entry : Entry) : Declaration := entry.merged.representative

mutual
/-- An entry, and after it the entries below it, each before its own members. -/
def walk : Entry → List Entry
  | ⟨name, signature, merged, members⟩ => ⟨name, signature, merged, members⟩ :: walkList members
/-- Several entries, each with the entries below it. -/
def walkList : List Entry → List Entry
  | [] => []
  | entry :: entries => entry.walk ++ walkList entries
end

theorem walk_eq (entry : Entry) : entry.walk = entry :: walkList entry.members := by
  cases entry
  rw [walk]

theorem mem_walkList {entry : Entry} {entries : List Entry} :
    entry ∈ walkList entries ↔ ∃ top ∈ entries, entry ∈ top.walk := by
  induction entries with
  | nil => simp [walkList]
  | cons top rest ih => simp [walkList, ih]

theorem sizeOf_lt_of_mem_members {entry top : Entry} (h : entry ∈ top.members) :
    sizeOf entry < sizeOf top := by
  obtain ⟨name, signature, merged, members⟩ := top
  have hless : sizeOf entry < sizeOf members := List.sizeOf_lt_of_mem h
  rw [Entry.mk.sizeOf_spec]
  omega

/-- What is below an entry has everything below itself there too. -/
theorem mem_walk_trans {entry middle top : Entry} (h : middle ∈ top.walk)
    (hentry : entry ∈ middle.walk) : entry ∈ top.walk := by
  rw [walk_eq, List.mem_cons] at h
  rcases h with rfl | hbelow
  · exact hentry
  · obtain ⟨member, hmember, hmiddle⟩ := mem_walkList.mp hbelow
    rw [walk_eq]
    exact List.mem_cons_of_mem _
      (mem_walkList.mpr ⟨member, hmember, mem_walk_trans hmiddle hentry⟩)
termination_by sizeOf top
decreasing_by exact sizeOf_lt_of_mem_members hmember

mutual
/-- An entry as an object. -/
def toJson : Entry → Json
  | ⟨name, signature, merged, members⟩ =>
    .object ([("fq_name", name.toJson), ("key", signature.toJson), ("merged", merged.toJson)] ++
      match members with
      | [] => []
      | member :: members => [("members", .array (member.toJson :: toJsonList members))])
/-- Entries as objects. -/
def toJsonList : List Entry → List Json
  | [] => []
  | entry :: entries => entry.toJson :: toJsonList entries
end

end Entry

/-- The entries of one package. -/
structure Package where
  name : QualifiedName
  entries : List Entry

namespace Package

/-- The scope of the declarations that stand for the entries. -/
def scope (package : Package) : FlatScope :=
  ⟨package.name, package.entries.map Entry.representative⟩

/-- All entries of a package, those below others too. -/
def walk (package : Package) : List Entry :=
  Entry.walkList package.entries

/-- The first entry with a name. -/
def entry? (package : Package) (name : QualifiedName) : Option Entry :=
  package.walk.find? fun entry => entry.name = name

/-- A package as an object. -/
def toJson (package : Package) : Json :=
  .object [("fq_name", package.name.toJson),
    ("entries", .array (Entry.toJsonList package.entries))]

end Package

/-- The packages of all targets. -/
structure Library where
  targets : TargetSet
  packages : List Package

namespace Library

/-- All entries of a library. -/
def walk (library : Library) : List Entry :=
  library.packages.flatMap Package.walk

/-- What is below an entry of a library is an entry of the library. -/
theorem mem_walk_of_mem_members {library : Library} {entry member : Entry}
    (h : entry ∈ library.walk) (hmember : member ∈ entry.members) : member ∈ library.walk := by
  obtain ⟨package, hpackage, hentry⟩ := List.mem_flatMap.mp h
  obtain ⟨top, htop, hentry⟩ := Entry.mem_walkList.mp hentry
  have hbelow : member ∈ entry.walk := by
    rw [Entry.walk_eq]
    refine List.mem_cons_of_mem _ (Entry.mem_walkList.mpr ⟨member, hmember, ?_⟩)
    exact member.walk_eq ▸ List.mem_cons_self
  exact List.mem_flatMap.mpr
    ⟨package, hpackage, Entry.mem_walkList.mpr ⟨top, htop, Entry.mem_walk_trans hentry hbelow⟩⟩

/-- The first package with a name. -/
def package? (library : Library) (name : QualifiedName) : Option Package :=
  library.packages.find? fun package => package.name = name

/-- The first entry with a name. -/
def entry? (library : Library) (name : QualifiedName) : Option Entry :=
  library.packages.findSome? fun package => package.entry? name

/-- The merged classes with their names, nested ones included. -/
def classes (library : Library) : List (QualifiedName × Declaration) :=
  (library.walk.filter fun entry => entry.representative.isClass).map fun entry =>
    (entry.name, entry.representative)

/-- A library as an object. -/
def toJson (library : Library) : Json :=
  .object [("targets", library.targets.toJson),
    ("packages", .array (library.packages.map Package.toJson))]

end Library

end DeclMerge
