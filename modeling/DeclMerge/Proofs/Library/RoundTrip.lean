import DeclMerge.Library.Target
import DeclMerge.Proofs.Declaration.Codec

/-!
# Libraries read back

The library of a target survives being written to a document and read again, whatever names, flags,
types and classes are in it, as long as the document is not nested too deeply to be read. It also
survives a reordering of the members of any objects in between.

## Main results

* `PackageFragment.ofJson?_toJson`, `TargetLibrary.ofJson?_toJson` — what is written is read back
* `TargetLibrary.read_of_textOf` — a library is read back from any text of what it is written as
* `TargetLibrary.read_of_reordered` — a library is read back from documents with other orders
-/

namespace DeclMerge

open Json (OrderFree)

theorem Target.orderFree_ofJson? : OrderFree Target.ofJson? :=
  Json.orderFree_asText?.comp _

namespace PackageFragment

theorem orderFree_ofJson? : OrderFree ofJson? := by
  refine Json.orderFree_openRecord? fun record record' h => ?_
  rw [h.required?_eq QualifiedName.orderFree_ofJson?,
    h.optional?_eq (Json.orderFree_asItems? Declaration.orderFree_ofJson?)]

theorem isTextual_toJson (package : PackageFragment) : package.toJson.isTextual = true := by
  have hdeclarations := Json.isTextualItems_map package.declarations
    fun d _ => d.isTextual_toJson
  simp [toJson, QualifiedName.toJson, Json.isTextual, Json.isTextualMembers, hdeclarations]

theorem ofJson?_toJson (package : PackageFragment) : ofJson? package.toJson = some package := by
  let record : Json.Record := ⟨[("fq_name", package.name.toJson),
    ("declarations", .array (package.declarations.map Declaration.toJson))]⟩
  have hrecord : package.toJson.openRecord? fields = some record := rfl
  have hname : record.required? "fq_name" QualifiedName.ofJson? = some package.name := rfl
  have hdeclarations : record.optional? "declarations" [] (Json.asItems? Declaration.ofJson?) =
      some package.declarations :=
    Json.asItems?_map package.declarations fun d _ => Declaration.ofJson?_toJson d
  simp only [ofJson?, hrecord, hname, hdeclarations, Option.bind_eq_bind, Option.bind_some]
  rfl

end PackageFragment

namespace TargetLibrary

theorem orderFree_ofJson? : OrderFree ofJson? := by
  refine Json.orderFree_openRecord? fun record record' h => ?_
  rw [h.required?_eq Target.orderFree_ofJson?,
    h.optional?_eq (Json.orderFree_asItems? PackageFragment.orderFree_ofJson?)]

theorem isTextual_toJson (library : TargetLibrary) : library.toJson.isTextual = true := by
  have hpackages := Json.isTextualItems_map library.packages
    fun package _ => package.isTextual_toJson
  simp [toJson, Target.toJson, Json.isTextual, Json.isTextualMembers, hpackages]

theorem ofJson?_toJson (library : TargetLibrary) : ofJson? library.toJson = some library := by
  let record : Json.Record := ⟨[("target", library.target.toJson),
    ("packages", .array (library.packages.map PackageFragment.toJson))]⟩
  have hrecord : library.toJson.openRecord? fields = some record := rfl
  have htarget : record.required? "target" Target.ofJson? = some library.target := rfl
  have hpackages : record.optional? "packages" [] (Json.asItems? PackageFragment.ofJson?) =
      some library.packages :=
    Json.asItems?_map library.packages fun package _ => PackageFragment.ofJson?_toJson package
  simp only [ofJson?, hrecord, htarget, hpackages, Option.bind_eq_bind, Option.bind_some]
  rfl

variable {library : TargetLibrary} {json : Json}

/-- A library is read back from each text of what it is written as, in any order of members and with
any gaps. -/
theorem read_of_textOf (hnesting : library.toJson.nesting ≤ Json.maxNesting)
    (h : library.toJson.Reordered json) {cs : List Char} (htext : json.TextOf cs) :
    (Json.ofText? (String.ofList cs)).bind ofJson? = some library := by
  rw [htext.ofText?_eq (Json.orderFree_nesting h ▸ hnesting), Option.bind_some,
    ← orderFree_ofJson? h, ofJson?_toJson]

/-- A library is read back from its document, compact or indented, and from every document that
differs from it in the order of the members of some objects. -/
theorem read_of_reordered (hnesting : library.toJson.nesting ≤ Json.maxNesting)
    (h : library.toJson.Reordered json) :
    (Json.ofText? json.compact).bind ofJson? = some library ∧
      (Json.ofText? json.indented).bind ofJson? = some library := by
  have htextual : json.isTextual = true := Json.orderFree_isTextual h ▸ isTextual_toJson library
  constructor
  · exact read_of_textOf hnesting h (Json.textOf_compactChars json htextual)
  · exact read_of_textOf hnesting h (Json.textOf_indentedChars 0 json htextual)

/-- A nested class with bits that have no names, in a package whose name has to be escaped. -/
def shelf : Declaration :=
  .class { name := ⟨"Regal"⟩, visibility := .internal, modality := .open, flags := ⟨0xF881⟩ }
    .interface [⟨⟨"ui.Möbel"⟩, [⟨⟨"T"⟩, [], true⟩], false⟩]
    [.class { name := ⟨"Fach"⟩ } .enumEntry [] [
      .function { name := ⟨"öffne"⟩ } (some ⟨⟨"kotlin.Int"⟩, [], false⟩)
        [{ name := ⟨"\x22"⟩, type := ⟨⟨"kotlin.Any"⟩, [], true⟩ }] ⟨⟨"kotlin.Unit"⟩, [], false⟩]]

/-- The library of the shelf, with the kind of the shelf behind what the kind decides about. -/
def reversedShelf : Json :=
  .object [("packages", .array [.object [("fq_name", .string "a\x07\n"), ("declarations", .array [
    .object (Declaration.headerMembers shelf.header shelf.kind ++ shelf.payloadMembers).reverse])]]),
    ("target", .string "jvm")]

theorem read_of_reordered_shelf :
    let library : TargetLibrary := ⟨⟨"jvm"⟩, [⟨⟨"a\x07\n"⟩, [shelf]⟩]⟩
    library.toJson.nesting ≤ Json.maxNesting ∧ library.toJson.Reordered reversedShelf ∧
      (Json.ofText? reversedShelf.compact).bind ofJson? = some library ∧
      (Json.ofText? reversedShelf.indented).bind ofJson? = some library := by
  intro library
  have hnesting : library.toJson.nesting ≤ Json.maxNesting := by decide
  have hreordered : library.toJson.Reordered reversedShelf := by
    apply Json.Reordered.trans (.keys (List.Perm.swap _ _ _))
    refine .member [] _ "packages" (.item [] [] (.member [_] [] "declarations" (.item [] [] ?_)))
    rw [Declaration.toJson_eq]
    exact .keys (List.reverse_perm _).symm
  exact ⟨hnesting, hreordered, read_of_reordered hnesting hreordered⟩

end TargetLibrary

end DeclMerge
