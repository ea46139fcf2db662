import DeclMerge.Divergence.Codec
import DeclMerge.Json.Printer
import DeclMerge.Library.Target
import DeclMerge.Member.Inheritance
import DeclMerge.Merge.InputError

/-!
# Reports

A report lists every comparison of a run, every clash between members and every error, in a fixed
order.

## Main definitions

* `Comparison` — the comparison of one declaration
* `ClashNote` — a clash in one class
* `Report` — comparisons, clashes and errors
* `Report.text`, `Report.document` — the two written forms
* `Report.exitCode` — how a run ends
-/

namespace DeclMerge

/-- The comparison of one declaration that several targets have. `diverging` holds the pairs of
targets that disagree. -/
structure Comparison where
  name : QualifiedName
  signature : Signature
  targets : TargetSet
  verdict : Verdict
  diverging : List PairVerdict

namespace Comparison

/-- The line for a comparison, and one for each pair that disagrees. -/
def lines (comparison : Comparison) : List String :=
  (comparison.name.display ++ " " ++ comparison.targets.display ++ ": " ++
      comparison.verdict.text) ::
    comparison.diverging.map fun pair =>
      "  " ++ pair.left.name ++ " vs " ++ pair.right.name ++ ": " ++ pair.verdict.text

/-- A comparison as an object. -/
def toJson (comparison : Comparison) : Json :=
  .object ([("fq_name", comparison.name.toJson), ("key", comparison.signature.toJson),
    ("targets", comparison.targets.toJson), ("result", comparison.verdict.toJson)] ++
    if comparison.diverging.isEmpty then []
    else [("diverging", .array (comparison.diverging.map PairVerdict.toJson))])

end Comparison

/-- A clash in one class, with the containers of the members involved. -/
structure ClashNote where
  className : QualifiedName
  member : Name
  kind : ClashKind
  cause : Cause
  sources : List QualifiedName

namespace ClashNote

/-- What the report says of a clash. -/
def of (clash : Clash) : ClashNote where
  className := clash.owner
  member := clash.name
  kind := clash.kind
  cause := clash.cause
  sources := clash.members.map Member.owner

/-- The line for a clash. -/
def line (note : ClashNote) : String :=
  "conflict " ++ note.className.display ++ "." ++ note.member.text ++ ": " ++
    note.kind.text ++ " (" ++ note.cause.text ++ ")" ++
    if note.sources.isEmpty then ""
    else " from " ++ Text.joinWith ", " (note.sources.map QualifiedName.display)

/-- A clash as an object. -/
def toJson (note : ClashNote) : Json :=
  .object [("class", note.className.toJson), ("member", note.member.toJson),
    ("kind", .string note.kind.tag), ("cause", note.cause.toJson),
    ("sources", .array (note.sources.map QualifiedName.toJson))]

end ClashNote

/-- What a run found. -/
structure Report where
  comparisons : List Comparison := []
  clashes : List ClashNote := []
  errors : List InputError := []

namespace Report

/-- Whether a run had errors. -/
def hasErrors (report : Report) : Bool := !report.errors.isEmpty

/-- A run without errors ends with zero, any other with one. -/
def exitCode (report : Report) : Nat := if report.hasErrors then 1 else 0

/-- The comparisons on which targets disagree. -/
def divergences (report : Report) : List Comparison :=
  report.comparisons.filter fun comparison => comparison.verdict.isFailure

/-- The first comparison of a name. -/
def comparison? (report : Report) (name : QualifiedName) : Option Comparison :=
  report.comparisons.find? fun comparison => comparison.name = name

/-- The first comparison of a name with a signature, which tells overloads apart. -/
def comparisonFor? (report : Report) (name : QualifiedName) (signature : Signature) :
    Option Comparison :=
  report.comparisons.find? fun c => c.name = name && c.signature = signature

/-- The counts of a report. -/
def summary (report : Report) : String :=
  report.comparisons.length.repr ++ " compared, " ++ report.divergences.length.repr ++
    " diverging, " ++ report.clashes.length.repr ++ " conflicts, " ++
    report.errors.length.repr ++ " errors"

/-- The lines of a report: divergences, clashes, errors and the counts. -/
def lines (report : Report) : List String :=
  report.divergences.flatMap Comparison.lines ++ report.clashes.map ClashNote.line ++
    (report.errors.map fun error => "error: " ++ error.message) ++ [report.summary]

/-- The lines of a report, each with a line break. -/
def text (report : Report) : String :=
  String.join (report.lines.map fun line => line ++ "\n")

/-- A report as an object; errors are their texts. -/
def toJson (report : Report) : Json :=
  .object [("entries", .array (report.comparisons.map Comparison.toJson)),
    ("conflicts", .array (report.clashes.map ClashNote.toJson)),
    ("errors", .array (report.errors.map fun error => .string error.message))]

/-- The indented object of a report, with a line break. -/
def document (report : Report) : String := report.toJson.indented ++ "\n"

end Report

end DeclMerge
