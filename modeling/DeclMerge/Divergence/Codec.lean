import DeclMerge.Declaration.Codec
import DeclMerge.Divergence.Pairs

/-!
# Causes and verdicts in documents

A leaf is its label; a group is an object whose only key is its label.

## Main definitions

* `Cause.toJson`, `Cause.ofJson?` — causes as JSON
* `Verdict.toJson` — verdicts as JSON
-/

namespace DeclMerge

namespace Cause

mutual
/-- A cause as JSON. -/
def toJson : Cause → Json
  | .leaf axis => .string axis.label
  | .parameter index causes =>
    .object
      [("Parameter", .object [("causes", .array (toJsonList causes)), ("index", .ofNat index)])]
  | .composite whole causes => .object [(whole.label, .array (toJsonList causes))]
/-- Causes as JSON. -/
def toJsonList : List Cause → List Json
  | [] => []
  | cause :: causes => cause.toJson :: toJsonList causes
end

/-- The cause that a value describes, nested less than `levels` deep. -/
def ofJsonWithin? : Nat → Json → Option Cause
  | 0, _ => none
  | levels + 1, json =>
    match json with
    | .string label => (Axis.all.find? fun axis => axis.label = label).map .leaf
    | .object [("Parameter", body)] => do
      let record ← body.objectRecord? ["causes", "index"]
      let causes ← record.required? "causes" (Json.asItems? (ofJsonWithin? levels))
      let index ← record.required? "index" (Json.asNatUpTo? 0xFFFFFFFFFFFFFFFF)
      return .parameter index causes
    | .object [(label, body)] => do
      let whole ← Whole.all.find? fun whole => whole.label = label
      let causes ← body.asItems? (ofJsonWithin? levels)
      return .composite whole causes
    | _ => none

/-- The cause that a value describes. -/
def ofJson? (json : Json) : Option Cause := ofJsonWithin? (json.nesting + 1) json

end Cause

namespace Verdict

/-- A verdict as JSON. -/
def toJson : Verdict → Json
  | .success => .object [("result", .string "success")]
  | .failure causes =>
    .object [("result", .string "failure"), ("causes", .array (Cause.toJsonList causes.toList))]

end Verdict

/-- The verdict on a pair of targets as JSON. -/
def PairVerdict.toJson (pair : PairVerdict) : Json :=
  .object [("left", .string pair.left.name), ("right", .string pair.right.name),
    ("result", pair.verdict.toJson)]

end DeclMerge
