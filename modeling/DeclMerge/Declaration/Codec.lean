import DeclMerge.Declaration.Signature
import DeclMerge.Json.Readable
import DeclMerge.Json.Record

/-!
# Declarations in documents

Types, parameters, declarations and signatures as JSON. Types leave out empty arguments and a
missing mark for nullability; declarations leave out a missing receiver; everything else is
written.

## Main definitions

* `TypeExpr.toJson`, `Parameter.toJson`, `Declaration.toJson`, `Signature.toJson` — writing
* `TypeExpr.ofJson?`, `Parameter.ofJson?`, `Declaration.ofJson?` — reading
-/

namespace DeclMerge

/-- A name is written as a string. -/
def Name.ofJson? (json : Json) : Option Name := json.asText?.map Name.mk

/-- A qualified name is written as a string. -/
def QualifiedName.ofJson? (json : Json) : Option QualifiedName :=
  json.asText?.map QualifiedName.mk

/-- Flags are written as their text. -/
def Flags.ofJson? (json : Json) : Option Flags := json.asText?.bind Flags.ofText?

/-- A name as a string. -/
def Name.toJson (name : Name) : Json := .string name.text

/-- A qualified name as a string. -/
def QualifiedName.toJson (q : QualifiedName) : Json := .string q.text

/-- Flags as their text. -/
def Flags.toJson (flags : Flags) : Json := .string flags.text

/-- A member that is left out when it holds nothing. -/
def optionalMember (key : String) : Option Json → List (String × Json)
  | none => []
  | some value => [(key, value)]

namespace TypeExpr

mutual
/-- A type as an object. -/
def toJson : TypeExpr → Json
  | ⟨classifier, [], nullable⟩ =>
    .object (("classifier", classifier.toJson) ::
      if nullable then [("nullable", .bool true)] else [])
  | ⟨classifier, argument :: arguments, nullable⟩ =>
    .object (("classifier", classifier.toJson) ::
      ("arguments", .array (argument.toJson :: toJsonList arguments)) ::
      if nullable then [("nullable", .bool true)] else [])
/-- Types as objects. -/
def toJsonList : List TypeExpr → List Json
  | [] => []
  | type :: types => type.toJson :: toJsonList types
end

/-- The fields of a type in their order. -/
def fields : List String := ["classifier", "arguments", "nullable"]

/-- The type that a value describes, nested less than `levels` deep. -/
def ofJsonWithin? : Nat → Json → Option TypeExpr
  | 0, _ => none
  | levels + 1, json => do
    let record ← json.openRecord? fields
    let classifier ← record.required? "classifier" QualifiedName.ofJson?
    let arguments ← record.optional? "arguments" [] (Json.asItems? (ofJsonWithin? levels))
    let nullable ← record.optional? "nullable" false Json.asBool?
    return ⟨classifier, arguments, nullable⟩

/-- The type that a value describes. -/
def ofJson? (json : Json) : Option TypeExpr := ofJsonWithin? (json.nesting + 1) json

end TypeExpr

/-- The types that an array describes. -/
def typesOfJson? (json : Json) : Option (List TypeExpr) := json.asItems? TypeExpr.ofJson?

/-- A receiver, which `null` leaves out. -/
def receiverOfJson? : Json → Option (Option TypeExpr)
  | .null => some none
  | json => (TypeExpr.ofJson? json).map some

namespace Parameter

/-- A parameter as an object. -/
def toJson (p : Parameter) : Json :=
  .object [("name", p.name.toJson), ("type", p.type.toJson), ("is_var", .bool p.isVar)]

/-- The fields of a parameter in their order. -/
def fields : List String := ["name", "type", "is_var"]

/-- The parameter that a value describes. -/
def ofJson? (json : Json) : Option Parameter := do
  let record ← json.openRecord? fields
  let name ← record.required? "name" Name.ofJson?
  let type ← record.required? "type" TypeExpr.ofJson?
  let isVar ← record.optional? "is_var" false Json.asBool?
  return ⟨name, type, isVar⟩

end Parameter

namespace Declaration

/-- The fields of a header in their order. -/
def headerFields : List String := ["name", "visibility", "modality", "flags"]

/-- The fields that a kind of declaration adds to the header. -/
def payloadFields : DeclarationKind → List String
  | .function => ["receiver", "params", "return_type"]
  | .property => ["receiver", "type"]
  | .class => ["class_kind", "supertypes", "members"]
  | .typeAlias => ["underlying", "expanded"]
  | .value => ["type"]

/-- The members that every declaration starts with. -/
def headerMembers (header : Header) (kind : DeclarationKind) : List (String × Json) :=
  [("name", header.name.toJson), ("visibility", .string header.visibility.text),
   ("modality", .string header.modality.text), ("flags", header.flags.toJson),
   ("kind", .string kind.tag)]

mutual
/-- A declaration as an object. -/
def toJson : Declaration → Json
  | .function header receiver parameters returnType =>
    .object (headerMembers header .function ++
      optionalMember "receiver" (receiver.map TypeExpr.toJson) ++
      [("params", .array (parameters.map Parameter.toJson)), ("return_type", returnType.toJson)])
  | .property header receiver type =>
    .object (headerMembers header .property ++
      optionalMember "receiver" (receiver.map TypeExpr.toJson) ++ [("type", type.toJson)])
  | .class header kind supertypes members =>
    .object (headerMembers header .class ++
      [("class_kind", .string kind.tag), ("supertypes", .array (supertypes.map TypeExpr.toJson)),
       ("members", .array (toJsonList members))])
  | .typeAlias header underlying expanded =>
    .object (headerMembers header .typeAlias ++
      [("underlying", underlying.toJson), ("expanded", expanded.toJson)])
  | .value header type => .object (headerMembers header .value ++ [("type", type.toJson)])
/-- Declarations as objects. -/
def toJsonList : List Declaration → List Json
  | [] => []
  | d :: ds => d.toJson :: toJsonList ds
end

/-- The kind that a value names, or numbers from zero. -/
def kindOfJson? : Json → Option DeclarationKind
  | .string tag => DeclarationKind.all.find? fun kind => kind.tag = tag
  | json => (json.asNatUpTo? 4).bind fun n => DeclarationKind.all[n]?

/-- The header that a record describes. -/
def headerOfRecord? (inPayload : Bool) (record : Json.Record) : Option Header := do
  let name ← record.required? "name" Name.ofJson?
  let visibility ←
    record.optional? "visibility" .public (Json.asTag? Visibility.table inPayload)
  let modality ← record.optional? "modality" .final (Json.asTag? Modality.table inPayload)
  let flags ← record.optional? "flags" .empty Flags.ofJson?
  return ⟨name, visibility, modality, flags⟩

/-- The declaration that an object describes, with classes nested less than `levels` deep. The
header of a member of a class belongs to the payload of the class. -/
def ofJsonWithin? : Nat → Bool → Json → Option Declaration
  | 0, _, _ => none
  | levels + 1, inPayload, json => do
    let head ← json.objectRecord? (headerFields ++ ["kind"])
    let header ← headerOfRecord? inPayload head
    let kind ← head.required? "kind" kindOfJson?
    let payload ← json.objectRecord? (payloadFields kind)
    match kind with
    | .function =>
      let receiver ← payload.optional? "receiver" none receiverOfJson?
      let parameters ← payload.optional? "params" [] (Json.asItems? Parameter.ofJson?)
      let returnType ← payload.required? "return_type" TypeExpr.ofJson?
      return .function header receiver parameters returnType
    | .property =>
      let receiver ← payload.optional? "receiver" none receiverOfJson?
      let type ← payload.required? "type" TypeExpr.ofJson?
      return .property header receiver type
    | .class =>
      let classKind ←
        payload.optional? "class_kind" .class (Json.asTag? ClassKind.table true)
      let supertypes ← payload.optional? "supertypes" [] typesOfJson?
      let members ←
        payload.optional? "members" [] (Json.asItems? (ofJsonWithin? levels true))
      return .class header classKind supertypes members
    | .typeAlias =>
      let underlying ← payload.required? "underlying" TypeExpr.ofJson?
      let expanded ← payload.required? "expanded" TypeExpr.ofJson?
      return .typeAlias header underlying expanded
    | .value =>
      let type ← payload.required? "type" TypeExpr.ofJson?
      return .value header type

/-- The declaration that an object describes. Every part of the object has to be readable, also
the members that are ignored. -/
def ofJson? (json : Json) : Option Declaration :=
  if json.isReadable then ofJsonWithin? (json.nesting + 1) false json else none

end Declaration

namespace Signature

/-- A signature as an object. -/
def toJson (s : Signature) : Json :=
  .object ([("group", .string s.group.tag), ("name", s.name.toJson)] ++
    optionalMember "receiver" (s.receiver.map TypeExpr.toJson) ++
    if s.parameters.isEmpty then []
    else [("params", .array (s.parameters.map TypeExpr.toJson))])

end Signature

end DeclMerge
