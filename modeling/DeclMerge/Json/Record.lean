import DeclMerge.Json.Basic

/-!
# Reading structures from JSON

A structure is written as an object, whose members may come in any order, or as an array of its
fields in their declared order, whose last fields may be left out. A field may be given once
only. Members that name no field are ignored, except where a structure is closed.

## Main definitions

* `Json.Record` — the fields that a value gives, each at most once
* `Json.openRecord?`, `Json.objectRecord?`, `Json.closedRecord?` — the record of a value, and of
  one that must be an object, and of one without foreign members
* `Json.Record.required?`, `Json.Record.optional?` — a field without and with a default
* `Json.asTag?` — a value out of a table of names
-/

namespace DeclMerge.Json

/-- The fields that a value gives for a structure, by name. -/
structure Record where
  fields : List (String × Json)

namespace Record

/-- The value given for a field. -/
def get? (record : Record) (name : String) : Option Json :=
  record.fields.lookup name

/-- A field that must be given. -/
def required? {α : Type} (record : Record) (name : String) (read : Json → Option α) : Option α :=
  (record.get? name).bind read

/-- A field that takes `default` when it is not given. -/
def optional? {α : Type} (record : Record) (name : String) (default : α)
    (read : Json → Option α) : Option α :=
  match record.get? name with
  | none => some default
  | some value => read value

end Record

/-- Every one of `names` is the key of at most one member. -/
def givenOnce (names : List String) (members : List (String × Json)) : Bool :=
  names.all fun name => (members.countP fun m => m.1 = name) ≤ 1

/-- The members whose keys are among `names`, provided that none of these is given twice. -/
def objectRecord? (names : List String) : Json → Option Record
  | .object members =>
    if givenOnce names members then
      some ⟨members.filter fun m => names.contains m.1⟩
    else none
  | _ => none

/-- The record of an array, whose items are the fields `names` in this order. -/
def arrayRecord? (names : List String) : Json → Option Record
  | .array items => if items.length ≤ names.length then some ⟨names.zip items⟩ else none
  | _ => none

/-- The record of an object or of an array; foreign members are ignored. -/
def openRecord? (names : List String) (value : Json) : Option Record :=
  match value with
  | .object _ => objectRecord? names value
  | _ => arrayRecord? names value

/-- The record of an object or of an array; a foreign member is refused. -/
def closedRecord? (names : List String) (value : Json) : Option Record :=
  match value with
  | .object members =>
    if members.all fun m => names.contains m.1 then objectRecord? names value else none
  | _ => arrayRecord? names value

/-- Whether a member's value adds nothing to the name that is its key. `null` never does; inside
a payload the empty object does not either. -/
def isUnit (inPayload : Bool) : Json → Bool
  | .null => true
  | .object [] => inPayload
  | _ => false

/-- A value out of a table of names, written as its name, or as an object whose only member has
that name as its key and adds nothing to it. -/
def asTag? {α : Type} (table : List (String × α)) (inPayload : Bool) : Json → Option α
  | .string name => table.lookup name
  | .object [(name, value)] => if isUnit inPayload value then table.lookup name else none
  | _ => none

end DeclMerge.Json
