import DeclMerge.Json.Magnitude

/-!
# Readable JSON values

Where a structure takes in the whole of a value, members that it ignores included, every part of
the value has to be readable, and every number has to lie in the range of double precision.

## Main definitions

* `Json.isReadable` — every part of a value can be taken in
-/

namespace DeclMerge.Json

mutual
/-- Every part of the value is readable and every number in it is finite. -/
def isReadable : Json → Bool
  | .number literal => isFiniteLiteral literal
  | .array items => isReadableItems items
  | .object members => isReadableMembers members
  | .unreadable _ => false
  | _ => true
/-- Every item is readable. -/
def isReadableItems : List Json → Bool
  | [] => true
  | item :: items => item.isReadable && isReadableItems items
/-- Every member is readable. -/
def isReadableMembers : List (String × Json) → Bool
  | [] => true
  | (_, value) :: members => value.isReadable && isReadableMembers members
end

end DeclMerge.Json
