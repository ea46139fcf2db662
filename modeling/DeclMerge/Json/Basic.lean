/-!
# JSON values

A JSON value keeps what the text of a document says and nothing less: object members stay in
order and may repeat, and a number is its literal, so that `1`, `1.0` and `1e0` stay apart. What
follows the grammar and still cannot be read is kept as its text.

## Main definitions

* `Json` — values, with ordered members and literal numbers
* `Json.nesting` — the number of arrays and objects open at once
* `Json.asText?`, `Json.asBool?`, `Json.asItems?`, `Json.asNatUpTo?` — the scalar views
-/

namespace DeclMerge

/-- A JSON value. Members keep their order and may repeat a key; a number keeps its literal. No
schema accepts an unreadable value, so that it may stand only where it is ignored. -/
inductive Json where
  | null
  | bool (value : Bool)
  | number (literal : String)
  | string (value : String)
  | array (items : List Json)
  | object (members : List (String × Json))
  | unreadable (text : String)

namespace Json

mutual
/-- The largest number of arrays and objects that are open at one point of the value's text. -/
def nesting : Json → Nat
  | .array items => nestingItems items + 1
  | .object members => nestingMembers members + 1
  | _ => 0
/-- The largest `nesting` among the items of an array. -/
def nestingItems : List Json → Nat
  | [] => 0
  | item :: items => max item.nesting (nestingItems items)
/-- The largest `nesting` among the values of an object. -/
def nestingMembers : List (String × Json) → Nat
  | [] => 0
  | (_, value) :: members => max value.nesting (nestingMembers members)
end

/-- The text of a string; no other value converts to one. -/
def asText? : Json → Option String
  | .string value => some value
  | _ => none

/-- The value of `true` or `false`; no other value converts to one. -/
def asBool? : Json → Option Bool
  | .bool value => some value
  | _ => none

/-- The items of an array, each read by `read`. -/
def asItems? {α : Type} (read : Json → Option α) : Json → Option (List α)
  | .array items => items.mapM read
  | _ => none

/-- The value of a number written as plain decimal digits, when it is at most `bound`. Signs,
fractions and exponents are refused even where the value is a whole number. -/
def asNatUpTo? (bound : Nat) : Json → Option Nat
  | .number literal =>
    if literal.toList.all Char.isDigit then
      let value := literal.toList.foldl (fun n c => 10 * n + (c.toNat - '0'.toNat)) 0
      if value ≤ bound then some value else none
    else none
  | _ => none

/-- The number whose literal is the decimal text of `n`. -/
def ofNat (n : Nat) : Json := .number n.repr

/-- The array of the strings `texts`. -/
def ofTexts (texts : List String) : Json := .array (texts.map .string)

@[simp] theorem asText?_string (s : String) : asText? (.string s) = some s := rfl

@[simp] theorem asBool?_bool (b : Bool) : asBool? (.bool b) = some b := rfl

/-- An item of an array is nested less deeply than the array. -/
theorem nesting_lt_of_mem {item : Json} {items : List Json} (h : item ∈ items) :
    item.nesting < (Json.array items).nesting := by
  simp only [nesting, Nat.lt_succ_iff]
  induction items with
  | nil => simp at h
  | cons head tail ih =>
    simp only [nestingItems]
    rcases List.mem_cons.mp h with rfl | h
    · exact Nat.le_max_left _ _
    · exact Nat.le_trans (ih h) (Nat.le_max_right _ _)

/-- A value of an object is nested less deeply than the object. -/
theorem nesting_lt_of_mem_members {key : String} {value : Json} {members : List (String × Json)}
    (h : (key, value) ∈ members) : value.nesting < (Json.object members).nesting := by
  simp only [nesting, Nat.lt_succ_iff]
  induction members with
  | nil => simp at h
  | cons head tail ih =>
    obtain ⟨k, v⟩ := head
    simp only [nestingMembers]
    rcases List.mem_cons.mp h with h | h
    · obtain ⟨-, rfl⟩ := Prod.mk.inj h
      exact Nat.le_max_left _ _
    · exact Nat.le_trans (ih h) (Nat.le_max_right _ _)

end Json

end DeclMerge
