import DeclMerge.Json.Extent

/-!
# Reading JSON

A document is one value that follows the grammar, with nothing behind it. Three kinds of values
follow it and still cannot be read: strings with half of a surrogate pair, objects with such a
key, and arrays and objects that stand too deep. They are kept as their text, so that they hurt
only where something asks for them.

## Main definitions

* `Json.readValue` — the value at the front of a text and what follows it
* `Json.ofText?` — the value of a whole document
* `Json.maxNesting` — the nesting down to which the values of documents are read
-/

namespace DeclMerge.Json

/-- The number of arrays and objects that may be open at once where a document is read. -/
def maxNesting : Nat := 127

/-- The first half of a surrogate pair. -/
def isHighSurrogate (unit : Nat) : Bool := 0xD800 ≤ unit && unit ≤ 0xDBFF

/-- The second half of a surrogate pair. -/
def isLowSurrogate (unit : Nat) : Bool := 0xDC00 ≤ unit && unit ≤ 0xDFFF

/-- The character of a surrogate pair. -/
def pairedCharacter (high low : Nat) : Char :=
  Char.ofNat (0x10000 + (high - 0xD800) * 1024 + (low - 0xDC00))

/-- The rest of a string after its opening quote, behind the characters `done` in reverse, and
what follows the closing quote. -/
def readString (done : List Char) : List Char → Option (List Char × List Char)
  | [] => none
  | '"' :: rest => some (done.reverse, rest)
  | '\\' :: 'u' :: a :: b :: c :: d :: rest =>
    match hexUnit? a b c d with
    | none => none
    | some unit =>
      if isHighSurrogate unit then
        match rest with
        | '\\' :: 'u' :: e :: f :: g :: h :: rest =>
          match hexUnit? e f g h with
          | none => none
          | some low =>
            if isLowSurrogate low then readString (pairedCharacter unit low :: done) rest
            else none
        | _ => none
      else if isLowSurrogate unit then none
      else readString (Char.ofNat unit :: done) rest
  | '\\' :: c :: rest =>
    match simpleEscape? c with
    | none => none
    | some e => readString (e :: done) rest
  | c :: rest =>
    if c = '\\' || c < ' ' then none
    else readString (c :: done) rest

/-- The value at the front of a text, kept as its text, and what follows it. -/
def keepUnread (cs : List Char) : Option (Json × List Char) :=
  (afterValue? cs).map fun rest =>
    (.unreadable (String.ofList (cs.take (cs.length - rest.length))), rest)

mutual
/-- The value at the front of a text, after a gap, and what follows it. Arrays and objects are
read while at most `levels` are open at once. The first argument bounds the number of steps. -/
def readValue : Nat → Nat → List Char → Option (Json × List Char)
  | 0, _, _ => none
  | steps + 1, levels, cs =>
    match skipGap cs with
    | 'n' :: 'u' :: 'l' :: 'l' :: rest => some (.null, rest)
    | 't' :: 'r' :: 'u' :: 'e' :: rest => some (.bool true, rest)
    | 'f' :: 'a' :: 'l' :: 's' :: 'e' :: rest => some (.bool false, rest)
    | '"' :: rest =>
      match readString [] rest with
      | some (value, rest) => some (.string (String.ofList value), rest)
      | none => keepUnread ('"' :: rest)
    | '[' :: rest =>
      match levels with
      | 0 => keepUnread ('[' :: rest)
      | levels + 1 =>
        match skipGap rest with
        | ']' :: rest => some (.array [], rest)
        | _ => readItems steps levels [] rest
    | '\x7b' :: rest =>
      match levels with
      | 0 => keepUnread ('\x7b' :: rest)
      | levels + 1 =>
        match skipGap rest with
        | '\x7d' :: rest => some (.object [], rest)
        | _ =>
          match readMembers steps levels [] rest with
          | some read => some read
          | none => keepUnread ('\x7b' :: rest)
    | cs =>
      match numberLiteral? cs with
      | some (literal, rest) => some (.number (String.ofList literal), rest)
      | none => none
/-- The items of an array behind the items `done` in reverse, up to the closing bracket. -/
def readItems : Nat → Nat → List Json → List Char → Option (Json × List Char)
  | 0, _, _, _ => none
  | steps + 1, levels, done, cs =>
    match readValue steps levels cs with
    | none => none
    | some (item, rest) =>
      match skipGap rest with
      | ',' :: rest => readItems steps levels (item :: done) rest
      | ']' :: rest => some (.array (item :: done).reverse, rest)
      | _ => none
/-- The members of an object behind the members `done` in reverse, up to the closing brace. -/
def readMembers :
    Nat → Nat → List (String × Json) → List Char → Option (Json × List Char)
  | 0, _, _, _ => none
  | steps + 1, levels, done, cs =>
    match skipGap cs with
    | '"' :: rest =>
      match readString [] rest with
      | none => none
      | some (key, rest) =>
        match skipGap rest with
        | ':' :: rest =>
          match readValue steps levels rest with
          | none => none
          | some (value, rest) =>
            let member := (String.ofList key, value)
            match skipGap rest with
            | ',' :: rest => readMembers steps levels (member :: done) rest
            | '\x7d' :: rest => some (.object (member :: done).reverse, rest)
            | _ => none
        | _ => none
    | _ => none
end

/-- The value of a whole text, read while at most `levels` arrays and objects are open at once.
Each character costs at most two steps, one to enter an item and one to read it. -/
def ofTextWithin? (levels : Nat) (text : String) : Option Json :=
  let cs := text.toList
  match readValue (2 * cs.length + 2) levels cs with
  | some (value, rest) => if (skipGap rest).isEmpty then some value else none
  | none => none

/-- The value of a document. -/
def ofText? (text : String) : Option Json :=
  ofTextWithin? maxNesting text

/-- A value that is kept unread keeps every character of its text. -/
theorem append_of_keepUnread {cs rest : List Char} {value : Json}
    (h : keepUnread cs = some (value, rest)) :
    ∃ text, value = .unreadable text ∧ text.toList ++ rest = cs := by
  obtain ⟨r, hr, he⟩ := Option.map_eq_some_iff.mp h
  simp only [Prod.mk.injEq] at he
  obtain ⟨rfl, rfl⟩ := he
  obtain ⟨taken, rfl⟩ := afterValue?_suffix hr
  exact ⟨_, rfl, by simp⟩

end DeclMerge.Json
