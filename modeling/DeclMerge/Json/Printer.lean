import DeclMerge.Json.Basic
import DeclMerge.Text.Hex

/-!
# Printing JSON

A value has a compact text, without any gap, and an indented one, two spaces a level, in which
empty arrays and objects stay closed. Only quotes, backslashes and control characters are
escaped; all other characters stand for themselves. An unreadable value is its text.

## Main definitions

* `Json.quoted` — a string between quotes
* `Json.compact` — the text without gaps
* `Json.indented` — the text with one item or member a line
-/

namespace DeclMerge.Json

/-- How a character stands inside a string. -/
def escaped (c : Char) : List Char :=
  if c = '"' then ['\\', '"']
  else if c = '\\' then ['\\', '\\']
  else if c = '\n' then ['\\', 'n']
  else if c = '\r' then ['\\', 'r']
  else if c = '\t' then ['\\', 't']
  else if c = '\x08' then ['\\', 'b']
  else if c = '\x0c' then ['\\', 'f']
  else if c < ' ' then
    ['\\', 'u', '0', '0', Text.hexDigit (c.toNat / 16), Text.hexDigit (c.toNat % 16)]
  else [c]

/-- The characters of a string between quotes. -/
def quoted (s : String) : List Char :=
  '"' :: (s.toList.flatMap escaped ++ ['"'])

mutual
/-- The characters of the compact text. -/
def compactChars : Json → List Char
  | .null => ['n', 'u', 'l', 'l']
  | .bool true => ['t', 'r', 'u', 'e']
  | .bool false => ['f', 'a', 'l', 's', 'e']
  | .number literal => literal.toList
  | .string value => quoted value
  | .array [] => ['[', ']']
  | .array (item :: items) => '[' :: (item.compactChars ++ compactItems items)
  | .object [] => ['\x7b', '\x7d']
  | .object ((key, value) :: members) =>
    '\x7b' :: (quoted key ++ ':' :: (value.compactChars ++ compactMembers members))
  | .unreadable text => text.toList
/-- The items after the first one, and the closing bracket. -/
def compactItems : List Json → List Char
  | [] => [']']
  | item :: items => ',' :: (item.compactChars ++ compactItems items)
/-- The members after the first one, and the closing brace. -/
def compactMembers : List (String × Json) → List Char
  | [] => ['\x7d']
  | (key, value) :: members =>
    ',' :: (quoted key ++ ':' :: (value.compactChars ++ compactMembers members))
end

/-- The text of a value without any gap. -/
def compact (value : Json) : String :=
  String.ofList value.compactChars

/-- A line break and the indentation of `level`. -/
def lineBreak (level : Nat) : List Char :=
  '\n' :: List.replicate (2 * level) ' '

mutual
/-- The characters of the indented text of a value that stands at `level`. -/
def indentedChars (level : Nat) : Json → List Char
  | .array (item :: items) =>
    '[' :: (lineBreak (level + 1) ++ item.indentedChars (level + 1) ++ indentedItems level items)
  | .object ((key, value) :: members) =>
    '\x7b' :: (lineBreak (level + 1) ++ quoted key ++ ':' :: ' ' ::
      (value.indentedChars (level + 1) ++ indentedMembers level members))
  | value => value.compactChars
/-- The items after the first one, one a line, and the closing bracket. -/
def indentedItems (level : Nat) : List Json → List Char
  | [] => lineBreak level ++ [']']
  | item :: items =>
    ',' :: (lineBreak (level + 1) ++ item.indentedChars (level + 1) ++ indentedItems level items)
/-- The members after the first one, one a line, and the closing brace. -/
def indentedMembers (level : Nat) : List (String × Json) → List Char
  | [] => lineBreak level ++ ['\x7d']
  | (key, value) :: members =>
    ',' :: (lineBreak (level + 1) ++ quoted key ++ ':' :: ' ' ::
      (value.indentedChars (level + 1) ++ indentedMembers level members))
end

/-- The text of a value with one item or member a line. -/
def indented (value : Json) : String :=
  String.ofList (value.indentedChars 0)

end DeclMerge.Json
