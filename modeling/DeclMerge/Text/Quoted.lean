import DeclMerge.Text.Hex
import DeclMerge.Text.Unshown

/-!
# Quoted texts

In diagnostic texts a name stands between quotes. Quotes, backslashes and characters that do not
show as themselves are escaped, the latter by their code points.

## Main definitions

* `Text.quoted` — a text between quotes
-/

namespace DeclMerge.Text

/-- How a character stands inside quotes. -/
def quotedChar (c : Char) : List Char :=
  if c = '"' then ['\\', '"']
  else if c = '\\' then ['\\', '\\']
  else if c = '\n' then ['\\', 'n']
  else if c = '\r' then ['\\', 'r']
  else if c = '\t' then ['\\', 't']
  else if c = '\x00' then ['\\', '0']
  else if isUnshown c then ['\\', 'u', '\x7b'] ++ hexText c.toNat ++ ['\x7d']
  else [c]

/-- A text between quotes. -/
def quoted (s : String) : String :=
  String.ofList ('"' :: (s.toList.flatMap quotedChar ++ ['"']))

end DeclMerge.Text
