import DeclMerge.Text.Blank

/-!
# Forms of log lines

## Main definitions

* `LogStyle` — the forms
* `LogStyle.ofText` — the form that a text names
-/

namespace DeclMerge

/-- The forms of log lines. -/
inductive LogStyle where
  | text | tree | json
deriving DecidableEq, Repr, Inhabited

namespace LogStyle

/-- The word for a form. -/
def tag : LogStyle → String
  | .text => "text"
  | .tree => "tree"
  | .json => "json"

/-- The form that a word names, in letters of either case and with blanks around it. Any other
text means plain text. -/
def ofText (text : String) : LogStyle :=
  let word := (Text.trim text.toList).map Char.toLower
  ([tree, json].find? fun format => format.tag.toList = word).getD .text

end LogStyle

end DeclMerge
