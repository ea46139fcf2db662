import DeclMerge.Text.Split

/-!
# Colored text

On a terminal every line of the report is styled by what it says.

## Main definitions

* `Paint.styleOf` — the style of a line
* `Paint.painted` — a line in a style
* `Paint.text` — a text with all lines styled
-/

namespace DeclMerge.Paint

/-- The sequence that sets a style. -/
def setStyle (codes : String) : List Char := ('\x1b' :: '[' :: codes.toList) ++ ['m']

/-- The sequence that ends all styles. -/
def reset : List Char := setStyle "0"

/-- The text of a line after every end of all styles in it has been followed by the sequence
`style`. -/
def restyle (style : List Char) : List Char → List Char
  | [] => []
  | '\x1b' :: '[' :: '0' :: 'm' :: rest => reset ++ style ++ restyle style rest
  | c :: rest => c :: restyle style rest

/-- A line in a style, which goes on where the line itself ends all styles. -/
def painted (codes : String) (line : List Char) : List Char :=
  setStyle codes ++ restyle (setStyle codes) line ++ reset

/-- Whether a text stands somewhere in another one. -/
def occursIn (part : List Char) : List Char → Bool
  | [] => part.isEmpty
  | c :: rest => part.isPrefixOf (c :: rest) || occursIn part rest

/-- The style of a line: errors bold red, clashes yellow, details dim, failures red, and
everything else bold. -/
def styleOf (line : List Char) : String :=
  if "error:".toList.isPrefixOf line then "1;31"
  else if "conflict ".toList.isPrefixOf line then "33"
  else if "  ".toList.isPrefixOf line then "2"
  else if occursIn ": Failure(".toList line then "31"
  else "1"

/-- A text with all lines styled, each with a line break. -/
def text (s : String) : String :=
  String.ofList ((Text.lines s.toList).flatMap fun line => painted (styleOf line) line ++ ['\n'])

end DeclMerge.Paint
