import DeclMerge.Json.Number
import DeclMerge.Text.Hex

/-!
# The extent of JSON values

Where a value ends is a matter of the grammar alone: four blank characters, no comments, no
trailing commas, no raw control characters in strings, escapes of one letter or of four
hexadecimal digits. Values may be nested to any depth here, and an escape may give half of a
surrogate pair, so that a value can be passed over even where it cannot be read.

## Main definitions

* `Json.skipGap` — the text after the blanks at its front
* `Json.afterString?` — the text after the rest of a string
* `Json.afterValue?` — the text after the value at its front
-/

namespace DeclMerge.Json

/-- The four characters that may stand between tokens. -/
def isGap (c : Char) : Bool :=
  c = ' ' || c = '\t' || c = '\n' || c = '\r'

/-- The text after the gap at its front. -/
def skipGap (cs : List Char) : List Char :=
  cs.dropWhile isGap

/-- The value of four hexadecimal digits. -/
def hexUnit? (a b c d : Char) : Option Nat := Text.hexNumber? [a, b, c, d]

/-- The character that a one-letter escape stands for. -/
def simpleEscape? : Char → Option Char
  | '"' => some '"'
  | '\\' => some '\\'
  | '/' => some '/'
  | 'b' => some '\x08'
  | 'f' => some '\x0c'
  | 'n' => some '\n'
  | 'r' => some '\r'
  | 't' => some '\t'
  | _ => none

/-- What follows a string whose opening quote has been passed. -/
def afterString? : List Char → Option (List Char)
  | [] => none
  | '"' :: rest => some rest
  | '\\' :: 'u' :: a :: b :: c :: d :: rest =>
    if (hexUnit? a b c d).isSome then afterString? rest else none
  | '\\' :: c :: rest => if (simpleEscape? c).isSome then afterString? rest else none
  | c :: rest => if c = '\\' || c < ' ' then none else afterString? rest

/-- What follows the value at the front of a text, if it is neither an array nor an object. -/
def afterScalar? : List Char → Option (List Char)
  | 'n' :: 'u' :: 'l' :: 'l' :: rest => some rest
  | 't' :: 'r' :: 'u' :: 'e' :: rest => some rest
  | 'f' :: 'a' :: 'l' :: 's' :: 'e' :: rest => some rest
  | '"' :: rest => afterString? rest
  | cs => (numberLiteral? cs).map Prod.snd

/-- What can enclose a value. -/
inductive Enclosure where
  | array
  | object
deriving DecidableEq

/-- What has to come next in a text: a value, the key of a member, or what may stand behind a
value. -/
inductive Awaited where
  | value
  | key
  | separator
deriving DecidableEq

/-- What follows the outermost value of a text in which the `enclosures` are open, innermost
first. Every step takes at least one character, apart from the one that finds none open; the
first argument bounds their number. -/
def afterEnclosures? : Nat → Awaited → List Enclosure → List Char → Option (List Char)
  | 0, _, _, _ => none
  | steps + 1, .value, enclosures, cs =>
    match skipGap cs with
    | '[' :: rest =>
      match skipGap rest with
      | ']' :: rest => afterEnclosures? steps .separator enclosures rest
      | _ => afterEnclosures? steps .value (.array :: enclosures) rest
    | '\x7b' :: rest =>
      match skipGap rest with
      | '\x7d' :: rest => afterEnclosures? steps .separator enclosures rest
      | _ => afterEnclosures? steps .key (.object :: enclosures) rest
    | cs =>
      match afterScalar? cs with
      | some rest => afterEnclosures? steps .separator enclosures rest
      | none => none
  | steps + 1, .key, enclosures, cs =>
    match skipGap cs with
    | '"' :: rest =>
      match afterString? rest with
      | none => none
      | some rest =>
        match skipGap rest with
        | ':' :: rest => afterEnclosures? steps .value enclosures rest
        | _ => none
    | _ => none
  | _ + 1, .separator, [], cs => some cs
  | steps + 1, .separator, .array :: enclosures, cs =>
    match skipGap cs with
    | ',' :: rest => afterEnclosures? steps .value (.array :: enclosures) rest
    | ']' :: rest => afterEnclosures? steps .separator enclosures rest
    | _ => none
  | steps + 1, .separator, .object :: enclosures, cs =>
    match skipGap cs with
    | ',' :: rest => afterEnclosures? steps .key (.object :: enclosures) rest
    | '\x7d' :: rest => afterEnclosures? steps .separator enclosures rest
    | _ => none

/-- What follows the value at the front of a text. -/
def afterValue? (cs : List Char) : Option (List Char) :=
  afterEnclosures? (cs.length + 1) .value [] cs

/-! ## Laws -/

/-- Only the front of a text is a gap. -/
theorem skipGap_suffix (cs : List Char) : skipGap cs <:+ cs := List.dropWhile_suffix _

/-- What follows a string is the end of its text. -/
theorem afterString?_suffix {cs rest : List Char} (h : afterString? cs = some rest) :
    rest <:+ cs := by
  fun_induction afterString? cs with
  | case1 => simp at h
  | case2 rest => simp_all
  | case3 a b c d tail hu ih =>
    exact (ih h).trans ⟨['\\', 'u', a, b, c, d], rfl⟩
  | case4 => simp at h
  | case5 c tail _ _ ih => exact (ih h).trans ⟨['\\', c], rfl⟩
  | case6 => simp at h
  | case7 => simp at h
  | case8 c tail _ _ _ _ ih => exact (ih h).trans ⟨[c], rfl⟩

/-- What follows a scalar is the end of its text. -/
theorem afterScalar?_suffix {cs rest : List Char} (h : afterScalar? cs = some rest) :
    rest <:+ cs := by
  unfold afterScalar? at h
  split at h
  · simp only [Option.some.injEq] at h
    exact h ▸ ⟨['n', 'u', 'l', 'l'], rfl⟩
  · simp only [Option.some.injEq] at h
    exact h ▸ ⟨['t', 'r', 'u', 'e'], rfl⟩
  · simp only [Option.some.injEq] at h
    exact h ▸ ⟨['f', 'a', 'l', 's', 'e'], rfl⟩
  · exact (afterString?_suffix h).trans (List.suffix_cons _ _)
  · obtain ⟨⟨literal, r⟩, hl, rfl⟩ := Option.map_eq_some_iff.mp h
    exact ⟨literal, append_of_numberLiteral? hl⟩

/-- What follows a character behind a gap is the end of its text. -/
theorem suffix_of_skipGap {cs rest : List Char} {c : Char} (h : skipGap cs = c :: rest) :
    rest <:+ cs :=
  (List.suffix_cons c rest).trans (h ▸ skipGap_suffix cs)

/-- What follows the outermost value is the end of its text. -/
theorem afterEnclosures?_suffix {steps : Nat} {awaited : Awaited}
    {enclosures : List Enclosure} {cs rest : List Char}
    (h : afterEnclosures? steps awaited enclosures cs = some rest) : rest <:+ cs := by
  fun_induction afterEnclosures? steps awaited enclosures cs with
  | case1 | case7 | case8 | case10 | case11 | case15 | case18 => simp at h
  | case2 _ _ _ _ hc _ ho ih | case4 _ _ _ _ hc _ ho ih =>
    exact (ih h).trans ((suffix_of_skipGap ho).trans (suffix_of_skipGap hc))
  | case3 _ _ _ _ hc _ ih | case5 _ _ _ _ hc _ ih => exact (ih h).trans (suffix_of_skipGap hc)
  | case6 _ _ _ _ _ _ hs ih =>
    exact (ih h).trans ((afterScalar?_suffix hs).trans (skipGap_suffix _))
  | case9 _ _ _ _ hc _ hs _ ho ih =>
    exact (ih h).trans ((suffix_of_skipGap ho).trans
      ((afterString?_suffix hs).trans (suffix_of_skipGap hc)))
  | case12 => simp_all
  | case13 _ _ _ _ hc ih | case14 _ _ _ _ hc ih | case16 _ _ _ _ hc ih | case17 _ _ _ _ hc ih =>
    exact (ih h).trans (suffix_of_skipGap hc)

/-- What follows a value is the end of its text. -/
theorem afterValue?_suffix {cs rest : List Char} (h : afterValue? cs = some rest) :
    rest <:+ cs :=
  afterEnclosures?_suffix h

end DeclMerge.Json
