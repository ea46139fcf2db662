/-!
# Cutting texts into pieces

## Main definitions

* `Text.splitOn` — the pieces between the occurrences of one character
* `Text.cutFirst?` — the parts before and after the first occurrence of a character
* `Text.cutLast?` — the parts before and after the last occurrence of a character
* `Text.joinWith` — pieces joined by a separator
* `Text.bracketed` — pieces between brackets
* `Text.lines` — the lines of a text, each ended by LF or CRLF
-/

namespace DeclMerge.Text

/-- The pieces of a text between the occurrences of `sep`; there is one piece more than there are
occurrences. -/
def splitOn (sep : Char) : List Char → List (List Char)
  | [] => [[]]
  | c :: cs =>
    if c = sep then [] :: splitOn sep cs
    else
      match splitOn sep cs with
      | [] => [[c]]
      | piece :: pieces => (c :: piece) :: pieces

/-- The parts before and after the first `sep`, or `none` when there is no `sep`. -/
def cutFirst? (sep : Char) : List Char → Option (List Char × List Char)
  | [] => none
  | c :: cs =>
    if c = sep then some ([], cs)
    else (cutFirst? sep cs).map fun p => (c :: p.1, p.2)

/-- The parts before and after the last `sep`, or `none` when there is no `sep`. -/
def cutLast? (sep : Char) : List Char → Option (List Char × List Char)
  | [] => none
  | c :: cs =>
    match cutLast? sep cs with
    | some (before, after) => some (c :: before, after)
    | none => if c = sep then some ([], cs) else none

/-- The concatenation of `pieces` with `sep` between any two neighbours. -/
def joinWith (sep : String) : List String → String
  | [] => ""
  | [piece] => piece
  | piece :: pieces => piece ++ sep ++ joinWith sep pieces

/-- The pieces between brackets, with commas. -/
def bracketed (pieces : List String) : String :=
  "[" ++ joinWith ", " pieces ++ "]"

/-- One line without the carriage return that may end it. -/
def dropReturn (line : List Char) : List Char :=
  match line.reverse with
  | '\r' :: rest => rest.reverse
  | _ => line

/-- The lines of a text. A line ends with LF or CRLF; the last one may lack its end, and an empty
rest after the last LF is no line. -/
def lines (cs : List Char) : List (List Char) :=
  let pieces := splitOn '\n' cs
  let closed := pieces.dropLast.map dropReturn
  match pieces.getLast? with
  | none | some [] => closed
  | some rest => closed ++ [rest]

theorem cutLast?_eq_none_iff {sep : Char} {cs : List Char} :
    cutLast? sep cs = none ↔ sep ∉ cs := by
  induction cs with
  | nil => simp [cutLast?]
  | cons c cs ih =>
    cases hcut : cutLast? sep cs with
    | none =>
      have hnot : sep ∉ cs := ih.mp hcut
      by_cases hc : c = sep
      · simp [cutLast?, hcut, hc]
      · simp [cutLast?, hcut, hc, hnot, Ne.symm hc]
    | some cut =>
      have hmem : sep ∈ cs := Decidable.byContradiction fun hnot => by
        rw [ih.mpr hnot] at hcut
        cases hcut
      simp [cutLast?, hcut, hmem]

/-- Cutting at the last separator loses nothing. -/
theorem cutLast?_eq_some {sep : Char} {cs before after : List Char}
    (h : cutLast? sep cs = some (before, after)) :
    cs = before ++ sep :: after ∧ sep ∉ after := by
  induction cs generalizing before with
  | nil => simp [cutLast?] at h
  | cons c cs ih =>
    unfold cutLast? at h
    split at h
    · rename_i b a hba
      simp only [Option.some.injEq, Prod.mk.injEq] at h
      obtain ⟨rfl, rfl⟩ := h
      obtain ⟨hcs, hnot⟩ := ih hba
      exact ⟨by simp [hcs], hnot⟩
    · rename_i hnone
      split at h
      · rename_i hc
        simp only [Option.some.injEq, Prod.mk.injEq] at h
        obtain ⟨rfl, rfl⟩ := h
        exact ⟨by simp [hc], cutLast?_eq_none_iff.mp hnone⟩
      · simp at h

/-- A text is cut where no separator follows. -/
theorem cutLast?_append {sep : Char} {after : List Char} (h : sep ∉ after) (before : List Char) :
    cutLast? sep (before ++ sep :: after) = some (before, after) := by
  induction before with
  | nil => rw [List.nil_append, cutLast?, cutLast?_eq_none_iff.mpr h, if_pos rfl]
  | cons c before ih => rw [List.cons_append, cutLast?, ih]

end DeclMerge.Text
