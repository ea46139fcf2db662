/-!
# Blank characters and trimming

Flags, target names and log styles may be surrounded by blanks. Blank
means the Unicode property `White_Space`, which has twenty-five members, and not only the ASCII
characters that `Char.isWhitespace` knows.

## Main definitions

* `Text.isBlank` — membership in `White_Space`
* `Text.trim` — a text without the blanks at its two ends
-/

namespace DeclMerge.Text

/-- The code points of `White_Space`, as inclusive ranges in increasing order. -/
def blankRanges : List (Nat × Nat) :=
  [(0x9, 0xD), (0x20, 0x20), (0x85, 0x85), (0xA0, 0xA0), (0x1680, 0x1680), (0x2000, 0x200A),
   (0x2028, 0x2029), (0x202F, 0x202F), (0x205F, 0x205F), (0x3000, 0x3000)]

/-- A character is blank when its code point lies in one of `blankRanges`. -/
def isBlank (c : Char) : Bool :=
  blankRanges.any fun r => r.1 ≤ c.toNat && c.toNat ≤ r.2

/-- Removes the blanks at the front of a text. -/
def trimFront (cs : List Char) : List Char :=
  cs.dropWhile isBlank

/-- Removes the blanks at both ends of a text and none from its middle. -/
def trim (cs : List Char) : List Char :=
  (trimFront (trimFront cs).reverse).reverse

@[simp] theorem trimFront_nil : trimFront [] = [] := rfl

@[simp] theorem trim_nil : trim [] = [] := rfl

/-- What is left after trimming the front does not start with a blank. -/
theorem not_isBlank_head_trimFront {cs : List Char} {c : Char} {rest : List Char}
    (h : trimFront cs = c :: rest) : isBlank c = false := by
  induction cs with
  | nil => simp at h
  | cons d ds ih =>
    unfold trimFront at h ih
    rw [List.dropWhile_cons] at h
    split at h
    · exact ih h
    · rename_i hd
      obtain ⟨rfl, -⟩ := List.cons.inj h
      simpa using hd

end DeclMerge.Text
