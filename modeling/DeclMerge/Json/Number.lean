import DeclMerge.Json.Basic

/-!
# JSON number literals

## Main definitions

* `Json.numberLiteral?` — the longest number literal at the front of a text
-/

namespace DeclMerge.Json

/-- The digits at the front of a text and what follows them; there must be at least one. -/
def digits? (cs : List Char) : Option (List Char × List Char) :=
  match cs.takeWhile Char.isDigit with
  | [] => none
  | ds => some (ds, cs.dropWhile Char.isDigit)

/-- The optional minus sign of a literal. -/
def signPart : List Char → List Char × List Char
  | '-' :: rest => (['-'], rest)
  | cs => ([], cs)

/-- The whole part of a literal: a single zero, or digits that do not start with one. -/
def wholePart? : List Char → Option (List Char × List Char)
  | '0' :: rest => some (['0'], rest)
  | cs => digits? cs

/-- The optional fraction of a literal: a point and at least one digit. -/
def fractionPart? : List Char → Option (List Char × List Char)
  | '.' :: rest => (digits? rest).map fun p => ('.' :: p.1, p.2)
  | cs => some ([], cs)

/-- The optional exponent of a literal: `e` or `E`, an optional sign and at least one digit. -/
def exponentPart? : List Char → Option (List Char × List Char)
  | 'e' :: '-' :: rest => (digits? rest).map fun p => ('e' :: '-' :: p.1, p.2)
  | 'e' :: '+' :: rest => (digits? rest).map fun p => ('e' :: '+' :: p.1, p.2)
  | 'e' :: rest => (digits? rest).map fun p => ('e' :: p.1, p.2)
  | 'E' :: '-' :: rest => (digits? rest).map fun p => ('E' :: '-' :: p.1, p.2)
  | 'E' :: '+' :: rest => (digits? rest).map fun p => ('E' :: '+' :: p.1, p.2)
  | 'E' :: rest => (digits? rest).map fun p => ('E' :: p.1, p.2)
  | cs => some ([], cs)

/-- The number literal at the front of a text and what follows it. -/
def numberLiteral? (cs : List Char) : Option (List Char × List Char) := do
  let (sign, cs) := signPart cs
  let (whole, cs) ← wholePart? cs
  let (fraction, cs) ← fractionPart? cs
  let (exponent, cs) ← exponentPart? cs
  return (sign ++ whole ++ fraction ++ exponent, cs)

/-- The digits found are digits, and nothing is lost. -/
theorem digits?_eq_some {cs ds rest : List Char} (h : digits? cs = some (ds, rest)) :
    cs = ds ++ rest ∧ ∀ c ∈ ds, c.isDigit = true := by
  unfold digits? at h
  split at h
  · simp at h
  · simp only [Option.some.injEq, Prod.mk.injEq] at h
    obtain ⟨rfl, rfl⟩ := h
    refine ⟨List.takeWhile_append_dropWhile.symm, fun c hc => ?_⟩
    exact List.all_eq_true.mp List.all_takeWhile c hc

/-- The sign is cut off without a loss. -/
theorem append_signPart (cs : List Char) : (signPart cs).1 ++ (signPart cs).2 = cs := by
  unfold signPart
  split <;> rfl

/-- The whole part is cut off without a loss. -/
theorem append_of_wholePart? {cs ds rest : List Char} (h : wholePart? cs = some (ds, rest)) :
    ds ++ rest = cs := by
  unfold wholePart? at h
  split at h
  · simp only [Option.some.injEq, Prod.mk.injEq] at h
    obtain ⟨rfl, rfl⟩ := h
    rfl
  · exact (digits?_eq_some h).1.symm

/-- The fraction is cut off without a loss. -/
theorem append_of_fractionPart? {cs ds rest : List Char}
    (h : fractionPart? cs = some (ds, rest)) : ds ++ rest = cs := by
  unfold fractionPart? at h
  split at h
  · obtain ⟨p, hp, hpe⟩ := Option.map_eq_some_iff.mp h
    simp only [Prod.mk.injEq] at hpe
    obtain ⟨rfl, rfl⟩ := hpe
    rw [(digits?_eq_some hp).1]
    rfl
  · simp_all

/-- The exponent is cut off without a loss. -/
theorem append_of_exponentPart? {cs ds rest : List Char}
    (h : exponentPart? cs = some (ds, rest)) : ds ++ rest = cs := by
  unfold exponentPart? at h
  split at h
  case h_7 => simp_all
  all_goals
    obtain ⟨p, hp, hpe⟩ := Option.map_eq_some_iff.mp h
    simp only [Prod.mk.injEq] at hpe
    obtain ⟨rfl, rfl⟩ := hpe
    rw [(digits?_eq_some hp).1]
    rfl

/-- A literal is cut off a text without a loss. -/
theorem append_of_numberLiteral? {cs literal rest : List Char}
    (h : numberLiteral? cs = some (literal, rest)) : literal ++ rest = cs := by
  simp only [numberLiteral?, Option.bind_eq_bind, Option.bind_eq_some_iff, Option.pure_def,
    Option.some.injEq, Prod.mk.injEq, Prod.exists] at h
  obtain ⟨whole, r₁, hw, fraction, r₂, hf, exponent, r₃, he, rfl, rfl⟩ := h
  rw [List.append_assoc, List.append_assoc, List.append_assoc, append_of_exponentPart? he,
    append_of_fractionPart? hf, append_of_wholePart? hw, append_signPart]

end DeclMerge.Json
