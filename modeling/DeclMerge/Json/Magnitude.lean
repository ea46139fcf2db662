import DeclMerge.Json.Number

/-!
# The magnitude of JSON numbers

A literal counts as a significand of at most 64 bits, scaled by a power of ten in double
precision. The significand and the power are rounded before they are multiplied, so that a
literal just below the limit of double precision may overflow.

## Main definitions

* `Json.Scaled` — a magnitude as a significand and a power of ten
* `Json.isFiniteLiteral` — the magnitude of a literal does not overflow
-/

namespace DeclMerge.Json

/-- The value of a decimal digit. -/
def digitValue (c : Char) : Nat := c.toNat - '0'.toNat

/-- The value of a list of decimal digits. -/
def decimalValue (ds : List Char) : Nat :=
  ds.foldl (fun n c => 10 * n + digitValue c) 0

/-- The largest significand, of 64 bits. -/
def maxSignificand : Nat := 0xFFFFFFFFFFFFFFFF

/-- The significand with digits behind it, as many as it can take, and the number of digits that
are left. -/
def appendDigits (significand : Nat) : List Char → Nat × Nat
  | [] => (significand, 0)
  | c :: cs =>
    let longer := 10 * significand + digitValue c
    if longer ≤ maxSignificand then appendDigits longer cs
    else (significand, cs.length + 1)

/-- A magnitude as a significand of at most 64 bits, scaled by a power of ten. -/
structure Scaled where
  significand : Nat
  exponent : Int

/-- The magnitude of a literal. Digits that the significand cannot take count for their place in
the whole part only. -/
def Scaled.ofLiteral (literal : String) : Scaled :=
  let cs := (signPart literal.toList).2
  let mantissa := cs.takeWhile fun c => c ≠ 'e' && c ≠ 'E'
  let written := (cs.dropWhile fun c => c ≠ 'e' && c ≠ 'E').drop 1
  let fraction := (mantissa.dropWhile (· ≠ '.')).drop 1
  let (whole, wholeLeft) := appendDigits 0 (mantissa.takeWhile (· ≠ '.'))
  let (significand, fractionLeft) := appendDigits whole fraction
  let power := decimalValue (written.filter Char.isDigit)
  let exponent : Int := if written.head? = some '-' then -(power : Int) else power
  ⟨significand, exponent + wholeLeft - (fraction.length - fractionLeft : Nat)⟩

/-- The nearest number with a significand of 53 bits; a tie goes to the even one. -/
def roundToDouble (n : Nat) : Nat :=
  let unit := Nat.pow 2 (n.log2 - 52)
  let below := n / unit
  let excess := 2 * (n % unit)
  if unit < excess || (excess = unit && below % 2 = 1) then (below + 1) * unit else below * unit

/-- The least magnitude that rounds to infinity in double precision. -/
def doubleOverflow : Nat := Nat.pow 2 1024 - Nat.pow 2 970

/-- The exponent of the largest power of ten in double precision. -/
def maxPowerOfTen : Int := 308

/-- A magnitude is finite when its significand times its power of ten is, both of them and their
product rounded to double precision. A division never overflows. -/
def Scaled.isFinite (n : Scaled) : Bool :=
  n.significand = 0 || n.exponent < 0 ||
    (n.exponent ≤ maxPowerOfTen &&
      roundToDouble n.significand * roundToDouble (Nat.pow 10 n.exponent.toNat) < doubleOverflow)

/-- A literal is finite when its magnitude is. -/
def isFiniteLiteral (literal : String) : Bool :=
  (Scaled.ofLiteral literal).isFinite

/-- A significand takes digits only while it has at most 64 bits. -/
theorem appendDigits_le {significand : Nat} (h : significand ≤ maxSignificand)
    (ds : List Char) : (appendDigits significand ds).1 ≤ maxSignificand := by
  induction ds generalizing significand with
  | nil => exact h
  | cons c cs ih =>
    simp only [appendDigits]
    split
    · next longer => exact ih longer
    · exact h

end DeclMerge.Json
