/-!
# Hexadecimal digits

## Main definitions

* `Text.hexDigit` — the lower-case digit of a number below sixteen
* `Text.hexValue?` — the value of a digit of either case
* `Text.hexText` — a number in lower-case digits

## Main results

* `Text.hexValue?_hexDigit` — a written digit is read back
-/

namespace DeclMerge.Text

/-- The lower-case digit of a number below sixteen. -/
def hexDigit (n : Nat) : Char :=
  if n < 10 then Char.ofNat ('0'.toNat + n) else Char.ofNat ('a'.toNat + (n - 10))

/-- The value of a digit of either case. -/
def hexValue? (c : Char) : Option Nat :=
  if '0' ≤ c && c ≤ '9' then some (c.toNat - '0'.toNat)
  else if 'a' ≤ c && c ≤ 'f' then some (c.toNat - 'a'.toNat + 10)
  else if 'A' ≤ c && c ≤ 'F' then some (c.toNat - 'A'.toNat + 10)
  else none

/-- The lower-case digits of a number, without leading zeros. -/
def hexText (n : Nat) : List Char :=
  if n < 16 then [hexDigit n] else hexText (n / 16) ++ [hexDigit (n % 16)]

/-- The value of a list of digits, of which there must be at least one. -/
def hexNumber? : List Char → Option Nat
  | [] => none
  | digits => (digits.mapM hexValue?).map fun values => values.foldl (fun n d => 16 * n + d) 0

theorem hexValue?_hexDigit : ∀ n < 16, hexValue? (hexDigit n) = some n := by decide

end DeclMerge.Text
