/-!
# Unsigned numbers

Decimal numerals of bounded value: digits, at least one, after an optional plus sign.
-/

namespace ChainPeer.Text

def digitValue? (c : Char) : Option Nat :=
  if '0' ≤ c ∧ c ≤ '9' then some (c.toNat - 48) else none

/-- The number that digits in a base spell, after the value `n` of those in front. -/
def numeral (base n : Nat) (digits : List Nat) : Nat :=
  digits.foldl (fun n d => n * base + d) n

/-- Reads a numeral of a number below `bound`. -/
def unsigned? (bound : Nat) (text : List Char) : Option Nat := do
  let text := match text with
    | '+' :: rest => rest
    | text => text
  guard (text ≠ [])
  let digits ← text.mapM digitValue?
  let n := numeral 10 0 digits
  guard (n < bound)
  pure n

end ChainPeer.Text
