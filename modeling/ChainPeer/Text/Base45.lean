import ChainPeer.Bytes

/-!
# Base 45

Byte strings in an alphabet of 45 characters. Two bytes are written as the three digits of the
number they form, and a byte left over as two digits, each time the lowest digit first.
-/

namespace ChainPeer.Text.Base45

/-- The characters of the digits from zero on. -/
def alphabet : List Char := "0123456789ABCDEFGHIJKLMNOPQRSTUVWXYZ $%*+-./:".toList

/-- The value of a digit; letters are of either case. -/
def value? (c : Char) : Option Nat :=
  alphabet.idxOf? c.toUpper

/-- The bytes that digits stand for. -/
def ofDigits? : List Nat → Option Bytes
  | [] => some []
  | [_] => none
  | [low, high] => do
    let n := low + 45 * high
    guard (n < UInt8.size)
    pure [UInt8.ofNat n]
  | low :: middle :: high :: rest => do
    let n := low + 45 * (middle + 45 * high)
    guard (n < UInt16.size)
    let bytes ← ofDigits? rest
    pure (UInt8.ofNat (n / UInt8.size) :: UInt8.ofNat (n % UInt8.size) :: bytes)

def decode? (text : List Char) : Option Bytes :=
  (text.mapM value?).bind ofDigits?

end ChainPeer.Text.Base45
