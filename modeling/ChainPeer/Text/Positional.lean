import ChainPeer.Bytes

/-!
# Bytes as a number in some base

Byte strings written as the digits of the number whose big-endian bytes they are. Each leading zero
byte is one leading zero digit. Base 58 leaves out `0`, `O`, `I` and `l`.
-/

namespace ChainPeer.Text.Positional

/-- The digits of a number in a base of at least two, least significant first; none for zero. -/
def digitsOf (base : Nat) (hbase : 2 ≤ base) (n : Nat) : List Nat :=
  if _h : n = 0 then [] else n % base :: digitsOf base hbase (n / base)
termination_by n
decreasing_by exact Nat.div_lt_self (Nat.pos_of_ne_zero _h) hbase

/-- The number with these digits, most significant first. -/
def numberOf (base : Nat) (digits : List Nat) : Nat :=
  digits.foldl (fun n d => n * base + d) 0

def leadingZeros (digits : List Nat) : Nat :=
  (digits.takeWhile (· = 0)).length

/-- Changes the base of digits that are given most significant first. -/
def rebase (source target : Nat) (htarget : 2 ≤ target) (digits : List Nat) : List Nat :=
  List.replicate (leadingZeros digits) 0 ++
    (digitsOf target htarget (numberOf source digits)).reverse

/-- Reads the text of a byte string in an alphabet, whose size is the base. -/
def decode? (alphabet text : List Char) : Option Bytes := do
  let digits ← text.mapM alphabet.idxOf?
  pure ((rebase alphabet.length 256 (by omega) digits).map UInt8.ofNat)

def base58 : List Char :=
  "123456789ABCDEFGHJKLMNPQRSTUVWXYZabcdefghijkmnopqrstuvwxyz".toList

def encodeBase58 (bytes : Bytes) : List Char :=
  (rebase 256 58 (by omega) (bytes.map UInt8.toNat)).map fun d => base58.getD d '1'

end ChainPeer.Text.Positional
