import ChainPeer.Bytes

/-!
# Bytes as digits

Byte strings written in an alphabet whose size is a power of two: the bits of the bytes, most
significant first, in groups of a fixed width. The bits that fill up the last group are zero and
fewer than a group. A padded text is made of blocks, each filled up with `=` at its end.
-/

namespace ChainPeer.Text

/-- An alphabet of `2 ^ width` digits. -/
structure Radix where
  width : Nat
  digits : List Char

namespace Radix

def value? (r : Radix) (c : Char) : Option Nat :=
  r.digits.idxOf? c

/-- The low `width` bits of a number, most significant first. -/
def bits (width n : Nat) : List Bool :=
  (List.range width).reverse.map fun i => n.testBit i

/-- The number with these bits, most significant first. -/
def ofBits (bits : List Bool) : Nat :=
  bits.foldl (fun n b => 2 * n + b.toNat) 0

/-- Cuts a list into groups of `size + 1`; the last may be shorter. -/
def groups {α : Type} (size : Nat) : List α → List (List α)
  | [] => []
  | a :: rest => (a :: rest.take size) :: groups size (rest.drop size)
termination_by l => l.length
decreasing_by
  simp only [List.length_cons, List.length_drop]
  omega

def encode (r : Radix) (bytes : Bytes) : List Char :=
  (groups (r.width - 1) (bytes.flatMap fun b => bits 8 b.toNat)).map fun group =>
    r.digits.getD (ofBits (group ++ List.replicate (r.width - group.length) false)) '='

def decode? (r : Radix) (text : List Char) : Option Bytes := do
  let values ← text.mapM r.value?
  let all := values.flatMap (bits r.width)
  let octets := (groups 7 all).filter (·.length = 8)
  let left := all.drop (8 * octets.length)
  guard (left.length < r.width ∧ left.all (! ·))
  pure (octets.map fun octet => UInt8.ofNat (ofBits octet))

def blockLength (r : Radix) : Nat :=
  Nat.lcm 8 r.width / r.width

def encodePadded (r : Radix) (bytes : Bytes) : List Char :=
  let text := r.encode bytes
  text ++ List.replicate ((r.blockLength - text.length % r.blockLength) % r.blockLength) '='

def decodeBlock? (r : Radix) (block : List Char) : Option Bytes := do
  let text := (block.reverse.dropWhile (· = '=')).reverse
  guard (block.length = r.blockLength ∧ text ≠ [])
  r.decode? text

def decodePadded? (r : Radix) (text : List Char) : Option Bytes := do
  let blocks ← (groups (r.blockLength - 1) text).mapM r.decodeBlock?
  pure blocks.flatten

/-- The alphabets of base 2, 8 and 16. -/
def base2 : Radix := ⟨1, "01".toList⟩

@[inherit_doc base2]
def base8 : Radix := ⟨3, "01234567".toList⟩

@[inherit_doc base2]
def base16 : Radix := ⟨4, "0123456789abcdef".toList⟩

def base32 : Radix := ⟨5, "abcdefghijklmnopqrstuvwxyz234567".toList⟩

/-- The alphabet of base 32 that begins with the decimal digits, in lower case. -/
def base32Hex : Radix := ⟨5, "0123456789abcdefghijklmnopqrstuv".toList⟩

/-- The alphabet of base 32 made to be read by people. -/
def base32Z : Radix := ⟨5, "ybndrfg8ejkmcpqxot1uwisza345h769".toList⟩

def base64 : Radix :=
  ⟨6, "ABCDEFGHIJKLMNOPQRSTUVWXYZabcdefghijklmnopqrstuvwxyz0123456789+/".toList⟩

/-- The alphabet of base 64 that is safe in addresses. -/
def base64Url : Radix :=
  ⟨6, "ABCDEFGHIJKLMNOPQRSTUVWXYZabcdefghijklmnopqrstuvwxyz0123456789-_".toList⟩

/-- The same alphabet in upper case. -/
def upper (r : Radix) : Radix := ⟨r.width, r.digits.map Char.toUpper⟩

end Radix

end ChainPeer.Text
