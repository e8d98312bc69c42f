import ChainPeer.Bytes

/-!
# Percent encoding

Bytes of a text written as a percent sign and two hexadecimal digits. Reading leaves a percent sign
alone if no two digits follow; writing encodes the bytes that cannot stand in a path segment.
-/

namespace ChainPeer.Text.Percent

def decode : List UInt8 → Bytes
  | [] => []
  | b :: rest =>
    match b, rest with
    | 0x25, high :: low :: rest =>
      match Bytes.hexValue? (Char.ofNat high.toNat), Bytes.hexValue? (Char.ofNat low.toNat) with
      | some h, some l => UInt8.ofNat (h * 16 + l) :: decode rest
      | _, _ => 0x25 :: decode (high :: low :: rest)
    | b, rest => b :: decode rest
termination_by bytes => bytes.length

/-- The printable characters that cannot stand in a path segment. -/
def reserved : List Char :=
  ['%', '/', '\x60', '?', '\x7b', '\x7d', ' ', '"', '#', '<', '>']

def isEncoded (b : UInt8) : Bool :=
  b < 0x20 || b ≥ 0x7f || reserved.contains (Char.ofNat b.toNat)

def encode (bytes : Bytes) : List Char :=
  bytes.flatMap fun b =>
    if isEncoded b then '%' :: (Bytes.hexPair b).map Char.toUpper else [Char.ofNat b.toNat]

end ChainPeer.Text.Percent
