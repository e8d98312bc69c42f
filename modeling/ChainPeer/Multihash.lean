import ChainPeer.Varint

/-!
# Multihashes

A digest behind the code of the function that made it and its length, both variable-length
integers. A digest has at most 64 bytes.
-/

namespace ChainPeer

/-- A digest and the code of the function that made it. -/
structure Multihash where
  code : UInt64
  digest : Bytes
deriving DecidableEq

namespace Multihash

def maxDigest : Nat := 64

def toBytes (m : Multihash) : Bytes :=
  Varint.encode m.code.toNat ++ Varint.encode m.digest.length ++ m.digest

/-- Reads the bytes of a multihash, with nothing after it. -/
def ofBytes? (bytes : Bytes) : Option Multihash := do
  let (code, rest) ← Varint.read? bytes
  let (length, digest) ← Varint.read? rest
  guard (length.toNat ≤ maxDigest ∧ digest.length = length.toNat)
  pure ⟨code, digest⟩

end Multihash

end ChainPeer
