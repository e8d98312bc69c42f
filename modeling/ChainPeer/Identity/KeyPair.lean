import ChainPeer.Identity.Ed25519
import ChainPeer.Identity.Record
import ChainPeer.PeerId

/-!
# Key pairs and their records

A key pair is stored as a record of tagged fields: the kind of the key, and the seed with the
public key behind it. Fields may come in any order, the last one of a kind counts, and unknown
ones are skipped.
-/

namespace ChainPeer

/-- A key pair, by its secret seed of 32 bytes. -/
structure KeyPair where
  seed : Bytes
  length_seed : seed.length = 32

namespace KeyPair

def publicKey (k : KeyPair) : Bytes :=
  Ed25519.publicKey k.seed

/-- The number of the key kind in records. -/
def kindNumber : Nat := 1

/-- A record: the kind of a key, then its bytes. -/
def encodeRecord (key : Bytes) : Bytes :=
  [0x08, UInt8.ofNat kindNumber, 0x12] ++ Varint.encode key.length ++ key

def toBytes (k : KeyPair) : Bytes :=
  encodeRecord (k.seed ++ k.publicKey)

/-- The peer that the public key names: its record is short enough to stand for itself. -/
def peer (k : KeyPair) : PeerId :=
  ⟨.identity, encodeRecord k.publicKey⟩

/-- The key pair of a seed and a public key, if they belong together. -/
def ofKeys? (keys : Bytes) : Option KeyPair :=
  if h : (keys.take 32).length = 32 then
    let k : KeyPair := ⟨keys.take 32, h⟩
    if keys.drop 32 = k.publicKey then some k else none
  else none

/-- Reads the record of a key pair. A kind counts modulo `2 ^ 32`. -/
def ofBytes? (bytes : Bytes) : Option KeyPair := do
  let fields ← TaggedField.ofBytes? bytes
  let kind ← TaggedField.last? fields 1 FieldValue.number? 0
  let keys ← TaggedField.last? fields 2 FieldValue.bytes? []
  guard (kind % UInt32.size = kindNumber)
  ofKeys? keys

end KeyPair

end ChainPeer
