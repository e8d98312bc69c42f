import ChainPeer.Text.Positional
import ChainPeer.Multihash

/-!
# Peer identities

A peer is named by the multihash of its public key: a code, a length and a digest. Small keys
stand for themselves under the identity code. Peers are ordered by code, then length, then
digest, and written in base 58.
-/

namespace ChainPeer

inductive DigestKind where
  | identity
  | sha256
deriving DecidableEq, Inhabited

namespace DigestKind

def code : DigestKind → Nat
  | identity => 0x00
  | sha256 => 0x12

/-- The kind with a multihash code. -/
def ofCode? : Nat → Option DigestKind
  | 0x00 => some identity
  | 0x12 => some sha256
  | _ => none

/-- The longest digest of a kind that names a peer. -/
def maxLength : DigestKind → Nat
  | identity => 42
  | sha256 => 64

theorem code_injective {a b : DigestKind} (h : a.code = b.code) : a = b := by
  cases a <;> cases b <;> simp_all [code]

end DigestKind

/-- The multihash that names a peer. -/
structure PeerId where
  kind : DigestKind
  digest : Bytes
deriving DecidableEq, Inhabited

namespace PeerId

/-- The order of peers: by code, then by length, then by digest. -/
def order : PeerId → PeerId → Ordering :=
  compareLex (compareOn (·.kind.code))
    (compareLex (compareOn (·.digest.length)) (compareOn (·.digest)))

instance : Ord PeerId := ⟨order⟩

instance : Std.TransOrd PeerId :=
  inferInstanceAs (Std.TransCmp (compareLex (compareOn (fun p : PeerId => p.kind.code))
    (compareLex (compareOn (fun p => p.digest.length)) (compareOn (fun p => p.digest)))))

instance : Std.LawfulEqOrd PeerId where
  eq_of_compare {p q} h := by
    change compareLex _ _ p q = .eq at h
    rw [compareLex_eq_eq, compareLex_eq_eq] at h
    obtain ⟨hcode, _, hdigest⟩ := h
    have hkind := DigestKind.code_injective (Std.LawfulEqOrd.eq_of_compare (α := Nat) hcode)
    have hbytes := Std.LawfulEqOrd.eq_of_compare (α := Bytes) hdigest
    cases p; cases q
    simp_all

def multihash (p : PeerId) : Multihash :=
  ⟨UInt64.ofNat p.kind.code, p.digest⟩

def toBytes (p : PeerId) : Bytes :=
  p.multihash.toBytes

/-- Reads the bytes of a multihash that names a peer. -/
def ofBytes? (bytes : Bytes) : Option PeerId := do
  let m ← Multihash.ofBytes? bytes
  let kind ← DigestKind.ofCode? m.code.toNat
  guard (m.digest.length ≤ kind.maxLength)
  pure ⟨kind, m.digest⟩

def text (p : PeerId) : String :=
  String.ofList (Text.Positional.encodeBase58 p.toBytes)

def ofText? (text : List Char) : Option PeerId :=
  (Text.Positional.decode? Text.Positional.base58 text).bind ofBytes?

end PeerId

end ChainPeer
