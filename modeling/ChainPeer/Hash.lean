import ChainPeer.Bytes
import ChainPeer.Text.Blank
import ChainPeer.Digest.Sha256

/-!
# Hashes

A hash is a string of 32 bytes. Hashes are ordered as byte strings, and have a full and an
abbreviated hexadecimal text.
-/

namespace ChainPeer

/-- A string of 32 bytes. -/
structure Hash where
  bytes : Bytes
  length_bytes : bytes.length = 32
deriving DecidableEq

namespace Hash

@[ext] theorem ext {a b : Hash} (h : a.bytes = b.bytes) : a = b := by
  cases a; cases b; cases h; rfl

instance : Ord Hash := ⟨compareOn bytes⟩

instance : Std.TransOrd Hash := inferInstanceAs (Std.TransCmp (compareOn bytes))

instance : Std.LawfulEqOrd Hash where
  eq_of_compare h := ext (Std.LawfulEqOrd.eq_of_compare (α := Bytes) h)

def zero : Hash := ⟨List.replicate 32 0, by simp⟩

instance : Inhabited Hash := ⟨zero⟩

/-- The hash with these bytes, if there are 32. -/
def ofBytes? (bytes : Bytes) : Option Hash :=
  if h : bytes.length = 32 then some ⟨bytes, h⟩ else none

def sha256 (message : Bytes) : Hash :=
  ⟨Digest.Sha256.digest message, Digest.Sha256.length_digest message⟩

/-- Reads a hash from its hexadecimal text. Blank characters around it and one leading `0x` are
left out; the digits may be of either case. -/
def ofText? (text : List Char) : Option Hash :=
  (Bytes.ofHexDigits? (Text.withoutPrefix ['0', 'x'] (Text.trim text))).bind ofBytes?

def toText (h : Hash) : List Char :=
  '0' :: 'x' :: Bytes.hexDigits h.bytes

def text (h : Hash) : String :=
  String.ofList h.toText

/-- The first and the last four bytes only, for places that show many hashes. -/
def brief (h : Hash) : String :=
  "0x" ++ Bytes.toHex (h.bytes.take 4) ++ ".." ++ Bytes.toHex (h.bytes.drop 28)

end Hash

end ChainPeer
