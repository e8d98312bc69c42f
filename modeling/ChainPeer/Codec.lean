import ChainPeer.Hash

/-!
# Codecs

A codec writes values as bytes and reads them off the front of a byte string. Numbers are
little-endian and of fixed width, sequences are led by a 64-bit count, optional values and truth
values by one byte that is zero or one, and alternatives by a 32-bit index. Nothing else is
accepted, so every value has exactly one encoding.
-/

namespace ChainPeer

/-- How values are written, and how one is read off the front of a byte string. -/
structure Codec (α : Type) where
  encode : α → Bytes
  read : Bytes → Option (α × Bytes)

namespace Codec

variable {α β : Type}

/-- Reads a value that takes up the whole byte string. -/
def decode? (c : Codec α) (bytes : Bytes) : Option α :=
  match c.read bytes with
  | some (a, []) => some a
  | _ => none

def byte : Codec UInt8 where
  encode b := [b]
  read
    | [] => none
    | b :: rest => some (b, rest)

/-- A number of `width` bytes, least significant first. -/
def nat (width : Nat) : Codec Nat where
  encode n := Bytes.littleEndian width n
  read bytes := (Bytes.splitExact width bytes).map fun (front, rest) =>
    (Bytes.ofLittleEndian front, rest)

def word32 : Codec UInt32 where
  encode w := (nat 4).encode w.toNat
  read bytes := ((nat 4).read bytes).map fun (n, rest) => (UInt32.ofNat n, rest)

def word64 : Codec UInt64 where
  encode w := (nat 8).encode w.toNat
  read bytes := ((nat 8).read bytes).map fun (n, rest) => (UInt64.ofNat n, rest)

def bool : Codec Bool where
  encode b := if b then [1] else [0]
  read
    | 0 :: rest => some (false, rest)
    | 1 :: rest => some (true, rest)
    | _ => none

/-- A hash, without a length. -/
def hash : Codec Hash where
  encode h := h.bytes
  read bytes := do
    let (front, rest) ← Bytes.splitExact 32 bytes
    let h ← Hash.ofBytes? front
    pure (h, rest)

/-- A byte string behind its length. -/
def bytes : Codec Bytes where
  encode b := (nat 8).encode b.length ++ b
  read b := do
    let (length, rest) ← (nat 8).read b
    Bytes.splitExact length rest

/-- Reads `count` values in front of `seen`, which holds the ones already read, newest first. -/
def readMany (c : Codec α) : Nat → List α → Bytes → Option (List α × Bytes)
  | 0, seen, b => some (seen.reverse, b)
  | count + 1, seen, b =>
    match c.read b with
    | some (a, rest) => readMany c count (a :: seen) rest
    | none => none

def list (c : Codec α) : Codec (List α) where
  encode as := (nat 8).encode as.length ++ as.flatMap c.encode
  read b := do
    let (count, rest) ← (nat 8).read b
    readMany c count [] rest

def option (c : Codec α) : Codec (Option α) where
  encode
    | none => [0]
    | some a => 1 :: c.encode a
  read
    | 0 :: rest => some (none, rest)
    | 1 :: rest => (c.read rest).map fun (a, rest) => (some a, rest)
    | _ => none

def pair (c : Codec α) (d : Codec β) : Codec (α × β) where
  encode p := c.encode p.1 ++ d.encode p.2
  read b := do
    let (x, b) ← c.read b
    let (y, b) ← d.read b
    pure ((x, y), b)

/-- A value seen as another. -/
def map (c : Codec α) (view : α → β) (unview : β → α) : Codec β where
  encode b := c.encode (unview b)
  read bytes := (c.read bytes).map fun (a, rest) => (view a, rest)

/-- One of two alternatives, by its index. -/
def either (c : Codec α) (d : Codec β) : Codec (α ⊕ β) where
  encode
    | .inl a => (nat 4).encode 0 ++ c.encode a
    | .inr b => (nat 4).encode 1 ++ d.encode b
  read b := do
    let (index, rest) ← (nat 4).read b
    match index with
    | 0 => (c.read rest).map fun (a, rest) => (.inl a, rest)
    | 1 => (d.read rest).map fun (b, rest) => (.inr b, rest)
    | _ => none

def unit : Codec Unit where
  encode _ := []
  read b := some ((), b)

end Codec

inductive CodecError where
  | malformed
  | tooLarge
  | unknownTag (tag : UInt8)
  | empty
deriving DecidableEq

def CodecError.message : CodecError → String
  | malformed => "deserialization"
  | tooLarge => "size limit exceeded"
  | unknownTag tag => s!"unknown message type {tag.toNat}"
  | empty => "empty payload"

/-- Reads a value that takes up the whole byte string, which may have at most `limit` bytes. -/
def Codec.decodeWithin {α : Type} (c : Codec α) (limit : Nat) (bytes : Bytes) :
    Except CodecError α :=
  if bytes.length > limit then .error .tooLarge
  else match c.decode? bytes with
    | some a => .ok a
    | none => .error .malformed

end ChainPeer
