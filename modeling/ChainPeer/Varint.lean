import ChainPeer.Bytes

/-!
# Variable-length integers

Unsigned LEB128: seven bits a byte, least significant group first, with the high bit set on
every byte but the last. A prefix holds at most ten bytes and its groups are joined in 64-bit
arithmetic, so what the tenth group has above its lowest bit is lost.
-/

namespace ChainPeer.Varint

/-- The most bytes a prefix may have. -/
def maxLength : Nat := 10

/-- The shortest encoding of a number. -/
def encode (n : Nat) : Bytes :=
  if n < 128 then [UInt8.ofNat n]
  else UInt8.ofNat (n % 128 + 128) :: encode (n / 128)
termination_by n

def isLast (b : UInt8) : Bool :=
  b < 0x80

/-- The groups of a prefix joined in 64-bit arithmetic. -/
def value : Bytes → UInt64
  | [] => 0
  | b :: rest => (b &&& 0x7f).toUInt64 ||| (value rest <<< 7)

/-- The value of a complete prefix, unless its last byte is a zero that could be left out. -/
def decode? (groups : Bytes) : Option UInt64 :=
  if groups.length > 1 ∧ groups.getLast? = some 0 then none else some (value groups)

/-- Takes a prefix of at most `room` more bytes off a byte string, after the groups `seen`. -/
def readGroups? : Nat → Bytes → Bytes → Option (UInt64 × Bytes)
  | 0, _, _ => none
  | _, _, [] => none
  | room + 1, seen, b :: rest =>
    if isLast b then (decode? (seen ++ [b])).map (·, rest)
    else readGroups? room (seen ++ [b]) rest

/-- Takes a number off the front of a byte string. -/
def read? (bytes : Bytes) : Option (UInt64 × Bytes) :=
  readGroups? maxLength [] bytes

end ChainPeer.Varint
