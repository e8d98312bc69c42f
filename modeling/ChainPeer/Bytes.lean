/-!
# Byte strings

Bytes are lists, which proofs can take apart, and are written as hexadecimal digits, two for
each byte.
-/

namespace ChainPeer

abbrev Bytes := List UInt8

namespace Bytes

/-- The first `n` bytes and the rest, if there are that many. -/
def splitExact (n : Nat) (bytes : Bytes) : Option (Bytes × Bytes) :=
  if (bytes.take n).length = n then some (bytes.take n, bytes.drop n) else none

theorem splitExact_append (front rest : Bytes) :
    splitExact front.length (front ++ rest) = some (front, rest) := by
  simp [splitExact]

theorem eq_append_of_splitExact {n : Nat} {bytes front rest : Bytes}
    (h : splitExact n bytes = some (front, rest)) :
    bytes = front ++ rest ∧ front.length = n := by
  unfold splitExact at h
  split at h
  next hlen =>
    obtain ⟨rfl, rfl⟩ := by simpa using h
    exact ⟨(List.take_append_drop n bytes).symm, hlen⟩
  next => simp at h

/-- The lower-case hexadecimal digit of a number below sixteen. -/
def hexDigit (n : Nat) : Char :=
  if n < 10 then Char.ofNat (48 + n) else Char.ofNat (87 + n)

/-- The value of a hexadecimal digit of either case. -/
def hexValue? (c : Char) : Option Nat :=
  if '0' ≤ c ∧ c ≤ '9' then some (c.toNat - 48)
  else if 'a' ≤ c ∧ c ≤ 'f' then some (c.toNat - 87)
  else if 'A' ≤ c ∧ c ≤ 'F' then some (c.toNat - 55)
  else none

/-- The two digits of one byte, the high half first. -/
def hexPair (b : UInt8) : List Char :=
  [hexDigit (b.toNat / 16), hexDigit (b.toNat % 16)]

def hexDigits (bytes : Bytes) : List Char :=
  bytes.flatMap hexPair

def toHex (bytes : Bytes) : String :=
  String.ofList (hexDigits bytes)

/-- Reads pairs of hexadecimal digits; refuses any other character and an odd number of digits. -/
def ofHexDigits? : List Char → Option Bytes
  | [] => some []
  | [_] => none
  | high :: low :: rest => do
    let h ← hexValue? high
    let l ← hexValue? low
    let bytes ← ofHexDigits? rest
    pure (UInt8.ofNat (h * 16 + l) :: bytes)

/-- The little-endian bytes of the low `width` bytes of a number. -/
def littleEndian : Nat → Nat → Bytes
  | 0, _ => []
  | width + 1, n => UInt8.ofNat (n % 256) :: littleEndian width (n / 256)

/-- The number of byte strings of a length. -/
def capacity : (length : Nat) → Nat
  | 0 => 1
  | length + 1 => 256 * capacity length

def ofLittleEndian : Bytes → Nat
  | [] => 0
  | b :: rest => b.toNat + 256 * ofLittleEndian rest

@[simp] theorem length_littleEndian (width n : Nat) :
    (littleEndian width n).length = width := by
  induction width generalizing n with
  | zero => rfl
  | succ width ih => simp [littleEndian, ih]

theorem ofLittleEndian_littleEndian (width n : Nat) (h : n < capacity width) :
    ofLittleEndian (littleEndian width n) = n := by
  induction width generalizing n with
  | zero => simp only [capacity] at h; simp [littleEndian, ofLittleEndian]; omega
  | succ width ih =>
      have hdiv : n / 256 < capacity width := by
        simp only [capacity] at h
        omega
      simp only [littleEndian, ofLittleEndian, ih _ hdiv]
      have : (UInt8.ofNat (n % 256)).toNat = n % 256 := by simp
      omega

theorem ofLittleEndian_lt (bytes : Bytes) : ofLittleEndian bytes < capacity bytes.length := by
  induction bytes with
  | nil => simp [ofLittleEndian, capacity]
  | cons b rest ih =>
      have hb := b.toNat_lt
      simp only [ofLittleEndian, List.length_cons, capacity]
      omega

theorem littleEndian_ofLittleEndian (bytes : Bytes) :
    littleEndian bytes.length (ofLittleEndian bytes) = bytes := by
  induction bytes with
  | nil => rfl
  | cons b rest ih =>
      have hb := b.toNat_lt
      have hmod : (b.toNat + 256 * ofLittleEndian rest) % 256 = b.toNat := by omega
      have hdiv : (b.toNat + 256 * ofLittleEndian rest) / 256 = ofLittleEndian rest := by omega
      simp [littleEndian, ofLittleEndian, hmod, hdiv, ih]

def ofBigEndian (bytes : Bytes) : Nat :=
  ofLittleEndian bytes.reverse

/-- The big-endian bytes of the low `width` bytes of a number. -/
def bigEndian (width n : Nat) : Bytes :=
  (littleEndian width n).reverse

end Bytes

end ChainPeer
