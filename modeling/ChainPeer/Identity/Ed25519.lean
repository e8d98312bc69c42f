import ChainPeer.Digest.Sha512

/-!
# Ed25519 keys

The public key of a secret seed: a multiple of the base point of the twisted Edwards curve over
the integers modulo `2 ^ 255 - 19`, in its compressed form.
-/

namespace ChainPeer.Ed25519

def prime : Nat := (1 <<< 255) - 19

/-- A power in the field, of an exponent below `2 ^ bits`. -/
def power (base : Nat) : (bits exponent : Nat) → Nat
  | 0, _ => 1
  | bits + 1, exponent =>
    let root := power base bits (exponent / 2)
    let square := root * root % prime
    if exponent % 2 = 1 then square * base % prime else square

def inverse (x : Nat) : Nat :=
  power x 255 (prime - 2)

def minus (x y : Nat) : Nat :=
  (x + (prime - y)) % prime

/-- The constant of the curve `-x² + y² = 1 + d x² y²`. -/
def curveConstant : Nat :=
  (prime - 121665) * inverse 121666 % prime

/-- A point `(x / z, y / z)` of the curve, with `t = x y / z`. -/
structure Point where
  x : Nat
  y : Nat
  z : Nat
  t : Nat

namespace Point

def zero : Point := ⟨0, 1, 1, 0⟩

def base : Point :=
  let x := 15112221349535400772501151409588531511454012693041857206046113283949847762202
  let y := 46316835694926478169428394003475163141307993866256225615783033603165251855960
  ⟨x, y, 1, x * y % prime⟩

def add (p q : Point) : Point :=
  let a := minus p.y p.x * minus q.y q.x % prime
  let b := (p.y + p.x) * (q.y + q.x) % prime
  let c := p.t * 2 * curveConstant % prime * q.t % prime
  let d := p.z * 2 * q.z % prime
  let e := minus b a
  let f := minus d c
  let g := (d + c) % prime
  let h := (b + a) % prime
  ⟨e * f % prime, g * h % prime, f * g % prime, e * h % prime⟩

/-- A multiple of a point, by a number below `2 ^ bits`. -/
def multiple (p : Point) : (bits n : Nat) → Point
  | 0, _ => zero
  | bits + 1, n =>
    let half := multiple p bits (n / 2)
    let double := half.add half
    if n % 2 = 1 then double.add p else double

/-- The compressed form: the vertical coordinate, with the parity of the horizontal one in the
highest bit. -/
def compress (p : Point) : Bytes :=
  let i := inverse p.z
  let x := p.x * i % prime
  let y := p.y * i % prime
  Bytes.littleEndian 32 (y + (x % 2) <<< 255)

end Point

/-- The secret scalar of a seed: the first half of its digest, as a multiple of eight with its
highest bit at place 254. -/
def scalar (seed : Bytes) : Nat :=
  let n := Bytes.ofLittleEndian ((Digest.Sha512.digest seed).take 32)
  n % (1 <<< 254) / 8 * 8 + (1 <<< 254)

def publicKey (seed : Bytes) : Bytes :=
  (Point.base.multiple 255 (scalar seed)).compress

end ChainPeer.Ed25519
