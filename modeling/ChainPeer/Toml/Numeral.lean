import ChainPeer.Text.Number
import ChainPeer.Toml.Value

/-!
# Numbers of a TOML document

Integers of 64 bits in base ten, or without a sign in base two, eight or sixteen; floats with a
fraction, an exponent or both. Single underscores may stand between digits.
-/

namespace ChainPeer.Toml

open Text

/-- Reads something off the front of a text. -/
abbrev Scan (α : Type) := List Char → Option (α × List Char)

def digitBelow? (base : Nat) (c : Char) : Option Nat :=
  let value? :=
    if '0' ≤ c ∧ c ≤ '9' then some (c.toNat - 48)
    else if 'a' ≤ c ∧ c ≤ 'f' then some (c.toNat - 87)
    else if 'A' ≤ c ∧ c ≤ 'F' then some (c.toNat - 55)
    else none
  value?.filter (· < base)

/-- The digits in front, each of which an underscore may precede. -/
def groupedDigits (base : Nat) : List Char → List Nat × List Char
  | '_' :: c :: rest =>
    match digitBelow? base c with
    | some d => let (ds, rest) := groupedDigits base rest; (d :: ds, rest)
    | none => ([], '_' :: c :: rest)
  | c :: rest =>
    match digitBelow? base c with
    | some d => let (ds, rest) := groupedDigits base rest; (d :: ds, rest)
    | none => ([], c :: rest)
  | [] => ([], [])

/-- Reads digits, at least one, of which the first follows no underscore. -/
def digits? (base : Nat) : Scan (List Nat) := fun text =>
  if text.head? = some '_' then none
  else match groupedDigits base text with
    | ([], _) => none
    | (ds, rest) => some (ds, rest)

/-- Reads digits that start with a zero only if it is the only one. -/
def wholePart? : Scan (List Nat)
  | '0' :: rest => some ([0], rest)
  | text => digits? 10 text

/-- Reads a sign, which may be left out, and says whether it is a minus. -/
def sign : List Char → Bool × List Char
  | '-' :: rest => (true, rest)
  | '+' :: rest => (false, rest)
  | text => (false, text)

/-- An integer value, if it has 64 bits. -/
def integer? (n : Int) : Option Value :=
  if Int64.minValue.toInt ≤ n ∧ n ≤ Int64.maxValue.toInt then some (.integer n) else none

/-- Whether the float nearest to `digits · 10 ^ exponent` is finite: whether the number is below
the middle of the largest finite float and the power of two after it. Numbers far from that bound
are told by their length. -/
def isFinite (digits : List Nat) (exponent : Int) : Bool :=
  let n := numeral 10 0 digits
  let digits := digits.dropWhile (· = 0)
  let magnitude : Int := digits.length + exponent
  let shift (n : Nat) (places : Int) := numeral 10 n (List.replicate places.toNat 0)
  let bound := ((1 <<< 54) - 1) <<< 970
  if digits.isEmpty || magnitude < 300 then true
  else if magnitude > 320 then false
  else if 0 ≤ exponent then shift n exponent < bound
  else n < shift bound (-exponent)

def exponent? (text : List Char) : Option (Option Int × List Char) :=
  match text with
  | c :: rest =>
    if c = 'e' ∨ c = 'E' then do
      let (negative, rest) := sign rest
      let (ds, rest) ← digits? 10 rest
      let n : Int := numeral 10 0 ds
      pure (some (if negative then -n else n), rest)
    else some (none, text)
  | [] => some (none, [])

def fraction? (text : List Char) : Option (Option (List Nat) × List Char) :=
  match text with
  | '.' :: rest => (digits? 10 rest).map fun (ds, rest) => (some ds, rest)
  | _ => some (none, text)

def decimal? (negative : Bool) : Scan Value := fun text => do
  let (whole, rest) ← wholePart? text
  let (fraction, rest) ← fraction? rest
  let (exponent, rest) ← exponent? rest
  match fraction, exponent with
  | none, none =>
    let n : Int := numeral 10 0 whole
    let v ← integer? (if negative then -n else n)
    pure (v, rest)
  | _, _ =>
    let fraction := fraction.getD []
    guard (negative || isFinite (whole ++ fraction) (exponent.getD 0 - fraction.length))
    pure (.float, rest)

/-- Reads an integer in another base, after the mark of the base. -/
def inBase? (base : Nat) : Scan Value := fun text => do
  let (ds, rest) ← digits? base text
  let v ← integer? (numeral base 0 ds)
  pure (v, rest)

def number? : Scan Value
  | '0' :: 'x' :: rest => inBase? 16 rest
  | '0' :: 'o' :: rest => inBase? 8 rest
  | '0' :: 'b' :: rest => inBase? 2 rest
  | text =>
    match sign text with
    | (_, 'i' :: 'n' :: 'f' :: rest) => some (.float, rest)
    | (_, 'n' :: 'a' :: 'n' :: rest) => some (.float, rest)
    | (negative, rest) => decimal? negative rest

end ChainPeer.Toml
