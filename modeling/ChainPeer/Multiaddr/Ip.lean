import ChainPeer.Bytes
import ChainPeer.Text.Number

/-!
# Internet addresses

Addresses of four bytes in decimal, and of eight 16-bit groups in hexadecimal. One run of zero
groups may be left out of the latter, and its last two groups may be given as an address of four
bytes. The text of an address leaves out its longest run of at least two zero groups.
-/

namespace ChainPeer.Ip

open Text

/-- The digits in front of a text, at most `max` of them, and what follows. -/
def takeNumber? (base max : Nat) (value? : Char → Option Nat) (text : List Char) :
    Option (Nat × List Char) :=
  let digits := text.takeWhile fun c => (value? c).isSome
  if digits = [] ∨ digits.length > max then none
  else some (numeral base 0 (digits.filterMap value?), text.drop digits.length)

/-- A byte in decimal without leading zeros. -/
def takeByte? (text : List Char) : Option (UInt8 × List Char) := do
  let (n, rest) ← takeNumber? 10 3 digitValue? text
  guard (n < 256 ∧ (text.head? = some '0' → text.length = rest.length + 1))
  pure (UInt8.ofNat n, rest)

def after? (mark : Char) : List Char → Option (List Char)
  | [] => none
  | c :: rest => if c = mark then some rest else none

def takeFour? (text : List Char) : Option (List UInt8 × List Char) := do
  let (a, text) ← takeByte? text
  let (b, text) ← (after? '.' text).bind takeByte?
  let (c, text) ← (after? '.' text).bind takeByte?
  let (d, text) ← (after? '.' text).bind takeByte?
  pure ([a, b, c, d], text)

def ofText4? (text : List Char) : Option (List UInt8) :=
  match takeFour? text with
  | some (octets, []) => some octets
  | _ => none

def text4 (octets : List UInt8) : String :=
  ".".intercalate (octets.map fun b => toString b.toNat)

/-- The groups in front of a text, at most `room`, after `seen` others; says whether they end in
an address of four bytes. -/
def takeGroups : Nat → Nat → List Char → (List Nat × Bool) × List Char
  | 0, _, text => (([], false), text)
  | room + 1, seen, text =>
    let entry := if seen = 0 then some text else after? ':' text
    match (if room = 0 then none else entry.bind takeFour?) with
    | some ([a, b, c, d], rest) =>
      (([a.toNat * 256 + b.toNat, c.toNat * 256 + d.toNat], true), rest)
    | _ =>
      match entry.bind (takeNumber? 16 4 Bytes.hexValue?) with
      | some (group, rest) =>
        let ((groups, four), rest) := takeGroups room (seen + 1) rest
        ((group :: groups, four), rest)
      | none => (([], false), text)

def ofText6? (text : List Char) : Option (List Nat) :=
  match takeGroups 8 0 text with
  | ((head, four), rest) =>
    if head.length = 8 then (if rest = [] then some head else none)
    else if four then none
    else
      match rest with
      | ':' :: ':' :: rest =>
        match takeGroups (7 - head.length) 0 rest with
        | ((tail, _), []) =>
          some (head ++ List.replicate (8 - head.length - tail.length) 0 ++ tail)
        | _ => none
      | _ => none

/-- The longest run of zeros in a list, the first of them, as its start and length. `start` is
where the list stands, `run` how many zeros are right in front of it, `best` the run found so
far. -/
def longestZeros (start run : Nat) (best : Nat × Nat) : List Nat → Nat × Nat
  | [] => best
  | 0 :: rest =>
    let best := if run + 1 > best.2 then (start - run, run + 1) else best
    longestZeros (start + 1) (run + 1) best rest
  | _ :: rest => longestZeros (start + 1) 0 best rest

def groupsText (groups : List Nat) : String :=
  ":".intercalate (groups.map fun g => String.ofList (Nat.toDigits 16 g))

def text6 (groups : List Nat) : String :=
  match groups with
  | [0, 0, 0, 0, 0, 0xffff, a, b] =>
    "::ffff:" ++ text4 [UInt8.ofNat (a / 256), UInt8.ofNat a, UInt8.ofNat (b / 256), UInt8.ofNat b]
  | groups =>
    let (start, length) := longestZeros 0 0 (0, 0) groups
    if length > 1 then
      groupsText (groups.take start) ++ "::" ++ groupsText (groups.drop (start + length))
    else groupsText groups

end ChainPeer.Ip
