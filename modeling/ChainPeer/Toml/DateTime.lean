import ChainPeer.Toml.Numeral

/-!
# Dates and times of a TOML document

A date, a time of day, or both with or without an offset. Dates follow the Gregorian calendar; a
minute may have a leap second.
-/

namespace ChainPeer.Toml

open Text

/-- Reads exactly `width` digits of a number between two bounds. -/
def fixedWidth? (width low high : Nat) : Scan Nat := fun text => do
  guard ((text.take width).length = width)
  let ds ← (text.take width).mapM digitValue?
  let n := numeral 10 0 ds
  guard (low ≤ n ∧ n ≤ high)
  pure (n, text.drop width)

def mark? (c : Char) : List Char → Option (List Char)
  | d :: rest => if d = c then some rest else none
  | [] => none

def daysIn (year month : Nat) : Nat :=
  if month = 2 then
    if year % 4 = 0 ∧ (year % 100 ≠ 0 ∨ year % 400 = 0) then 29 else 28
  else if month ∈ [4, 6, 9, 11] then 30
  else 31

def date? (text : List Char) : Option (List Char) := do
  let (year, rest) ← fixedWidth? 4 0 9999 text
  let (month, rest) ← fixedWidth? 2 1 12 (← mark? '-' rest)
  let (_, rest) ← fixedWidth? 2 1 (daysIn year month) (← mark? '-' rest)
  pure rest

/-- Takes a fraction of a second off, if there is one. -/
def skipFraction : List Char → List Char
  | '.' :: rest =>
    let digits := rest.takeWhile fun c => (digitValue? c).isSome
    if digits = [] then '.' :: rest else rest.drop digits.length
  | text => text

def time? (text : List Char) : Option (List Char) := do
  let (_, rest) ← fixedWidth? 2 0 23 text
  let (_, rest) ← fixedWidth? 2 0 59 (← mark? ':' rest)
  let (_, rest) ← fixedWidth? 2 0 60 (← mark? ':' rest)
  pure (skipFraction rest)

/-- Takes an offset off, if there is one. -/
def skipOffset (text : List Char) : List Char :=
  match text with
  | c :: rest =>
    if c = 'Z' ∨ c = 'z' then rest
    else if c = '+' ∨ c = '-' then
      let offset? := do
        let (_, rest) ← fixedWidth? 2 0 23 rest
        let (_, rest) ← fixedWidth? 2 0 59 (← mark? ':' rest)
        pure rest
      offset?.getD text
    else text
  | [] => []

/-- Takes the time that may follow a date off. -/
def skipTime (text : List Char) : List Char :=
  match text with
  | c :: rest =>
    if c = 'T' ∨ c = 't' ∨ c = ' ' then ((time? rest).map skipOffset).getD text else text
  | [] => []

/-- Reads a date or a time or both. -/
def dateTime? : Scan Value := fun text =>
  match date? text with
  | some rest => some (.dateTime, skipTime rest)
  | none => (time? text).map fun rest => (.dateTime, rest)

end ChainPeer.Toml
