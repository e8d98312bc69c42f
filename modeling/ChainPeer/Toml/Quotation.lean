import ChainPeer.Toml.DateTime

/-!
# Quoted text of a TOML document

Text between double quotes may hold escapes, text between single quotes stands for itself. Behind
three quotes text may go over several lines; a line end there is one line feed, and one right
after the opening quotes is left out.
-/

namespace ChainPeer.Toml

def isSpace (c : Char) : Bool :=
  c = ' ' || c = '\t'

def skipSpace (text : List Char) : List Char :=
  text.dropWhile isSpace

def lineEnd? : List Char → Option (List Char)
  | '\n' :: rest => some rest
  | '\r' :: '\n' :: rest => some rest
  | _ => none

/-- Whether a character may stand in a line: a tab, or any other that is not a control character
of ASCII. -/
def isPlain (c : Char) : Bool :=
  c = '\t' || (0x20 ≤ c.toNat && c.toNat != 0x7f)

def skipBlank : List Char → List Char
  | '\n' :: rest => skipBlank rest
  | '\r' :: '\n' :: rest => skipBlank rest
  | ' ' :: rest => skipBlank rest
  | '\t' :: rest => skipBlank rest
  | text => text

/-- The character with a code point in hexadecimal digits. -/
def codePoint? (digits : List Char) : Option Char := do
  let ds ← digits.mapM (digitBelow? 16)
  let n := Text.numeral 16 0 ds
  if n.isValidChar then some (Char.ofNat n) else none

def escape? : Scan Char
  | 'b' :: rest => some ('\x08', rest)
  | 'f' :: rest => some ('\x0c', rest)
  | 'n' :: rest => some ('\n', rest)
  | 'r' :: rest => some ('\r', rest)
  | 't' :: rest => some ('\t', rest)
  | '"' :: rest => some ('"', rest)
  | '\\' :: rest => some ('\\', rest)
  | 'u' :: a :: b :: c :: d :: rest => (codePoint? [a, b, c, d]).map (·, rest)
  | 'U' :: a :: b :: c :: d :: e :: f :: g :: h :: rest =>
    (codePoint? [a, b, c, d, e, f, g, h]).map (·, rest)
  | _ => none

/-- Takes off the line end that a backslash joins with the next line, with all blank characters
and line ends after it. -/
def joinedLine? (text : List Char) : Option (List Char) :=
  (lineEnd? (skipSpace text)).map skipBlank

/-- How a quoted text is written. -/
structure Style where
  quote : Char
  escapes : Bool
  lines : Bool

/-- Reads a quoted text up to its end, after the characters `seen`, newest first. In a text over
several lines, up to two quotes stand for themselves, also in front of the quotes that end it. -/
def quotedRest? (style : Style) : Nat → List Char → Scan String
  | 0, _, _ => none
  | _, _, [] => none
  | fuel + 1, seen, c :: rest =>
    if c = style.quote then
      if !style.lines then some (String.ofList seen.reverse, rest)
      else
        let run := ((c :: rest).takeWhile (· = c)).length
        if run < 3 then quotedRest? style fuel (c :: seen) rest
        else
          let run := min run 5
          some (String.ofList (List.replicate (run - 3) c ++ seen).reverse, rest.drop (run - 1))
    else if c = '\\' ∧ style.escapes then
      match style.lines, joinedLine? rest with
      | true, some rest => quotedRest? style fuel seen rest
      | _, _ => do
        let (d, rest) ← escape? rest
        quotedRest? style fuel (d :: seen) rest
    else if isPlain c then quotedRest? style fuel (c :: seen) rest
    else if style.lines then do
      let rest ← lineEnd? (c :: rest)
      quotedRest? style fuel ('\n' :: seen) rest
    else none

def quotedBody? (style : Style) (text : List Char) : Option (String × List Char) :=
  let text := if style.lines then (lineEnd? text).getD text else text
  quotedRest? style (text.length + 1) [] text

def quotedLine? : Scan String
  | '"' :: rest => quotedBody? ⟨'"', true, false⟩ rest
  | '\'' :: rest => quotedBody? ⟨'\'', false, false⟩ rest
  | _ => none

def quotedText? : Scan String
  | '"' :: '"' :: '"' :: rest => quotedBody? ⟨'"', true, true⟩ rest
  | '\'' :: '\'' :: '\'' :: rest => quotedBody? ⟨'\'', false, true⟩ rest
  | text => quotedLine? text

end ChainPeer.Toml
