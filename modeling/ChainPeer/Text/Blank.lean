/-!
# Blank characters

The characters of the Unicode property `White_Space`, and text without them at its ends.
-/

namespace ChainPeer.Text

/-- Whether a character has the Unicode property `White_Space`. -/
def isBlank (c : Char) : Bool :=
  let n := c.toNat
  (9 ≤ n && n ≤ 13) || n == 0x20 || n == 0x85 || n == 0xa0 || n == 0x1680 ||
    (0x2000 ≤ n && n ≤ 0x200a) || n == 0x2028 || n == 0x2029 || n == 0x202f ||
    n == 0x205f || n == 0x3000

def trim (text : List Char) : List Char :=
  ((text.dropWhile isBlank).reverse.dropWhile isBlank).reverse

/-- The text without a leading `mark`, if it has one. -/
def withoutPrefix (mark text : List Char) : List Char :=
  if mark.isPrefixOf text then text.drop mark.length else text

end ChainPeer.Text
