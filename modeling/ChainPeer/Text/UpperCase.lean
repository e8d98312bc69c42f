/-!
# Upper case

The upper-case form of text as far as it has letters of ASCII. Ten characters outside ASCII have
such a form: the dotless i, the long s, the sharp s and seven ligatures.
-/

namespace ChainPeer.Text

/-- The upper-case form of a character if that is in ASCII; else the character itself. -/
def upperLetters (c : Char) : List Char :=
  match c with
  | '\u0131' => ['I']
  | '\u017f' => ['S']
  | '\u00df' => ['S', 'S']
  | '\ufb00' => ['F', 'F']
  | '\ufb01' => ['F', 'I']
  | '\ufb02' => ['F', 'L']
  | '\ufb03' => ['F', 'F', 'I']
  | '\ufb04' => ['F', 'F', 'L']
  | '\ufb05' | '\ufb06' => ['S', 'T']
  | c => [c.toUpper]

def upperCase (text : List Char) : List Char :=
  text.flatMap upperLetters

end ChainPeer.Text
