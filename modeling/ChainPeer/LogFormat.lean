/-!
# Log formats

How log lines are written.
-/

namespace ChainPeer

inductive LogFormat where
  | compact
  | json
deriving DecidableEq

/-- The format that a text asks for: JSON by its name in letters of any case of ASCII, else
compact lines. -/
def LogFormat.ofText (text : String) : LogFormat :=
  if text.toList.map Char.toLower = ['j', 's', 'o', 'n'] then .json else .compact

end ChainPeer
