import ChainPeer.Hash
import Std.Data.ExtTreeSet

/-!
# Windows of hashes seen

A window remembers the hashes inserted last, up to a capacity. Inserting a hash that it remembers
changes nothing, so a hash leaves in the order of its first insertion.
-/

namespace ChainPeer

/-- The hashes inserted last: as a set, and in the order of insertion as a queue in two parts,
`older` from its front and `newer` from its back. -/
structure SeenWindow where
  capacity : Nat
  members : Std.ExtTreeSet Hash
  older : List Hash
  newer : List Hash

namespace SeenWindow

def empty (capacity : Nat) : SeenWindow := ⟨capacity, ∅, [], []⟩

/-- The hashes remembered, oldest first. -/
def toList (w : SeenWindow) : List Hash := w.older ++ w.newer.reverse

def dropOldest (w : SeenWindow) : SeenWindow :=
  match w.older with
  | oldest :: older => { w with members := w.members.erase oldest, older }
  | [] =>
    match w.newer.reverse with
    | oldest :: older => { w with members := w.members.erase oldest, older, newer := [] }
    | [] => w

/-- Adds a hash and says whether it is new. -/
def insert (w : SeenWindow) (h : Hash) : Bool × SeenWindow :=
  if w.members.contains h then (false, w)
  else
    let w := { w with members := w.members.insert h, newer := h :: w.newer }
    (true, if w.members.size > w.capacity then w.dropOldest else w)

def clear (w : SeenWindow) : SeenWindow := empty w.capacity

end SeenWindow

end ChainPeer
