import ChainPeer.Message
import ChainPeer.PeerId
import Std.Data.ExtTreeMap

/-!
# The roster of peers

What the connected peers have said about themselves: the roles given last, and the highest block
reported with its hash.
-/

namespace ChainPeer

structure PeerFacts where
  roles : Roles := 0
  bestNumber : BlockNumber := 0
  bestHash : Hash := Hash.zero
deriving DecidableEq

namespace PeerFacts

def unknown : PeerFacts := {}

/-- Takes in a report. A lower block than the one known is left out. -/
def report (facts : PeerFacts) (roles : Option Roles) (number : BlockNumber) (hash : Hash) :
    PeerFacts :=
  let facts := { facts with roles := roles.getD facts.roles }
  if facts.bestNumber ≤ number then { facts with bestNumber := number, bestHash := hash }
  else facts

end PeerFacts

structure Roster where
  entries : Std.ExtTreeMap PeerId PeerFacts

namespace Roster

def empty : Roster := ⟨∅⟩

def get? (r : Roster) (p : PeerId) : Option PeerFacts := r.entries[p]?

def has (r : Roster) (p : PeerId) : Bool := (r.get? p).isSome

/-- Adds a peer and says whether it is new; one that is known stays as it is. -/
def insert (r : Roster) (p : PeerId) : Bool × Roster :=
  if r.has p then (false, r) else (true, ⟨r.entries.insert p .unknown⟩)

/-- Takes a peer out and says whether it was there. -/
def remove (r : Roster) (p : PeerId) : Bool × Roster :=
  (r.has p, ⟨r.entries.erase p⟩)

/-- Takes in a report of a peer, which is added if it is not there. -/
def report (r : Roster) (p : PeerId) (roles : Option Roles) (number : BlockNumber) (hash : Hash) :
    Roster :=
  ⟨r.entries.insert p (((r.get? p).getD .unknown).report roles number hash)⟩

/-- The peers with what is known of them, in the order of the peers. -/
def toList (r : Roster) : List (PeerId × PeerFacts) := r.entries.toList

def size (r : Roster) : Nat := r.entries.size

@[simp] theorem get?_empty (p : PeerId) : empty.get? p = none := by
  simp [empty, get?]

theorem has_empty (p : PeerId) : empty.has p = false := by
  rw [has, get?_empty]
  rfl

theorem has_insert (r : Roster) (p q : PeerId) :
    (r.insert p).2.has q = (decide (p = q) || r.has q) := by
  rw [insert]
  split
  · next h =>
    by_cases hq : p = q
    · rw [← hq, h, Bool.or_true]
    · simp [hq]
  · by_cases hq : p = q <;> simp [has, get?, Std.ExtTreeMap.getElem?_insert, hq]

theorem insert_of_has {r : Roster} {p : PeerId} (h : r.has p = true) : r.insert p = (false, r) :=
  if_pos h

theorem insert_of_not_has {r : Roster} {p : PeerId} (h : r.has p = false) :
    (r.insert p).1 = true := by
  rw [insert, if_neg]
  rw [h]
  decide

theorem has_remove (r : Roster) (p q : PeerId) :
    (r.remove p).2.has q = (decide (p ≠ q) && r.has q) := by
  by_cases hq : p = q <;> simp [remove, has, get?, Std.ExtTreeMap.getElem?_erase, hq]

theorem get?_report (r : Roster) (p q : PeerId) (roles : Option Roles) (number : BlockNumber)
    (hash : Hash) :
    (r.report p roles number hash).get? q =
      if p = q then some (((r.get? p).getD .unknown).report roles number hash) else r.get? q := by
  simp [report, get?, Std.ExtTreeMap.getElem?_insert]

theorem has_report (r : Roster) (p q : PeerId) (roles : Option Roles) (number : BlockNumber)
    (hash : Hash) :
    (r.report p roles number hash).has q = (decide (p = q) || r.has q) := by
  rw [has, get?_report]
  by_cases hq : p = q <;> simp [has, hq]

theorem mem_fst_toList (r : Roster) (p : PeerId) :
    p ∈ r.toList.map Prod.fst ↔ r.has p = true := by
  rw [toList, Std.ExtTreeMap.map_fst_toList_eq_keys, Std.ExtTreeMap.mem_keys, has, get?,
    Std.ExtTreeMap.isSome_getElem?_iff_mem]

end Roster

end ChainPeer
