import ChainPeer.Message
import ChainPeer.PeerId
import Std.Data.ExtTreeMap

/-!
# Outstanding requests

The block requests still to be answered, by their ids. An entry keeps the peer that was asked and
the block asked for first, so that what a departed peer owes can be asked again.
-/

namespace ChainPeer

structure Pending where
  peer : Option PeerId
  start : Option StartBlock
deriving DecidableEq

structure Outstanding where
  entries : Std.ExtTreeMap UInt64 Pending

namespace Outstanding

def empty : Outstanding := ⟨∅⟩

def get? (o : Outstanding) (id : UInt64) : Option Pending := o.entries[id]?

/-- Whether a request with an id is still to be answered. -/
def has (o : Outstanding) (id : UInt64) : Bool := (o.get? id).isSome

/-- Adds a request and says whether it is new; one that is known stays as it is. -/
def add (o : Outstanding) (id : UInt64) (entry : Pending) : Bool × Outstanding :=
  if o.has id then (false, o) else (true, ⟨o.entries.insert id entry⟩)

def addOpen (o : Outstanding) (id : UInt64) : Bool × Outstanding := o.add id ⟨none, none⟩

def addTo (o : Outstanding) (id : UInt64) (p : PeerId) (start : Option StartBlock) :
    Bool × Outstanding :=
  o.add id ⟨some p, start⟩

/-- Takes a request out and says whether it was there. -/
def remove (o : Outstanding) (id : UInt64) : Bool × Outstanding :=
  (o.has id, ⟨o.entries.erase id⟩)

def size (o : Outstanding) : Nat := o.entries.size

/-- Takes out the requests to a peer and says how many they were. -/
def removePeer (o : Outstanding) (p : PeerId) : Nat × Outstanding :=
  let kept : Outstanding := ⟨o.entries.filter fun _ entry => entry.peer ≠ some p⟩
  (o.size - kept.size, kept)

def peer? (o : Outstanding) (id : UInt64) : Option PeerId := (o.get? id).bind Pending.peer

def start? (o : Outstanding) (id : UInt64) : Option StartBlock := (o.get? id).bind Pending.start

def put (o : Outstanding) (id : UInt64) (entry : Pending) : Outstanding :=
  ⟨o.entries.insert id entry⟩

theorem ext_get? {o o' : Outstanding} (h : ∀ id, o.get? id = o'.get? id) : o = o' := by
  have hentries : o.entries = o'.entries := Std.ExtTreeMap.ext_getElem? h
  cases o with
  | mk entries =>
      subst hentries
      rfl

@[simp] theorem get?_empty (id : UInt64) : empty.get? id = none := by
  simp [empty, get?]

theorem get?_put (o : Outstanding) (id i : UInt64) (entry : Pending) :
    (o.put id entry).get? i = if id = i then some entry else o.get? i := by
  simp [put, get?, Std.ExtTreeMap.getElem?_insert]

theorem get?_remove (o : Outstanding) (id i : UInt64) :
    (o.remove id).2.get? i = if id = i then none else o.get? i := by
  simp [remove, get?, Std.ExtTreeMap.getElem?_erase]

theorem get?_removePeer (o : Outstanding) (p : PeerId) (i : UInt64) :
    (o.removePeer p).2.get? i = (o.get? i).filter fun entry => entry.peer ≠ some p := by
  simp [removePeer, get?]

theorem has_eq_false_iff {o : Outstanding} {id : UInt64} : o.has id = false ↔ o.get? id = none := by
  rw [has, Option.isSome_eq_false_iff, Option.isNone_iff_eq_none]

theorem has_empty (id : UInt64) : empty.has id = false :=
  has_eq_false_iff.2 (get?_empty id)

theorem has_put (o : Outstanding) (id i : UInt64) (entry : Pending) :
    (o.put id entry).has i = (decide (id = i) || o.has i) := by
  rw [has, get?_put]
  by_cases h : id = i <;> simp [h, has]

theorem has_remove (o : Outstanding) (id i : UInt64) :
    (o.remove id).2.has i = (decide (id ≠ i) && o.has i) := by
  rw [has, get?_remove]
  by_cases h : id = i <;> simp [h, has]

theorem addTo_of_has {o : Outstanding} {id : UInt64} (h : o.has id = true) (p : PeerId)
    (start : Option StartBlock) : o.addTo id p start = (false, o) := by
  rw [addTo, add, if_pos h]

theorem addTo_of_not_has {o : Outstanding} {id : UInt64} (h : o.has id = false) (p : PeerId)
    (start : Option StartBlock) : o.addTo id p start = (true, o.put id ⟨some p, start⟩) := by
  rw [addTo, add, if_neg (by rw [h]; decide), put]

/-- A request that was added and taken out again leaves nothing behind. -/
theorem remove_put {o : Outstanding} {id : UInt64} (h : o.has id = false) (entry : Pending) :
    ((o.put id entry).remove id).2 = o := by
  apply ext_get?
  intro i
  rw [get?_remove, get?_put]
  split
  · next hi => rw [← hi, has_eq_false_iff.1 h]
  · rfl

end Outstanding

end ChainPeer
