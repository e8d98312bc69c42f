import ChainPeer.Message
import ChainPeer.PeerId
import Std.Data.ExtTreeMap

/-!
# Handshake exchanges

How far the exchange of handshakes with each peer has come. Only an exchange that still awaits the
peer's handshake may hold a message back, and only the latest one: a message held back is replaced
by the next, handed over when the exchange completes, and lost when the peer is rejected or
forgotten.
-/

namespace ChainPeer

/-- The exchange of handshakes with one peer. `initiator` says that we opened it. -/
inductive Exchange where
  | awaiting (initiator : Bool) (heldBack : Option Message)
  | rejected
  | complete (initiator : Bool)
deriving DecidableEq

namespace Exchange

/-- The exchange that neither side has opened. -/
def untouched : Exchange := awaiting false none

/-- The exchange that we opened, with a message that waits for it to complete. -/
def opened (heldBack : Option Message) : Exchange := awaiting true heldBack

/-- The exchange that the peer opened and that we accepted. -/
def accepted : Exchange := complete false

/-- Whether a handshake of the peer was received. -/
def isReceived : Exchange → Bool
  | awaiting .. => false
  | rejected | complete _ => true

/-- Whether a handshake of the peer was received and found valid. -/
def isComplete : Exchange → Bool
  | complete _ => true
  | awaiting .. | rejected => false

def isInitiator : Exchange → Bool
  | awaiting initiator _ | complete initiator => initiator
  | rejected => false

/-- The message that waits for the exchange to complete. -/
def heldBack? : Exchange → Option Message
  | awaiting _ heldBack => heldBack
  | rejected | complete _ => none

/-- The exchange once a valid handshake of the peer was received. -/
def completed (x : Exchange) : Exchange := complete x.isInitiator

end Exchange

/-- What becomes of a message for a peer. -/
inductive Route where
  | sendNow (m : Message)
  | openExchange
  | heldBack
  | refused
deriving DecidableEq

structure ExchangeTable where
  protocol : Protocol
  entries : Std.ExtTreeMap PeerId Exchange

namespace ExchangeTable

def empty (protocol : Protocol) : ExchangeTable := ⟨protocol, ∅⟩

def get? (t : ExchangeTable) (p : PeerId) : Option Exchange := t.entries[p]?

def insert (t : ExchangeTable) (p : PeerId) (x : Exchange) : ExchangeTable :=
  { t with entries := t.entries.insert p x }

def erase (t : ExchangeTable) (p : PeerId) : ExchangeTable :=
  { t with entries := t.entries.erase p }

def clear (t : ExchangeTable) : ExchangeTable := empty t.protocol

def size (t : ExchangeTable) : Nat := t.entries.size

/-- Whether what a peer sends next must be a handshake. -/
def expectsHandshake (t : ExchangeTable) (p : PeerId) : Bool :=
  match t.get? p with
  | some x => !x.isReceived
  | none => true

/-- Notes that the handshake of a peer was not valid. -/
def reject (t : ExchangeTable) (p : PeerId) : ExchangeTable := t.insert p .rejected

/-- Notes that the handshake of a peer was valid, whether or not there was an exchange with it;
hands over the message held back. -/
def accept (t : ExchangeTable) (p : PeerId) : Option Message × ExchangeTable :=
  let x := (t.get? p).getD .untouched
  (x.heldBack?, t.insert p x.completed)

/-- Notes that the handshake of a peer was valid and hands over the message held back, if there is
still an exchange with the peer. -/
def complete? (t : ExchangeTable) (p : PeerId) : Option (Option Message × ExchangeTable) :=
  (t.get? p).map fun x => (x.heldBack?, t.insert p x.completed)

/-- Finds out what becomes of a message for a peer. The first message for a peer opens the
exchange; until it is complete, the latest message is held back. -/
def route (t : ExchangeTable) (p : PeerId) (m : Message) : Route × ExchangeTable :=
  match t.get? p with
  | none => (.openExchange, t.insert p (.opened (some m)))
  | some (.complete _) => (.sendNow m, t)
  | some .rejected => (.refused, t)
  | some (.awaiting initiator _) => (.heldBack, t.insert p (.awaiting initiator (some m)))

@[simp] theorem get?_empty (protocol : Protocol) (p : PeerId) : (empty protocol).get? p = none := by
  simp [empty, get?]

theorem get?_insert (t : ExchangeTable) (p q : PeerId) (x : Exchange) :
    (t.insert p x).get? q = if p = q then some x else t.get? q := by
  simp [insert, get?, Std.ExtTreeMap.getElem?_insert]

theorem get?_erase (t : ExchangeTable) (p q : PeerId) :
    (t.erase p).get? q = if p = q then none else t.get? q := by
  simp [erase, get?, Std.ExtTreeMap.getElem?_erase]

end ExchangeTable

end ChainPeer
