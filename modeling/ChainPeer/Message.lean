import ChainPeer.Codec

/-!
# Messages

What peers tell each other: handshakes and announcements of blocks, requests for blocks and the
responses to them, the status of a chain, and transactions. Each kind of message has a tag of one
byte and travels on one of three channels.
-/

namespace ChainPeer

abbrev BlockNumber := UInt64

/-- The roles a peer takes, one bit each. -/
abbrev Roles := UInt8

namespace Roles

/-- A node with the whole state. -/
def full : Roles := 1

/-- A light client. -/
def light : Roles := 2

/-- A node that authors blocks. -/
def authority : Roles := 4

end Roles

/-- The name of an application protocol carried over a connection. -/
structure Protocol where
  name : String
deriving DecidableEq

namespace Protocol

instance : Ord Protocol := ⟨compareOn name⟩

instance : Std.TransOrd Protocol := inferInstanceAs (Std.TransCmp (compareOn name))

instance : Std.LawfulEqOrd Protocol where
  eq_of_compare {p q} h := by
    have := Std.LawfulEqOrd.eq_of_compare (α := String) h
    cases p; cases q; simp_all

end Protocol

inductive Channel where
  | blockAnnounces
  | sync
  | legacy
deriving DecidableEq, Inhabited

namespace Channel

/-- Every channel, in the order of the protocol names. -/
def all : List Channel := [blockAnnounces, legacy, sync]

def protocol : Channel → Protocol
  | blockAnnounces => ⟨"/block-announces/1"⟩
  | sync => ⟨"/sync/2"⟩
  | legacy => ⟨"/legacy/1"⟩

def ofProtocol? (p : Protocol) : Option Channel :=
  all.find? (·.protocol = p)

end Channel

/-- Opens an exchange of announcements. -/
structure Handshake where
  roles : Roles
  bestNumber : BlockNumber
  bestHash : Hash
  genesis : Hash
deriving DecidableEq

/-- Makes a new block known. -/
structure Announce where
  parent : Hash
  number : BlockNumber
  stateRoot : Hash
  extrinsicsRoot : Hash
  digest : List Bytes
  isBest : Bool
deriving DecidableEq

/-- Which parts of a block a request asks for, one bit each. -/
abbrev BlockParts := UInt8

namespace BlockParts

def header : BlockParts := 1

def body : BlockParts := 2

def justification : BlockParts := 16

end BlockParts

/-- The block at which a request starts. -/
inductive StartBlock where
  | hash (h : Hash)
  | number (n : BlockNumber)
deriving DecidableEq

/-- Which way a request goes along the chain. -/
inductive Direction where
  | ascending
  | descending
deriving DecidableEq

structure BlockRequest where
  id : UInt64
  parts : BlockParts
  start : StartBlock
  last : Option Hash
  direction : Direction
  limit : Option UInt32
deriving DecidableEq

structure BlockData where
  hash : Hash
  header : Option Bytes
  body : Option (List Bytes)
  justification : Option Bytes
deriving DecidableEq

/-- Answers the request with the same id. -/
structure BlockResponse where
  id : UInt64
  blocks : List BlockData
deriving DecidableEq

structure Status where
  protocolVersion : UInt32
  minSupportedVersion : UInt32
  roles : Roles
  bestNumber : BlockNumber
  bestHash : Hash
  genesis : Hash
  chainStatus : Bytes
deriving DecidableEq

structure Transactions where
  extrinsics : List Bytes
deriving DecidableEq

inductive Message where
  | handshake (m : Handshake)
  | announce (m : Announce)
  | request (m : BlockRequest)
  | response (m : BlockResponse)
  | status (m : Status)
  | transactions (m : Transactions)
deriving DecidableEq

inductive MessageKind where
  | status
  | request
  | response
  | announce
  | transactions
  | handshake
deriving DecidableEq

namespace MessageKind

/-- Every kind, in the order of the tags. -/
def all : List MessageKind :=
  [status, request, response, announce, transactions, handshake]

/-- The byte that stands for a kind. -/
def tag : MessageKind → UInt8
  | status => 0
  | request => 1
  | response => 2
  | announce => 3
  | transactions => 4
  | handshake => 5

/-- The kind a byte stands for. -/
def ofTag (tag : UInt8) : Except CodecError MessageKind :=
  match tag with
  | 0 => .ok status
  | 1 => .ok request
  | 2 => .ok response
  | 3 => .ok announce
  | 4 => .ok transactions
  | 5 => .ok handshake
  | other => .error (.unknownTag other)

def name : MessageKind → String
  | status => "Status"
  | request => "BlockRequest"
  | response => "BlockResponse"
  | announce => "BlockAnnounce"
  | transactions => "Transactions"
  | handshake => "BlockAnnounceHandshake"

def ofName? (name : String) : Option MessageKind :=
  all.find? (·.name = name)

/-- The channel on which messages of a kind travel. -/
def channel : MessageKind → Channel
  | handshake | announce => .blockAnnounces
  | request | response => .sync
  | status | transactions => .legacy

end MessageKind

namespace Message

def kind : Message → MessageKind
  | handshake _ => .handshake
  | announce _ => .announce
  | request _ => .request
  | response _ => .response
  | status _ => .status
  | transactions _ => .transactions

def channel (m : Message) : Channel :=
  m.kind.channel

end Message

end ChainPeer
