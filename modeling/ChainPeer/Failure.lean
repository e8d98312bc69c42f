import ChainPeer.Frame
import ChainPeer.World

/-!
# Failures

What can go wrong with a payload, a message or a stream, and the text shown for it.
-/

namespace ChainPeer

/-- Why a payload is not a message for a protocol. -/
inductive DecodeError where
  | codec (e : CodecError)
  | unexpectedKind (protocol : Protocol) (kind : MessageKind)
  | unknownProtocol (protocol : Protocol)
deriving DecidableEq

def DecodeError.message : DecodeError → String
  | codec e => s!"codec: {e.message}"
  | unexpectedKind protocol kind => s!"{kind.name} is not carried on {protocol.name}"
  | unknownProtocol protocol => s!"unknown protocol {protocol.name}"

/-- Why a message could not be handled. No handler fails with `codec`: `Codec.encode` is total,
as every value of a message type has its bytes and their number is not limited. -/
inductive HandlerError where
  | codec (e : CodecError)
  | send (e : TransportError)
  | missingExchange (peer : PeerId) (protocol : Protocol)
deriving DecidableEq

def HandlerError.message : HandlerError → String
  | codec e => s!"codec: {e.message}"
  | send e => s!"send: {e.message}"
  | missingExchange peer protocol => s!"no handshake record for {peer.text} on {protocol.name}"

/-- A handshake of a peer on another chain. -/
structure GenesisMismatch where
  ours : Hash
  theirs : Hash
deriving DecidableEq

def GenesisMismatch.message (e : GenesisMismatch) : String :=
  s!"genesis mismatch: ours {e.ours.text}, theirs {e.theirs.text}"

/-- Why a stream was given up. -/
inductive StreamFault where
  | frame (e : FrameError)
  | handler (e : HandlerError)
deriving DecidableEq

def StreamFault.message : StreamFault → String
  | frame e => s!"frame: {e.message}"
  | handler e => s!"handler: {e.message}"

structure StreamReport where
  peer : PeerId
  protocol : Protocol
  fault : StreamFault
deriving DecidableEq

def StreamReport.message (r : StreamReport) : String :=
  s!"stream {r.protocol.name} from {r.peer.text}: {r.fault.message}"

/-- The reports that nobody has taken yet, oldest first. There is room for `capacity` of them; a
report that does not fit is dropped. -/
structure ReportQueue where
  capacity : Nat
  pending : List StreamReport
deriving DecidableEq

namespace ReportQueue

/-- The most reports that a queue can have room for: a channel has no more permits than the largest
64-bit number without its three lowest bits. -/
def maxCapacity : Nat := (UInt64.size - 1) / 8

def empty (capacity : Nat) : ReportQueue := ⟨capacity, []⟩

/-- Adds a report if there is room. -/
def add (q : ReportQueue) (r : StreamReport) : ReportQueue :=
  if q.pending.length < q.capacity then { q with pending := q.pending ++ [r] } else q

def take (q : ReportQueue) : List StreamReport × ReportQueue :=
  (q.pending, { q with pending := [] })

end ReportQueue

end ChainPeer
