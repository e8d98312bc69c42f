import ChainPeer.Failure
import Std.Data.ExtTreeMap

/-!
# Registries of protocols

A registry holds one decoder for each protocol, in the order of the protocol names.
-/

namespace ChainPeer

abbrev Decoder := PeerId → Bytes → Except DecodeError Message

structure DuplicateProtocol where
  protocol : Protocol
deriving DecidableEq

def DuplicateProtocol.message (e : DuplicateProtocol) : String :=
  s!"protocol {e.protocol.name} registered twice"

structure Registry where
  decoders : Std.ExtTreeMap Protocol Decoder

namespace Registry

def empty : Registry := ⟨∅⟩

def has (r : Registry) (protocol : Protocol) : Bool := r.decoders.contains protocol

/-- Registers a protocol, once. -/
def register (r : Registry) (protocol : Protocol) (d : Decoder) :
    Except DuplicateProtocol Registry :=
  if r.has protocol then .error ⟨protocol⟩ else .ok ⟨r.decoders.insert protocol d⟩

/-- The registered protocols, in the order of their names. -/
def protocols (r : Registry) : List Protocol := r.decoders.keys

def decode (r : Registry) (protocol : Protocol) (p : PeerId) (payload : Bytes) :
    Except DecodeError Message :=
  match r.decoders[protocol]? with
  | some d => d p payload
  | none => .error (.unknownProtocol protocol)

end Registry

end ChainPeer
