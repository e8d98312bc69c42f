import ChainPeer.World

/-!
# Scripted worlds

A world that does what a script says, to rehearse a node without its surroundings: answers are
taken from queues, and sends to chosen peers fail.
-/

namespace ChainPeer

inductive Fault where
  | notConnected
  | notSupported
  | closed
  | io
deriving DecidableEq

def Fault.toError (peer : PeerId) (protocol : Protocol) : Fault → TransportError
  | notConnected => .notConnected peer
  | notSupported => .notSupported protocol
  | closed => .closed
  | io => .io "reset by test"

/-- Which sends fail: those to the peers, if any are named, on the protocol, if one is named, after
the first `skip` of them. -/
structure FailurePlan where
  fault : Fault
  peers : Option (List PeerId)
  protocol : Option Protocol
  skip : Nat
deriving DecidableEq

def FailurePlan.concerns (plan : FailurePlan) (peer : PeerId) (protocol : Protocol) : Bool :=
  plan.peers.all (peer ∈ ·) && plan.protocol.all (protocol = ·)

/-- What a scripted world does. Of each queue one item is taken for each call. -/
structure Script where
  localPeer : PeerId
  genesis : Hash
  head : BlockNumber × Hash
  isSynced : Bool := true
  connected : List PeerId := []
  listening : List Multiaddr := []
  announced : List (Option BlockRequest) := []
  answered : List (Option BlockRequest) := []
  seen : List (Option BlockRequest) := []
  serve : List (Option (Except Refusal BlockResponse)) := []
  failure : Option FailurePlan := none
  bootstrapFault : Option Fault := none
  closeFault : Option Fault := none
  departing : List PeerId := []

namespace Script

/-- The hash that a script gives a block unless it names another. -/
def hashAt (n : BlockNumber) : Hash :=
  ⟨List.replicate 32 (UInt8.ofNat n.toNat), by simp⟩

/-- The script of a quiet world whose chain has its head at a height. -/
def quiet (localPeer : PeerId) (height : BlockNumber) : Script where
  localPeer
  genesis := hashAt 7
  head := (height, hashAt height)

/-- Takes the first item off a queue; an empty queue has nothing to ask for. -/
def pop {α : Type} : List (Option α) → Option α × List (Option α)
  | [] => (none, [])
  | item :: rest => (item, rest)

def send (s : Script) (peer : PeerId) (protocol : Protocol) :
    Except TransportError Unit × Script :=
  match s.failure with
  | none => (.ok (), s)
  | some plan =>
    if !plan.concerns peer protocol then (.ok (), s)
    else
      match plan.skip with
      | 0 => (.error (plan.fault.toError peer protocol), s)
      | skip + 1 => (.ok (), { s with failure := some { plan with skip } })

def outcome (s : Script) (fault : Option Fault) : Except TransportError Unit :=
  match fault with
  | some fault => .error (fault.toError s.localPeer Channel.blockAnnounces.protocol)
  | none => .ok ()

def transport : Transport Script where
  localPeer := localPeer
  connected := connected
  listening := listening
  send p c _ s := s.send p c.protocol
  accept _ s := s
  watch s := s
  setBootstrap _ s := s
  bootstrap s := ((s.outcome s.bootstrapFault, []), s)
  close s := ((s.outcome s.closeFault, []), s)

def subsystems (sink : Bool) : Subsystems Script where
  genesis s := ((s.genesis, s.departing), { s with departing := [] })
  head := head
  isSynced := isSynced
  announced _ _ s := let (r, announced) := pop s.announced; (r, { s with announced })
  answered _ _ s := let (r, answered) := pop s.answered; (r, { s with answered })
  serve r s :=
    let (answer, serve) := pop s.serve
    (answer.getD (.ok ⟨r.id, []⟩), { s with serve })
  seen _ s := let (r, seen) := pop s.seen; (r, { s with seen })
  deliver := if sink then some fun _ _ s => s else none

def world (sink : Bool) : World Script :=
  { transport, subsystems sink with }

end Script

end ChainPeer
