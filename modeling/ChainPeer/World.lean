import ChainPeer.Message
import ChainPeer.Multiaddr

/-!
# The world around a node

What a node relies on: a transport that carries payloads to peers, and the other subsystems, which
know the chain, decide what to sync and take in transactions. Both keep a state of their own, of
any type, and may behave in any way.
-/

namespace ChainPeer

inductive TransportError where
  | notConnected (peer : PeerId)
  | notSupported (protocol : Protocol)
  | closed
  | io (reason : String)
deriving DecidableEq

def TransportError.message : TransportError → String
  | notConnected peer => s!"not connected to {peer.text}"
  | notSupported protocol => s!"protocol {protocol.name} not supported by remote"
  | closed => "host closed"
  | io reason => s!"io: {reason}"

/-- Why a request for blocks is not served. -/
inductive Refusal where
  | unavailable
  | invalid (reason : String)
deriving DecidableEq

def Refusal.message : Refusal → String
  | unavailable => "blocks not available"
  | invalid reason => s!"invalid request: {reason}"

inductive ConnectionEvent where
  | established (peer : PeerId) (address : Option Multiaddr)
  | closed (peer : PeerId)
deriving DecidableEq

/-- A transport with state `σ`. Dialling the bootstrap addresses and closing may change
connections; the changes that the node is told of at once are returned. -/
structure Transport (σ : Type) where
  localPeer : σ → PeerId
  connected : σ → List PeerId
  listening : σ → List Multiaddr
  send : PeerId → Channel → Bytes → σ → Except TransportError Unit × σ
  accept : Channel → σ → σ
  watch : σ → σ
  setBootstrap : List Multiaddr → σ → σ
  bootstrap : σ → (Except TransportError Unit × List ConnectionEvent) × σ
  close : σ → (Except TransportError Unit × List ConnectionEvent) × σ

/-- The other subsystems of a node, with state `σ`. Looking up the genesis block may take a while,
in which peers depart whose exchanges are then dropped; they are returned with its hash. -/
structure Subsystems (σ : Type) where
  genesis : σ → (Hash × List PeerId) × σ
  head : σ → BlockNumber × Hash
  isSynced : σ → Bool
  announced : PeerId → Announce → σ → Option BlockRequest × σ
  answered : PeerId → BlockResponse → σ → Option BlockRequest × σ
  serve : BlockRequest → σ → Except Refusal BlockResponse × σ
  seen : BlockNumber → σ → Option BlockRequest × σ
  deliver : Option (PeerId → Message → σ → σ)

structure World (σ : Type) extends Transport σ, Subsystems σ

variable {α β : Type}

/-- A transport as one part of a larger state. -/
def Transport.onFirst (t : Transport α) : Transport (α × β) where
  localPeer s := t.localPeer s.1
  connected s := t.connected s.1
  listening s := t.listening s.1
  send p c payload s := let (r, a) := t.send p c payload s.1; (r, a, s.2)
  accept c s := (t.accept c s.1, s.2)
  watch s := (t.watch s.1, s.2)
  setBootstrap addresses s := (t.setBootstrap addresses s.1, s.2)
  bootstrap s := let (r, a) := t.bootstrap s.1; (r, a, s.2)
  close s := let (r, a) := t.close s.1; (r, a, s.2)

/-- Subsystems as the other part of a larger state. -/
def Subsystems.onSecond (u : Subsystems β) : Subsystems (α × β) where
  genesis s := let (r, b) := u.genesis s.2; (r, s.1, b)
  head s := u.head s.2
  isSynced s := u.isSynced s.2
  announced p m s := let (r, b) := u.announced p m s.2; (r, s.1, b)
  answered p m s := let (r, b) := u.answered p m s.2; (r, s.1, b)
  serve m s := let (r, b) := u.serve m s.2; (r, s.1, b)
  seen n s := let (r, b) := u.seen n s.2; (r, s.1, b)
  deliver := u.deliver.map fun d p m s => (s.1, d p m s.2)

/-- A transport and subsystems that share nothing. -/
def World.pair (t : Transport α) (u : Subsystems β) : World (α × β) :=
  { t.onFirst, u.onSecond with }

end ChainPeer
