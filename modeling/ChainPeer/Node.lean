import ChainPeer.Config
import ChainPeer.Exchange
import ChainPeer.Failure
import ChainPeer.Message.Wire
import ChainPeer.Metrics
import ChainPeer.Outstanding
import ChainPeer.Registry
import ChainPeer.Roster
import ChainPeer.SeenWindow
import ChainPeer.Trace

/-!
# Nodes

The state of a node, and a site: a node with the world around it. Whatever a node does is a
function from sites to sites; a message that cannot be sent is an error, after which the site is
as far as it got.
-/

namespace ChainPeer

structure Node where
  config : Config
  exchanges : ExchangeTable
  roster : Roster
  requests : Outstanding
  seen : SeenWindow
  metrics : Metrics
  reports : ReportQueue

namespace Node

/-- How many transactions a node remembers having passed on. -/
def seenCapacity : Nat := 8192

/-- A node that has met nobody. -/
def new (config : Config) : Node where
  config
  exchanges := .empty Channel.blockAnnounces.protocol
  roster := .empty
  requests := .empty
  seen := .empty seenCapacity
  metrics := {}
  reports := .empty config.errorCapacity

def count (n : Node) (f : Metrics → Metrics) : Node :=
  { n with metrics := f n.metrics }

/-- The node that publishes the size of its roster. -/
def countPeers (n : Node) : Node :=
  n.count fun m => { m with peers := n.roster.size }

def noteReport (n : Node) (p : PeerId) (roles : Option Roles) (number : BlockNumber)
    (hash : Hash) : Node :=
  { n with roster := n.roster.report p roles number hash }

/-- Turns a payload of a peer into a message of a channel. A payload of announcements is read as
what the peer must send next; on the other channels the tag of a payload tells its kind. -/
def decode (n : Node) (c : Channel) (p : PeerId) (payload : Bytes) :
    Except DecodeError Message :=
  match c with
  | .blockAnnounces =>
    let kind : MessageKind := if n.exchanges.expectsHandshake p then .handshake else .announce
    (Message.decodeBare kind payload n.config.maxMessageLength).mapError .codec
  | c =>
    match Message.decodeTagged payload n.config.maxMessageLength with
    | .error e => .error (.codec e)
    | .ok m => if m.channel = c then .ok m else .error (.unexpectedKind c.protocol m.kind)

/-- The decoders of all channels. -/
def registry (n : Node) : Registry :=
  ⟨.ofList (Channel.all.map fun c => (c.protocol, n.decode c))⟩

/-- Drops what the node keeps of a departed peer for one channel. -/
def forget (n : Node) (c : Channel) (p : PeerId) : Node :=
  match c with
  | .blockAnnounces => { n with exchanges := n.exchanges.erase p }
  | .sync => { n with requests := (n.requests.removePeer p).2 }
  | .legacy => n

/-- Drops all that the node keeps for one channel. -/
def reset (n : Node) (c : Channel) : Node :=
  match c with
  | .blockAnnounces => { n with exchanges := n.exchanges.clear }
  | .sync => { n with requests := .empty }
  | .legacy => { n with seen := n.seen.clear }

/-- Counts and reports a stream that was given up. -/
def report (n : Node) (c : Channel) (p : PeerId) (fault : StreamFault) : Node :=
  let n := n.count fun m => { m with streamErrors := m.streamErrors + 1 }
  { n with reports := n.reports.add ⟨p, c.protocol, fault⟩ }

end Node

/-- A node and the state of the world around it. -/
structure Site (σ : Type) where
  node : Node
  world : σ

namespace Site

variable {σ : Type}

def update (s : Site σ) (f : Node → Node) : Site σ :=
  { s with node := f s.node }

/-- Sends a message to a peer and counts it. -/
def send (w : World σ) (p : PeerId) (m : Message) (s : Site σ) :
    Except HandlerError Unit × Site σ :=
  match w.send p m.channel m.payload s.world with
  | (.ok (), world) =>
    (.ok (), ⟨s.node.count fun m => { m with messagesSent := m.messagesSent + 1 }, world⟩)
  | (.error e, world) => (.error (.send e), { s with world })

/-- Asks a peer for blocks, unless a request with the same id is still to be answered. The request
counts as outstanding only if it could be sent. -/
def requestBlocks (w : World σ) (p : PeerId) (r : BlockRequest) (s : Site σ) :
    Except HandlerError Unit × Site σ :=
  match s.node.requests.addTo r.id p (some r.start) with
  | (false, _) => (.ok (), s)
  | (true, requests) =>
    match send w p (.request r) (s.update ({ · with requests })) with
    | (.ok (), s) => (.ok (), s)
    | (.error e, s) =>
      (.error e, s.update fun n => { n with requests := (n.requests.remove r.id).2 })

/-- Sends the request that the other subsystems want to be sent, if there is one. -/
def followUp (w : World σ) (p : PeerId) (request : Option BlockRequest) (s : Site σ) :
    Except HandlerError Unit × Site σ :=
  match request with
  | some r => s.requestBlocks w p r
  | none => (.ok (), s)

/-- Looks up the genesis block. The exchanges with peers that depart meanwhile are dropped. -/
def genesis (w : World σ) (s : Site σ) : Hash × Site σ :=
  let ((hash, departed), world) := w.genesis s.world
  (hash, ⟨departed.foldl (fun n p => n.forget .blockAnnounces p) s.node, world⟩)

end Site

end ChainPeer
