import ChainPeer.Node

/-!
# Status and gossip

Peers tell each other the state of their chains, and pass transactions on to all other peers the
first time they see them.
-/

namespace ChainPeer

/-- What transactions are remembered by. -/
def Message.gossipHash (m : Message) : Hash :=
  Hash.sha256 m.encodeTagged

namespace Site

variable {σ : Type} (w : World σ)

def localStatus (s : Site σ) : Status × Site σ :=
  let (bestNumber, bestHash) := w.head s.world
  let (genesis, s) := s.genesis w
  ({ protocolVersion := s.node.config.protocolVersion
     minSupportedVersion := s.node.config.minSupportedVersion
     roles := s.node.config.roles
     bestNumber, bestHash, genesis
     chainStatus := [] }, s)

def sendStatus (p : PeerId) (s : Site σ) : Except HandlerError Unit × Site σ :=
  let (status, s) := s.localStatus w
  s.send w p (.status status)

/-- Sends a message to all connected peers but one. What fails for one peer does not concern the
others. -/
def forward (m : Message) (except : Option PeerId) (s : Site σ) : Site σ :=
  ((w.connected s.world).filter fun p => some p ≠ except).foldl (fun s p => (s.send w p m).2) s

/-- Passes on a message of our own, which then does not count as new when it comes back. Only a
message that has no bytes would be refused, and there is none. -/
def gossip (m : Message) (except : Option PeerId) (s : Site σ) :
    Except HandlerError Unit × Site σ :=
  let s := s.update fun n => { n with seen := (n.seen.insert m.gossipHash).2 }
  (.ok (), s.forward w m except)

/-- Handles the status of a peer, which counts only if the peer is on the same chain and its
version is supported. -/
def onStatus (p : PeerId) (m : Status) (s : Site σ) : Except HandlerError Unit × Site σ :=
  let (genesis, s) := s.genesis w
  if m.genesis ≠ genesis ∨ m.protocolVersion < s.node.config.minSupportedVersion then (.ok (), s)
  else
    let s := s.update (·.noteReport p (some m.roles) m.bestNumber m.bestHash)
    let (request, world) := w.seen m.bestNumber s.world
    ({ s with world } : Site σ).followUp w p request

/-- Hands a message of a peer over, if the other subsystems take any. -/
def deliver (p : PeerId) (m : Message) (s : Site σ) : Site σ :=
  match w.deliver with
  | some d => { s with world := d p m s.world }
  | none => s

/-- Handles transactions of a peer: new ones are handed over and passed on. -/
def onGossip (p : PeerId) (m : Message) (s : Site σ) : Site σ :=
  match s.node.seen.insert m.gossipHash with
  | (false, _) => s.update (·.count fun m => { m with gossipDuplicates := m.gossipDuplicates + 1 })
  | (true, seen) => ((s.update ({ · with seen })).deliver w p m).forward w m (some p)

end Site

end ChainPeer
