import ChainPeer.Node

/-!
# Announcing blocks

Blocks are announced only to peers on the same chain, which an exchange of handshakes makes sure
of. The first announcement to a peer opens the exchange; whoever did not open it answers the
handshake of the peer with one of its own.
-/

namespace ChainPeer.Site

variable {σ : Type} (w : World σ)

def localHandshake (s : Site σ) : Handshake × Site σ :=
  let (bestNumber, bestHash) := w.head s.world
  let (genesis, s) := s.genesis w
  (⟨s.node.config.roles, bestNumber, bestHash, genesis⟩, s)

/-- Checks that a peer is on the same chain. -/
def validate (h : Handshake) (s : Site σ) : Except GenesisMismatch Unit × Site σ :=
  let (ours, s) := s.genesis w
  (if h.genesis = ours then .ok () else .error ⟨ours, h.genesis⟩, s)

def sendHandshake (p : PeerId) (s : Site σ) : Except HandlerError Unit × Site σ :=
  let (h, s) := s.localHandshake w
  s.send w p (.handshake h)

def flush (p : PeerId) (heldBack : Option Message) (s : Site σ) :
    Except HandlerError Unit × Site σ :=
  match heldBack with
  | some m => s.send w p m
  | none => (.ok (), s)

/-- Sends a message to a peer as soon as the exchange with it is complete. An exchange whose
handshake could not be sent is dropped again. -/
def announceTo (p : PeerId) (m : Message) (s : Site σ) : Except HandlerError Unit × Site σ :=
  let (route, exchanges) := s.node.exchanges.route p m
  let s := s.update ({ · with exchanges })
  match route with
  | .sendNow m => s.send w p m
  | .openExchange =>
    match s.sendHandshake w p with
    | (.ok (), s) => (.ok (), s)
    | (.error e, s) => (.error e, s.update (·.forget .blockAnnounces p))
  | .heldBack | .refused => (.ok (), s)

/-- Sends a message to all connected peers. What fails for one peer does not concern the others. -/
def announce (m : Message) (s : Site σ) : Site σ :=
  (w.connected s.world).foldl (fun s p => (s.announceTo w p m).2) s

def countInvalid (s : Site σ) : Site σ :=
  s.update (·.count fun m => { m with handshakeFailures := m.handshakeFailures + 1 })

/-- Takes in what a peer says about itself in a valid handshake. -/
def noteHandshake (p : PeerId) (h : Handshake) (s : Site σ) : Site σ :=
  s.update (·.noteReport p (some h.roles) h.bestNumber h.bestHash)

/-- Handles the answer to a handshake of ours. If it is not valid the exchange is dropped, so that
it can be opened again. -/
def onReply (p : PeerId) (h : Handshake) (s : Site σ) : Except HandlerError Unit × Site σ :=
  match s.validate w h with
  | (.error _, s) => (.ok (), s.countInvalid.update (·.forget .blockAnnounces p))
  | (.ok (), s) =>
    let s := s.noteHandshake p h
    match s.node.exchanges.complete? p with
    | none => (.error (.missingExchange p s.node.exchanges.protocol), s)
    | some (heldBack, exchanges) => (s.update ({ · with exchanges })).flush w p heldBack

/-- Handles a handshake with which a peer opens the exchange. If it is not valid the peer stays
rejected; else it is answered, and a failure to send the answer is of no concern. -/
def onOpening (p : PeerId) (h : Handshake) (s : Site σ) : Except HandlerError Unit × Site σ :=
  match s.validate w h with
  | (.error _, s) =>
    (.ok (), s.countInvalid.update fun n => { n with exchanges := n.exchanges.reject p })
  | (.ok (), s) =>
    let s := s.noteHandshake p h
    let (heldBack, exchanges) := s.node.exchanges.accept p
    let (_, s) := (s.update ({ · with exchanges })).sendHandshake w p
    s.flush w p heldBack

/-- Handles a handshake. Once one was received from a peer, further ones are ignored. -/
def onHandshake (p : PeerId) (h : Handshake) (s : Site σ) : Except HandlerError Unit × Site σ :=
  match s.node.exchanges.get? p with
  | some (.complete _) | some .rejected => (.ok (), s)
  | some (.awaiting true _) => s.onReply w p h
  | some (.awaiting false _) | none => s.onOpening w p h

/-- Handles an announcement, which counts only if the exchange with the peer is complete. -/
def onAnnounce (p : PeerId) (a : Announce) (s : Site σ) : Except HandlerError Unit × Site σ :=
  match s.node.exchanges.get? p with
  | some (.complete _) =>
    let s := if a.isBest then s.update (·.noteReport p none a.number a.headerHash) else s
    let (request, world) := w.announced p a s.world
    ({ s with world } : Site σ).followUp w p request
  | _ => (.ok (), s)

end ChainPeer.Site
