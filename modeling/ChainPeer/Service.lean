import ChainPeer.Node.Stream

/-!
# Services

A service runs a node: it starts and stops once, keeps the roster in step with the connections,
greets every peer that connects with the status of the node, and refreshes the published state of
the network at regular times.
-/

namespace ChainPeer

inductive ServiceError where
  | config (e : ConfigError)
  | transport (e : TransportError)
  | handler (e : HandlerError)
  | alreadyStarted
  | notRunning
deriving DecidableEq

def ServiceError.message : ServiceError → String
  | config e => s!"config: {e.message}"
  | transport e => s!"host: {e.message}"
  | handler e => s!"handler: {e.message}"
  | alreadyStarted => "service already started"
  | notRunning => "service not running"

/-- Why there is no service: it was refused, or the program crashed while it was made. -/
inductive NotMade where
  | refused (e : ServiceError)
  | crashed
deriving DecidableEq

def clientVersion : String := "blocknet/1.0.0"

structure Health where
  peers : Nat
  isSyncing : Bool
  shouldHavePeers : Bool
deriving DecidableEq

structure NetworkState where
  peer : PeerId
  addresses : List Multiaddr
deriving DecidableEq

/-- What a service publishes about the network. -/
structure Overview where
  health : Health
  network : NetworkState
deriving DecidableEq

inductive Stage where
  | idle
  | running
  | stopped
deriving DecidableEq

/-- A service: its site, the overview computed last, the connected peers that are still to be
greeted, and the time in milliseconds until the next refresh. -/
structure Service (σ : Type) where
  site : Site σ
  stage : Stage
  overview : Overview
  toGreet : List PeerId
  untilRefresh : Nat

/-- Sends a payload to all connected peers. What fails for one peer does not concern the others. -/
def Transport.broadcast {σ : Type} (t : Transport σ) (c : Channel) (payload : Bytes) (s : σ) : σ :=
  (t.connected s).foldl (fun s p => (t.send p c payload s).2) s

def Site.overview {σ : Type} (w : World σ) (s : Site σ) : Overview where
  health :=
    { peers := s.node.roster.size
      isSyncing := !w.isSynced s.world
      shouldHavePeers := !s.node.config.noBootstrap }
  network := { peer := w.localPeer s.world, addresses := w.listening s.world }

namespace Service

variable {σ τ : Type} (w : World σ)

/-- A service that is not started, unless the configuration is not valid. The transport is told
the bootstrap addresses. A channel that cannot have room for as many reports as the configuration
says crashes the program, for validation has no upper limit for them. -/
def new (config : Config) (world : σ) : Except NotMade (Service σ) × σ :=
  match config.validate with
  | .error e => (.error (.refused (.config e)), world)
  | .ok () =>
    match config.addresses with
    | .error e => (.error (.refused (.config e)), world)
    | .ok addresses =>
      let world := w.setBootstrap addresses world
      if ReportQueue.maxCapacity < config.errorCapacity then (.error .crashed, world)
      else
        let site := ⟨.new config, world⟩
        (.ok ⟨site, .idle, site.overview w, [], config.refreshInterval⟩, world)

def update (s : Service σ) (f : Site σ → Site σ) : Service σ :=
  { s with site := f s.site }

def withWorld (s : Service σ) (world : τ) : Service τ :=
  ⟨⟨s.site.node, world⟩, s.stage, s.overview, s.toGreet, s.untilRefresh⟩

/-- Takes in a change of a connection. A peer that is new in the roster is greeted later; all that
is kept of a departed peer is dropped. -/
def onConnection (e : ConnectionEvent) (s : Service σ) : Service σ :=
  match e with
  | .established p _ =>
    match s.site.node.roster.insert p with
    | (false, _) => s
    | (true, roster) =>
      { s.update (·.update fun n => { n with roster }.countPeers) with
        toGreet := s.toGreet ++ [p] }
  | .closed p =>
    s.update (·.update fun n =>
      let n := { n with roster := (n.roster.remove p).2 }
      (Channel.all.foldl (fun n c => n.forget c p) n).countPeers)

/-- Sends the status of the node to a peer, if it is still to be greeted. -/
def greet (p : PeerId) (s : Service σ) : Service σ :=
  if p ∈ s.toGreet then
    { s with site := (s.site.sendStatus w p).2, toGreet := s.toGreet.erase p }
  else s

def greetAll (s : Service σ) : Service σ :=
  s.toGreet.foldl (fun s p => s.greet w p) s

def refresh (s : Service σ) : Service σ :=
  { s.update (·.update Node.countPeers) with
    overview := s.site.overview w
    untilRefresh := s.site.node.config.refreshInterval }

/-- Starts the service, once: streams are accepted on all channels, connected peers enter the
roster, and the bootstrap addresses are dialled unless the configuration says otherwise. That
dialling fails does not keep the service from running. -/
def start (s : Service σ) : Except ServiceError Unit × Service σ :=
  if s.stage ≠ .idle then (.error .alreadyStarted, s)
  else
    let world := w.watch (Channel.all.foldl (fun world c => w.accept c world) s.site.world)
    let node := (w.connected world).foldl (fun n p => { n with roster := (n.roster.insert p).2 })
      s.site.node
    let s := { s with stage := .running, site := ⟨node.countPeers, world⟩ }
    if s.site.node.config.noBootstrap then (.ok (), s.refresh w)
    else
      let ((_, events), world) := w.bootstrap s.site.world
      let s := s.update ({ · with world })
      (.ok (), (events.foldl (fun s e => s.onConnection e) s).refresh w)

/-- Stops a running service: the transport is closed and all that is kept of peers is dropped,
whether or not closing fails. -/
def stop (s : Service σ) : Except ServiceError Unit × Service σ :=
  if s.stage ≠ .running then (.error .notRunning, s)
  else
    let ((result, events), world) := w.close s.site.world
    let s := { s with stage := .stopped, site := { s.site with world } }
    let s := events.foldl (fun s e => s.onConnection e) s
    (result.mapError .transport, s.update (·.update fun n =>
      { Channel.all.foldl Node.reset n with roster := .empty }.countPeers))

/-- Sends a message of another subsystem to the peers it concerns. Only announcements,
transactions and statuses concern all peers. -/
def publish (m : Message) (s : Service σ) : Service σ :=
  match m with
  | .announce _ => s.update (·.announce w m)
  | .transactions _ => s.update fun site => (site.gossip w m none).2
  | .status _ =>
    s.update fun site =>
      { site with world := w.toTransport.broadcast m.channel m.payload site.world }
  | _ => s

def requestBlocks (p : PeerId) (r : BlockRequest) (s : Service σ) :
    Except ServiceError Unit × Service σ :=
  let (result, site) := s.site.requestBlocks w p r
  (result.mapError .handler, { s with site })

/-- Whether the service takes in connections and streams; once started it always does. -/
def isAttached (s : Service σ) : Bool := s.stage ≠ .idle

/-- Lets time pass. While the service runs, its overview is refreshed after every interval, the
last time at the end at the latest. -/
def advance (milliseconds : Nat) (s : Service σ) : Service σ :=
  if s.stage ≠ .running then s
  else if milliseconds < s.untilRefresh then
    { s with untilRefresh := s.untilRefresh - milliseconds }
  else
    let interval := s.site.node.config.refreshInterval
    let late := (milliseconds - s.untilRefresh) % interval
    { s.refresh w with untilRefresh := interval - late }

end Service

end ChainPeer
