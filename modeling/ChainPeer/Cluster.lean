import ChainPeer.Fabric
import ChainPeer.Script
import ChainPeer.Service

/-!
# Clusters

A cluster runs several members on one fabric. A member is a service with a scripted chain behind
it, or a bare endpoint that only logs what arrives. After every operation the notices of the fabric
are passed on at once; the tasks that it has queued are then worked off in their order.
-/

namespace ChainPeer

inductive LogEntry where
  | established (peer : PeerId) (address : Option Multiaddr)
  | closed (peer : PeerId)
  | opened (peer : PeerId) (protocol : Protocol)
  | frame (peer : PeerId) (protocol : Protocol) (payload : Bytes)
  | ended (peer : PeerId) (protocol : Protocol) (fault : Option FrameError)
deriving DecidableEq

/-- The world of a member other than the fabric: its script, and the calls to it. -/
abbrev Backstage := Script × List Event

/-- A member: its endpoint, its service if it has one, whether that takes in transactions, and what
the endpoint has logged, the latest first. -/
structure Member where
  endpoint : Nat
  service : Option (Service Backstage) := none
  sink : Bool := true
  log : List LogEntry := []

instance : Inhabited Member := ⟨{ endpoint := 0 }⟩

namespace Member

def note (m : Member) (entry : LogEntry) : Member :=
  { m with log := entry :: m.log }

/-- The world around a member whose service reads frames up to a limit. -/
def world (m : Member) (limit : Nat) : World (Fabric × Backstage) :=
  .pair (Fabric.transport m.endpoint limit) (Script.subsystems m.sink).traced

/-- Takes in a change of a connection, for the service or for the log. -/
def onConnection (m : Member) (watcher : Watcher) (e : ConnectionEvent) : Member :=
  match watcher, e with
  | .service, e => { m with service := m.service.map (·.onConnection e) }
  | .log, .established p address => m.note (.established p address)
  | .log, .closed p => m.note (.closed p)
  | .nobody, _ => m

end Member

structure Cluster where
  fabric : Fabric
  members : List Member

namespace Cluster

def empty : Cluster := ⟨.empty, []⟩

def onFabric (c : Cluster) (f : Fabric → Fabric) : Cluster :=
  { c with fabric := f c.fabric }

def onEndpoint (c : Cluster) (i : Nat) (f : Member → Member) : Cluster :=
  { c with members := c.members.map fun m => if m.endpoint = i then f m else m }

def passOn (c : Cluster) : Notice → Cluster
  | .connection i watcher e => c.onEndpoint i (·.onConnection watcher e)
  | .opened i p protocol => c.onEndpoint i (·.note (.opened p protocol))

def passAll (c : Cluster) : Cluster :=
  c.fabric.notices.foldl passOn (c.onFabric ({ · with notices := [] }))

def runService {α : Type} (c : Cluster) (n : Nat)
    (act : World (Fabric × Backstage) → Service (Fabric × Backstage) →
      α × Service (Fabric × Backstage)) : Option (α × Cluster) := do
  let m ← c.members[n]?
  let s ← m.service
  let w := m.world s.site.node.config.maxFrameLength
  let (a, s) := act w (s.withWorld (c.fabric, s.site.world))
  let (fabric, backstage) := s.site.world
  let m := { m with service := some (s.withWorld backstage) }
  pure (a, passAll ⟨fabric, c.members.set n m⟩)

def memberAt? (c : Cluster) (i : Nat) : Option Nat :=
  c.members.findIdx? (·.endpoint = i)

def addBare (c : Cluster) (p : PeerId) : Cluster :=
  let (i, fabric) := c.fabric.add p
  ⟨fabric, c.members ++ [{ endpoint := i }]⟩

/-- Adds a member for a peer, with a service if one can be made. -/
def addService (c : Cluster) (p : PeerId) (config : Config) (script : Script) (sink : Bool) :
    Except NotMade Unit × Cluster :=
  let (i, fabric) := c.fabric.add p
  let m : Member := { endpoint := i, sink }
  match Service.new (m.world config.maxFrameLength) config (fabric, script, []) with
  | (.error e, fabric, _) => (.error e, ⟨fabric, c.members ++ [m]⟩)
  | (.ok s, fabric, backstage) =>
    (.ok (), ⟨fabric, c.members ++ [{ m with service := some (s.withWorld backstage) }]⟩)

def connect (c : Cluster) (a b : PeerId) : Except TransportError Unit × Cluster :=
  let (result, fabric) := c.fabric.connect a b
  (result, { c with fabric }.passAll)

def disconnect (c : Cluster) (a b : PeerId) : Cluster :=
  (c.onFabric (·.disconnect a b)).passAll

def runEndpoint {α : Type} (c : Cluster) (n : Nat) (act : Fabric → Nat → α × Fabric) :
    α × Cluster :=
  let (a, fabric) := act c.fabric (c.members.getD n default).endpoint
  (a, { c with fabric }.passAll)

def dropTask (c : Cluster) : Cluster :=
  c.onFabric fun f => { f with tasks := f.tasks.tail }

/-- Hands what was read off a pipe to its reader; says whether the reader goes on. -/
def handFrame (c : Cluster) (pipe : Pipe) (reception : Reception)
    (frame : Except FrameError (Option Bytes)) : Bool × Cluster :=
  let p := (c.fabric.endpoint pipe.sender).peer
  match reception, Channel.ofProtocol? pipe.protocol, c.memberAt? pipe.receiver with
  | .service _, some channel, some n =>
    match c.runService n fun w s =>
        let (ending, site) := s.site.onFrame w channel p frame
        (ending.isNone, { s with site }) with
    | some (goesOn, c) => (goesOn, c)
    | none => (false, c)
  | _, _, _ =>
    match frame with
    | .ok (some payload) =>
      (true, c.onEndpoint pipe.receiver (·.note (.frame p pipe.protocol payload)))
    | .ok none => (false, c.onEndpoint pipe.receiver (·.note (.ended p pipe.protocol none)))
    | .error e => (false, c.onEndpoint pipe.receiver (·.note (.ended p pipe.protocol (some e))))

/-- Lets the reader of a pipe read one frame and hands that on, unless the reader has to wait. -/
def readPipe (c : Cluster) (k : Nat) (pipe : Pipe) (reception : Reception) : Cluster :=
  let (frame?, fabric) := c.fabric.take k
  let c := { c with fabric }
  match frame? with
  | none => c.dropTask
  | some frame =>
    let (goesOn, c) := c.handFrame pipe reception frame
    if goesOn then c else (c.onFabric (·.abandon k)).dropTask

/-- Works on the first of the queued tasks, if there is one. -/
def step (c : Cluster) : Option Cluster :=
  match c.fabric.tasks with
  | [] => none
  | .greet i p :: _ =>
    let c := c.dropTask
    let greeted? := do
      let n ← c.memberAt? i
      c.runService n fun w s => ((), s.greet w p)
    match greeted? with
    | some ((), c) => some c
    | none => some c
  | .read k :: _ =>
    match c.fabric.pipes[k]? with
    | none => some c.dropTask
    | some pipe =>
      match pipe.reader with
      | none => some c.dropTask
      | some reception => some (c.readPipe k pipe reception)

/-- Works on the queued tasks, as long as there are any, in at most `fuel` steps. -/
def settleWithin : Nat → Cluster → Cluster
  | 0, c => c
  | fuel + 1, c =>
    match c.step with
    | none => c
    | some c => settleWithin fuel c

/-- Works on the queued tasks until none is left; gives up after a million steps. -/
def settle (c : Cluster) : Cluster :=
  settleWithin 1000000 c

def advance (c : Cluster) (milliseconds : Nat) : Cluster :=
  (List.range c.members.length).foldl (fun c n =>
    match c.runService n fun w s => ((), s.advance w milliseconds) with
    | some ((), c) => c
    | none => c) c

/-- Empties the logs of all members, also those of the calls to their worlds. -/
def clearLogs (c : Cluster) : Cluster :=
  { c with
    members := c.members.map fun m =>
      { m with
        log := []
        service := m.service.map fun s => s.withWorld (s.site.world.1, ([] : List Event)) } }

end Cluster

end ChainPeer
