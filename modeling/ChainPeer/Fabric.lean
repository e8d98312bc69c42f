import ChainPeer.Frame
import ChainPeer.World
import Std.Data.ExtTreeMap
import Std.Data.ExtTreeSet

/-!
# Networks in memory

A fabric joins the endpoints of nodes that live in one process. Endpoints are connected in pairs,
and a stream from one endpoint to another is a pipe, opened by the first payload that is sent on a
protocol and closed with the connection. What the owner of an endpoint must be told of is queued as
a notice, and what remains to be done in its name as a task.
-/

namespace ChainPeer

/-- What becomes of the streams that are opened to an endpoint on a protocol: a service reads them
with a limit on frames, or they are collected frame by frame, or dropped at once. -/
inductive Reception where
  | service (limit : Nat)
  | collect
  | drop
deriving DecidableEq

/-- Who is told of changes of the connections of an endpoint. -/
inductive Watcher where
  | nobody
  | service
  | log
deriving DecidableEq

structure Endpoint where
  peer : PeerId
  port : Nat
  receptions : Std.ExtTreeMap Protocol Reception := ∅
  watcher : Watcher := .nobody
  connected : Std.ExtTreeSet PeerId := ∅
  bootstrap : List PeerId := []
  isClosed : Bool := false

instance : Inhabited Endpoint := ⟨{ peer := default, port := 0 }⟩

def Endpoint.address (e : Endpoint) : Multiaddr :=
  [.memory (UInt64.ofNat e.port), .p2p e.peer]

/-- A stream from one endpoint to another: the bytes that are not read yet, who reads them unless
the reader has gone, and whether the sender still holds it. -/
structure Pipe where
  sender : Nat
  receiver : Nat
  peer : PeerId
  protocol : Protocol
  reader : Option Reception
  unread : Bytes
  isOpen : Bool

/-- What the owner of an endpoint must be told. -/
inductive Notice where
  | connection (endpoint : Nat) (watcher : Watcher) (e : ConnectionEvent)
  | opened (endpoint : Nat) (sender : PeerId) (protocol : Protocol)

inductive Task where
  | greet (endpoint : Nat) (peer : PeerId)
  | read (pipe : Nat)
deriving DecidableEq

/-- Endpoints, the pipes between them, and what is queued for their owners. The directory leads
from a peer to the endpoint that was added for it last. -/
structure Fabric where
  endpoints : List Endpoint
  directory : Std.ExtTreeMap PeerId Nat
  ports : Nat
  pipes : List Pipe
  notices : List Notice
  tasks : List Task

namespace Fabric

/-- How many bytes a pipe holds. -/
def pipeCapacity : Nat := 65536

def empty : Fabric := ⟨[], ∅, 0, [], [], []⟩

def endpoint (f : Fabric) (i : Nat) : Endpoint := f.endpoints.getD i default

def update (f : Fabric) (i : Nat) (g : Endpoint → Endpoint) : Fabric :=
  { f with endpoints := f.endpoints.modify i g }

/-- Gives out the next port without an endpoint. -/
def reservePort (f : Fabric) : Nat × Fabric :=
  (f.ports + 1, { f with ports := f.ports + 1 })

def add (f : Fabric) (peer : PeerId) : Nat × Fabric :=
  let i := f.endpoints.length
  let (port, f) := f.reservePort
  (i, { f with
    endpoints := f.endpoints ++ [{ peer, port }]
    directory := f.directory.insert peer i })

def queue (f : Fabric) (task : Task) : Fabric :=
  if task ∈ f.tasks then f else { f with tasks := f.tasks ++ [task] }

/-- Tells whoever watches the connections of an endpoint of a change. A service that learns of a
new connection will greet the peer. -/
def tell (f : Fabric) (i : Nat) (e : ConnectionEvent) : Fabric :=
  let watcher := (f.endpoint i).watcher
  if watcher = .nobody then f
  else
    let f := { f with notices := f.notices ++ [.connection i watcher e] }
    match watcher, e with
    | .service, .established p _ => f.queue (.greet i p)
    | _, _ => f

/-- Notes a connection of an endpoint to a peer and tells of it if it is new. -/
def join (f : Fabric) (isNew : Bool) (i : Nat) (p : PeerId) (address : Multiaddr) : Fabric :=
  if isNew then f.tell i (.established p (some address)) else f

def connect (f : Fabric) (a b : PeerId) : Except TransportError Unit × Fabric :=
  match f.directory[a]?, f.directory[b]? with
  | none, _ => (.error (.notConnected a), f)
  | _, none => (.error (.notConnected b), f)
  | some i, some j =>
    if (f.endpoint i).isClosed ∨ (f.endpoint j).isClosed then (.error .closed, f)
    else
      let newHere := !(f.endpoint i).connected.contains b
      let f := f.update i fun e => { e with connected := e.connected.insert b }
      let newThere := !(f.endpoint j).connected.contains a
      let f := f.update j fun e => { e with connected := e.connected.insert a }
      let f := f.join newHere i b (f.endpoint j).address
      (.ok (), f.join newThere j a (f.endpoint i).address)

/-- Lets go of the pipes that a condition selects; their readers then find the end. -/
def release (f : Fabric) (selects : Pipe → Bool) : Fabric :=
  let held := f.pipes.zipIdx.filter fun (pipe, _) => pipe.isOpen && selects pipe
  let f := { f with
    pipes := f.pipes.map fun pipe => if selects pipe then { pipe with isOpen := false } else pipe }
  held.foldl (fun f (_, k) => f.queue (.read k)) f

/-- Takes back a connection of an endpoint to a peer and tells of it if there was one. -/
def part (f : Fabric) (i : Nat) (p : PeerId) : Fabric :=
  if (f.endpoint i).connected.contains p then
    (f.update i fun e => { e with connected := e.connected.erase p }).tell i (.closed p)
  else f

def disconnect (f : Fabric) (a b : PeerId) : Fabric :=
  match f.directory[a]?, f.directory[b]? with
  | some i, some j =>
    let f := f.release fun pipe => pipe.sender = i && pipe.peer = b
    let f := f.release fun pipe => pipe.sender = j && pipe.peer = a
    (f.part i b).part j a
  | _, _ => f

def accept (f : Fabric) (i : Nat) (protocol : Protocol) (reception : Reception) : Fabric :=
  f.update i fun e => { e with receptions := e.receptions.insert protocol reception }

def watch (f : Fabric) (i : Nat) (watcher : Watcher) : Fabric :=
  f.update i ({ · with watcher })

/-- The number of the pipe that an endpoint holds to a peer on a protocol. -/
def pipe? (f : Fabric) (i : Nat) (p : PeerId) (protocol : Protocol) : Option Nat :=
  f.pipes.findIdx? fun pipe =>
    pipe.isOpen && pipe.sender = i && pipe.peer = p && pipe.protocol = protocol

/-- The reader of a new pipe. Who drops streams is gone at once. -/
def reader? : Reception → Option Reception
  | .drop => none
  | reception => some reception

def openPipe (f : Fabric) (i : Nat) (p : PeerId) (protocol : Protocol) :
    Except TransportError (Nat × Fabric) :=
  match f.directory[p]? with
  | none => .error (.notConnected p)
  | some j =>
    match (f.endpoint j).receptions[protocol]? with
    | none => .error (.notSupported protocol)
    | some reception =>
      let k := f.pipes.length
      let pipe : Pipe := ⟨i, j, p, protocol, reader? reception, [], true⟩
      let f : Fabric := { f with pipes := f.pipes ++ [pipe] }
      match reception with
      | .service _ => .ok (k, f.queue (.read k))
      | .collect | .drop =>
        let notice := Notice.opened j (f.endpoint i).peer protocol
        .ok (k, { f with notices := f.notices ++ [notice] }.queue (.read k))

def admits (length : Nat) : Reception → Bool
  | .service limit => length ≤ limit
  | .collect => true
  | .drop => false

/-- Writes a payload into a pipe. That fails if the reader has gone, or if the frame does not fit
into the pipe and the reader gives up on its length; the pipe is then let go. -/
def write (f : Fabric) (k : Nat) (payload : Bytes) : Except TransportError Unit × Fabric :=
  match f.pipes[k]? with
  | none => (.error .closed, f)
  | some pipe =>
    let frame := Frame.encode payload
    let unread := pipe.unread ++ frame
    match pipe.reader with
    | none =>
      (.error (.io "broken pipe"),
        { f with pipes := f.pipes.set k { pipe with isOpen := false } })
    | some reception =>
      if unread.length ≤ pipeCapacity ∨ admits payload.length reception then
        (.ok (), { f with pipes := f.pipes.set k { pipe with unread } }.queue (.read k))
      else
        (.error (.io "broken pipe"),
          { f with pipes := f.pipes.set k { pipe with unread, isOpen := false } }.queue (.read k))

def frameLimit : Reception → Nat
  | .service limit => limit
  | .collect | .drop => UInt64.size - 1

/-- Reads one frame off what a pipe holds, and says what is then unread. While the sender holds the
pipe, its reader waits for the rest of what it has not read completely. -/
def readFrame (limit : Nat) (pipe : Pipe) : Option (Except FrameError (Option Bytes)) × Bytes :=
  let (frame, source) := ByteSource.readFrame limit (.ofBytes pipe.unread)
  match frame with
  | .error .truncated => (if pipe.isOpen then none else some frame, pipe.unread)
  | .ok none => (if pipe.isOpen then none else some frame, source.bytes)
  | _ => (some frame, source.bytes)

/-- Lets the reader of a pipe read one frame, if it has not gone and need not wait. -/
def take (f : Fabric) (k : Nat) : Option (Except FrameError (Option Bytes)) × Fabric :=
  match f.pipes[k]? with
  | none => (none, f)
  | some pipe =>
    match pipe.reader with
    | none => (none, f)
    | some reception =>
      let (frame?, unread) := readFrame (frameLimit reception) pipe
      (frame?, { f with pipes := f.pipes.set k { pipe with unread } })

def abandon (f : Fabric) (k : Nat) : Fabric :=
  { f with pipes := f.pipes.modify k ({ · with reader := none }) }

/-- Sends a payload from an endpoint to a connected peer on a protocol. -/
def send (f : Fabric) (i : Nat) (p : PeerId) (protocol : Protocol) (payload : Bytes) :
    Except TransportError Unit × Fabric :=
  if (f.endpoint i).isClosed then (.error .closed, f)
  else if !(f.endpoint i).connected.contains p then (.error (.notConnected p), f)
  else
    match f.pipe? i p protocol with
    | some k => f.write k payload
    | none =>
      match f.openPipe i p protocol with
      | .error e => (.error e, f)
      | .ok (k, f) => f.write k payload

def connected (f : Fabric) (i : Nat) : List PeerId :=
  (f.endpoint i).connected.toList

def broadcast (f : Fabric) (i : Nat) (protocol : Protocol) (payload : Bytes) : Fabric :=
  (f.connected i).foldl (fun f p => (f.send i p protocol payload).2) f

/-- Sets the addresses that an endpoint dials. Only those that name a peer can be reached. -/
def setBootstrap (f : Fabric) (i : Nat) (addresses : List Multiaddr) : Fabric :=
  f.update i ({ · with bootstrap := addresses.filterMap Multiaddr.peer? })

/-- Connects an endpoint to the peers it dials, as far as they can be reached. -/
def bootstrap (f : Fabric) (i : Nat) : Fabric :=
  let e := f.endpoint i
  e.bootstrap.foldl (fun f p => (f.connect e.peer p).2) f

/-- Closes an endpoint, once, with all its connections and streams. -/
def close (f : Fabric) (i : Nat) : Fabric :=
  let e := f.endpoint i
  if e.isClosed then f
  else
    let f := f.update i ({ · with isClosed := true })
    let f := (f.connected i).foldl (fun f p => f.disconnect e.peer p) f
    f.release fun pipe => pipe.sender = i

/-- Whether a notice tells the service of an endpoint of a change of a connection. -/
def serviceEvent? (i : Nat) : Notice → Option ConnectionEvent
  | .connection j .service e => if j = i then some e else none
  | _ => none

/-- Takes out the changes of connections that the service of an endpoint must be told of. -/
def takeEvents (f : Fabric) (i : Nat) : List ConnectionEvent × Fabric :=
  (f.notices.filterMap (serviceEvent? i),
    { f with notices := f.notices.filter fun n => (serviceEvent? i n).isNone })

def transport (i : Nat) (limit : Nat) : Transport Fabric where
  localPeer f := (f.endpoint i).peer
  connected f := f.connected i
  listening f := [(f.endpoint i).address]
  send p c payload f := f.send i p c.protocol payload
  accept c f := f.accept i c.protocol (.service limit)
  watch f := f.watch i .service
  setBootstrap addresses f := f.setBootstrap i addresses
  bootstrap f := let (events, f) := (f.bootstrap i).takeEvents i; ((.ok (), events), f)
  close f := let (events, f) := (f.close i).takeEvents i; ((.ok (), events), f)

end Fabric

end ChainPeer
