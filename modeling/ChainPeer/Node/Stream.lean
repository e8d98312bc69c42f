import ChainPeer.Node.Announcing
import ChainPeer.Node.Gossip
import ChainPeer.Node.Syncing

/-!
# Streams of frames

A peer sends the payloads of one channel as the frames of one stream. Each frame is decoded and
handled in the state that the frames before it have left. A payload that is not a message is
dropped; a stream that cannot be read further, or whose message could not be handled, is given up
and reported.
-/

namespace ChainPeer

inductive StreamEnd where
  | closed
  | failed
deriving DecidableEq

namespace Site

variable {σ : Type} (w : World σ)

/-- Handles a message that a peer sent on a channel. Messages of other channels are ignored. -/
def handle (c : Channel) (p : PeerId) (m : Message) (s : Site σ) :
    Except HandlerError Unit × Site σ :=
  match c, m with
  | .blockAnnounces, .handshake h => s.onHandshake w p h
  | .blockAnnounces, .announce a => s.onAnnounce w p a
  | .sync, .request r => s.onRequest w p r
  | .sync, .response r => s.onResponse w p r
  | .legacy, .status m => s.onStatus w p m
  | .legacy, .transactions m => (.ok (), s.onGossip w p (.transactions m))
  | _, _ => (.ok (), s)

/-- Decodes and handles a payload; one that is not a message is counted and dropped. -/
def onPayload (c : Channel) (p : PeerId) (payload : Bytes) (s : Site σ) :
    Except HandlerError Unit × Site σ :=
  let s := s.update (·.count fun m => { m with framesReceived := m.framesReceived + 1 })
  match s.node.decode c p payload with
  | .error _ => (.ok (), s.update (·.count fun m => { m with decodeErrors := m.decodeErrors + 1 }))
  | .ok m => s.handle w c p m

/-- Goes on with what was read off a stream: says how the stream ended if it did. -/
def onFrame (c : Channel) (p : PeerId) (frame : Except FrameError (Option Bytes)) (s : Site σ) :
    Option StreamEnd × Site σ :=
  match frame with
  | .error e => (some .failed, s.update (·.report c p (.frame e)))
  | .ok none => (some .closed, s)
  | .ok (some payload) =>
    match s.onPayload w c p payload with
    | (.ok (), s) => (none, s)
    | (.error e, s) => (some .failed, s.update (·.report c p (.handler e)))

def readStream (c : Channel) (p : PeerId) (source : ByteSource) (s : Site σ) :
    StreamEnd × Site σ :=
  match _h : source.readFrame s.node.config.maxFrameLength with
  | (.ok (some payload), rest) =>
    match s.onFrame w c p (.ok (some payload)) with
    | (some ending, s) => (ending, s)
    | (none, s) => readStream c p rest s
  | (frame, _) =>
    match s.onFrame w c p frame with
    | (some ending, s) => (ending, s)
    | (none, s) => (.closed, s)
termination_by source.remaining
decreasing_by exact ByteSource.remaining_readFrame_some _h

end Site

end ChainPeer
