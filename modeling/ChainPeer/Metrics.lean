/-!
# Metrics

What a node counts, and the published name and description of each count.
-/

namespace ChainPeer

structure Metrics where
  peers : Nat := 0
  framesReceived : Nat := 0
  messagesSent : Nat := 0
  decodeErrors : Nat := 0
  streamErrors : Nat := 0
  handshakeFailures : Nat := 0
  unsolicitedResponses : Nat := 0
  gossipDuplicates : Nat := 0
deriving DecidableEq

/-- Whether a published count can fall. -/
inductive MetricKind where
  | gauge
  | counter
deriving DecidableEq

def MetricKind.name : MetricKind → String
  | gauge => "gauge"
  | counter => "counter"

structure Metric where
  name : String
  help : String
  kind : MetricKind
  value : Nat

/-- All counts as published, in the order of their names. -/
def Metrics.published (m : Metrics) : List Metric := [
  ⟨"blocknet_net_decode_errors_total", "Frames dropped on decode failure", .counter,
    m.decodeErrors⟩,
  ⟨"blocknet_net_frames_received_total", "Frames read off inbound streams", .counter,
    m.framesReceived⟩,
  ⟨"blocknet_net_gossip_duplicates_total", "Duplicate gossip messages dropped", .counter,
    m.gossipDuplicates⟩,
  ⟨"blocknet_net_handshake_failures_total", "Rejected handshakes", .counter,
    m.handshakeFailures⟩,
  ⟨"blocknet_net_messages_sent_total", "Messages sent to peers", .counter, m.messagesSent⟩,
  ⟨"blocknet_net_peers", "Connected peers", .gauge, m.peers⟩,
  ⟨"blocknet_net_stream_errors_total", "Streams closed on framing or handler error", .counter,
    m.streamErrors⟩,
  ⟨"blocknet_net_unsolicited_responses_total", "Block responses with untracked ids", .counter,
    m.unsolicitedResponses⟩]

end ChainPeer
