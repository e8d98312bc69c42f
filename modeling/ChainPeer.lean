import ChainPeer.Cluster
import ChainPeer.LogFormat
import ChainPeer.Main
import ChainPeer.Storage
import ChainPeer.Proofs.Gate
import ChainPeer.Proofs.Grammar
import ChainPeer.Proofs.Greeting
import ChainPeer.Proofs.InFlight
import ChainPeer.Proofs.Link
import ChainPeer.Proofs.Mesh
import ChainPeer.Proofs.Peering
import ChainPeer.Proofs.Presence
import ChainPeer.Proofs.Wire
import ChainPeer.Proofs.Replay
import ChainPeer.Proofs.Once
import ChainPeer.Proofs.Connections
import ChainPeer.Proofs.Arrival
import ChainPeer.Proofs.Decoding
import ChainPeer.Proofs.Delivery
import ChainPeer.Proofs.Custody
import ChainPeer.Proofs.Blame
import ChainPeer.Proofs.Window
import ChainPeer.Proofs.Departure
import ChainPeer.Proofs.Tally
import ChainPeer.Proofs.HashText
import ChainPeer.Proofs.Ending
