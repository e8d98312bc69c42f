import ChainPeer.Multiaddr.Ip
import ChainPeer.Multiaddr.Multibase
import ChainPeer.PeerId
import ChainPeer.Text.Percent
import ChainPeer.Text.UpperCase

/-!
# Multiaddresses

An address is a path of components, each a protocol and, for most protocols, a value of its own
form. The text of an address names each component after a slash and its value after another.
-/

namespace ChainPeer

/-- One component of an address. -/
inductive AddrPart where
  | plain (name : String)
  | text (name value : String)
  | port (name : String) (value : UInt16)
  | ip4 (octets : List UInt8)
  | ip6 (groups : List Nat)
  | ipcidr (bits : UInt8)
  | memory (port : UInt64)
  | p2p (peer : PeerId)
  | certhash (digest : Multihash)
  | onion (name : String) (host : Bytes) (port : UInt16)
  | garlic64 (host : Bytes)
  | garlic32 (host : Bytes)
  | webSocket (secure : Bool) (path : String)
deriving DecidableEq

abbrev Multiaddr := List AddrPart

namespace AddrPart

open Text

/-- The protocols without a value. -/
def plainNames : List String := [
  "http", "https", "noise", "p2p-circuit", "p2p-stardust", "p2p-webrtc-direct", "p2p-webrtc-star",
  "p2p-websocket-star", "quic", "quic-v1", "tls", "udt", "utp", "webrtc", "webrtc-direct",
  "webtransport"]

/-- The protocols with any text as their value. -/
def textNames : List String := [
  "dns", "dns4", "dns6", "dnsaddr", "ip6zone", "sni", "unix"]

/-- The protocols with a port as their value. -/
def portNames : List String := ["dccp", "sctp", "tcp", "udp"]

/-- Reads an onion host of `length` bytes, in letters of any case, and its port, which is not
zero. -/
def onion? (name : String) (length : Nat) (value : String) : Option AddrPart := do
  let [host, numeral] := value.splitOn ":" | none
  let number ← unsigned? UInt16.size numeral.toList
  let host := upperCase host.toList
  guard (number ≠ 0 ∧ host.length * 5 = length * 8)
  let bytes ← Radix.base32.upper.decodePadded? host
  pure (.onion name (bytes ++ List.replicate (length - bytes.length) 0) (UInt16.ofNat number))

/-- Reads the text of a percent-encoded path. -/
def path? (value : String) : Option String :=
  let bytes := Percent.decode value.toUTF8.toList
  String.fromUTF8? ⟨bytes.toArray⟩

/-- Reads the value of a garlic address in base 64. -/
def garlic64? (value : String) : Option AddrPart := do
  guard (516 ≤ value.utf8ByteSize ∧ value.utf8ByteSize ≤ 616)
  let text := value.toList.map fun | '-' => '+' | '~' => '/' | c => c
  let bytes ← Radix.base64.decode? text
  pure (.garlic64 bytes)

/-- Reads the value of a garlic address in base 32, in letters of either case. -/
def garlic32? (value : String) : Option AddrPart := do
  guard (55 ≤ value.utf8ByteSize ∨ value.utf8ByteSize = 52)
  let bytes ← Radix.base32.decode? (value.toList.map Char.toLower)
  pure (.garlic32 bytes)

def ofValue? (name value : String) : Option AddrPart :=
  if name ∈ textNames then some (.text name value)
  else if name ∈ portNames then
    (unsigned? UInt16.size value.toList).map fun n => .port name (UInt16.ofNat n)
  else
    match name with
    | "ip4" => (Ip.ofText4? value.toList).map .ip4
    | "ip6" => (Ip.ofText6? value.toList).map .ip6
    | "ipcidr" => (unsigned? UInt8.size value.toList).map fun n => .ipcidr (UInt8.ofNat n)
    | "memory" => (unsigned? UInt64.size value.toList).map fun n => .memory (UInt64.ofNat n)
    | "p2p" | "ipfs" => (PeerId.ofText? value.toList).map .p2p
    | "certhash" => ((Multibase.decode? value.toList).bind Multihash.ofBytes?).map .certhash
    | "onion" => onion? "onion" 10 value
    | "onion3" => onion? "onion3" 35 value
    | "garlic64" => garlic64? value
    | "garlic32" => garlic32? value
    | "x-parity-ws" => (path? value).map (.webSocket false)
    | "x-parity-wss" => (path? value).map (.webSocket true)
    | _ => none

/-- The component that a name alone stands for. -/
def ofName? (name : String) : Option AddrPart :=
  match name with
  | "ws" => some (.webSocket false "/")
  | "wss" => some (.webSocket true "/")
  | _ => if name ∈ plainNames then some (.plain name) else none

def pathText (path : String) : String :=
  String.ofList (Percent.encode path.toUTF8.toList)

def render : AddrPart → String
  | plain name => s!"/{name}"
  | text name value => s!"/{name}/{value}"
  | port name value => s!"/{name}/{value.toNat}"
  | ip4 octets => s!"/ip4/{Ip.text4 octets}"
  | ip6 groups => s!"/ip6/{Ip.text6 groups}"
  | ipcidr bits => s!"/ipcidr/{bits.toNat}"
  | memory number => s!"/memory/{number.toNat}"
  | p2p peer => s!"/p2p/{peer.text}"
  | certhash digest => s!"/certhash/{String.ofList (Multibase.encodeUrl digest.toBytes)}"
  | onion name host number =>
    s!"/{name}/{String.ofList (Radix.base32.encodePadded host)}:{number.toNat}"
  | garlic64 host =>
    let text := (Radix.base64.encode host).map fun | '+' => '-' | '/' => '~' | c => c
    s!"/garlic64/{String.ofList text}"
  | garlic32 host => s!"/garlic32/{String.ofList (Radix.base32.encode host)}"
  | webSocket secure path =>
    let name := if secure then "wss" else "ws"
    if path = "/" then s!"/{name}" else s!"/x-parity-{name}/{pathText path}"

end AddrPart

namespace Multiaddr

def ofParts? : List String → Option Multiaddr
  | [] => some []
  | name :: rest =>
    match AddrPart.ofName? name with
    | some part => (ofParts? rest).map (part :: ·)
    | none =>
      match rest with
      | [] => none
      | value :: rest => do
        let part ← AddrPart.ofValue? name value
        let parts ← ofParts? rest
        pure (part :: parts)

/-- Reads an address. The empty text is the address without components. -/
def ofText? (text : String) : Option Multiaddr :=
  match text.splitOn "/" with
  | "" :: parts => ofParts? parts
  | _ => none

def render (a : Multiaddr) : String :=
  String.join (a.map AddrPart.render)

/-- The first peer that an address names. -/
def peer? (a : Multiaddr) : Option PeerId :=
  a.findSome? fun
    | .p2p peer => some peer
    | _ => none

end Multiaddr

end ChainPeer
