import ChainPeer.Message
import ChainPeer.Multiaddr
import ChainPeer.Text.Quoted
import ChainPeer.Toml.Document

/-!
# Configuration

The settings of a node, read from the table `network` of a TOML document. A setting that is not
given keeps its default; the limits must not be zero, and every bootstrap address must be one.
-/

namespace ChainPeer

/-- The settings of a node. Times are in milliseconds, lengths in bytes. -/
structure Config where
  dataDir : String := "./data"
  bootstrap : List String := []
  noBootstrap : Bool := false
  roles : Roles := Roles.authority
  refreshInterval : Nat := 10000
  maxFrameLength : Nat := 16777216
  maxMessageLength : Nat := 16777216
  errorCapacity : Nat := 1024
  protocolVersion : UInt32 := 7
  minSupportedVersion : UInt32 := 0
deriving DecidableEq

inductive ConfigError where
  | unreadable (reason : String)
  | malformed
  | badAddress (text : String)
  | outOfRange (setting : String)
deriving DecidableEq

def ConfigError.message : ConfigError → String
  | unreadable reason => s!"read config: {reason}"
  | malformed => "parse config"
  | badAddress text => s!"invalid multiaddr {Text.quoted text}"
  | outOfRange setting => s!"invalid value for {setting}"

namespace Config

open Toml

def default : Config := {}

def text? : Value → Option String
  | .string s => some s
  | _ => none

def texts? (v : Value) : Option (List String) :=
  v.items?.bind (List.mapM text?)

def truth? : Value → Option Bool
  | .boolean b => some b
  | _ => none

/-- The value as a number below a bound. -/
def number? (bound : Nat) : Value → Option Nat
  | .integer n => if 0 ≤ n ∧ n < bound then some n.toNat else none
  | _ => none

/-- A setting: its name, and how a value for it is taken over. -/
structure Setting where
  name : String
  set : Config → Value → Option Config

/-- All settings, in the order in which an array lists them. -/
def settings : List Setting := [
  ⟨"data_dir", fun c v => (text? v).map fun s => { c with dataDir := s }⟩,
  ⟨"bootstrap", fun c v => (texts? v).map fun s => { c with bootstrap := s }⟩,
  ⟨"no_bootstrap", fun c v => (truth? v).map fun b => { c with noBootstrap := b }⟩,
  ⟨"roles", fun c v => (number? UInt8.size v).map fun n => { c with roles := UInt8.ofNat n }⟩,
  ⟨"refresh_interval_ms", fun c v =>
    (number? UInt64.size v).map fun n => { c with refreshInterval := n }⟩,
  ⟨"max_frame_len", fun c v =>
    (number? UInt64.size v).map fun n => { c with maxFrameLength := n }⟩,
  ⟨"max_message_len", fun c v =>
    (number? UInt64.size v).map fun n => { c with maxMessageLength := n }⟩,
  ⟨"error_channel_capacity", fun c v =>
    (number? UInt64.size v).map fun n => { c with errorCapacity := n }⟩,
  ⟨"protocol_version", fun c v =>
    (number? UInt32.size v).map fun n => { c with protocolVersion := UInt32.ofNat n }⟩,
  ⟨"min_supported_version", fun c v =>
    (number? UInt32.size v).map fun n => { c with minSupportedVersion := UInt32.ofNat n }⟩]

/-- The configuration with the settings that a table names. Other names are of no concern. -/
def ofEntries? (entries : List (String × Value)) : Option Config :=
  settings.foldlM (fun c s =>
    match lookup? s.name entries with
    | some v => s.set c v
    | none => some c) default

/-- The configuration with the settings that an array lists. -/
def ofItems? (items : List Value) : Option Config :=
  (settings.zip items).foldlM (fun c (s, v) => s.set c v) default

/-- The configuration in a value: a table by names or an array by position. A date-time counts as
a table without any of the names. -/
def ofValue? (v : Value) : Option Config :=
  match v with
  | .table _ entries => ofEntries? entries
  | .dateTime => some default
  | v => v.items?.bind ofItems?

/-- The bootstrap addresses, or the first text that is not an address. -/
def addresses (c : Config) : Except ConfigError (List Multiaddr) :=
  c.bootstrap.mapM fun text =>
    match Multiaddr.ofText? text with
    | some a => .ok a
    | none => .error (.badAddress text)

/-- Checks the limits, then the bootstrap addresses. -/
def validate (c : Config) : Except ConfigError Unit :=
  if c.refreshInterval = 0 then .error (.outOfRange "refresh_interval_ms")
  else if c.maxFrameLength = 0 then .error (.outOfRange "max_frame_len")
  else if c.maxMessageLength = 0 then .error (.outOfRange "max_message_len")
  else if c.errorCapacity = 0 then .error (.outOfRange "error_channel_capacity")
  else c.addresses.map fun _ => ()

def ofText (text : String) : Except ConfigError Config :=
  match Toml.ofText? text with
  | none => .error .malformed
  | some root =>
    let config? := match lookup? "network" root with
      | none => some default
      | some v => ofValue? v
    match config? with
    | none => .error .malformed
    | some c => c.validate.map fun _ => c

def ofBytes (bytes : Bytes) : Except ConfigError Config :=
  match String.fromUTF8? ⟨bytes.toArray⟩ with
  | none => .error (.unreadable "stream did not contain valid UTF-8")
  | some text => ofText text

end Config

end ChainPeer
