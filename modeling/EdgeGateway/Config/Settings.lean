import EdgeGateway.Config.Section
import EdgeGateway.Fault
import EdgeGateway.Toml.Document

/-!
# Settings

The settings of a gateway come from a TOML file with two sections and from the command line, which
has the last word. The node number of the gateway is that of its links as well. All times are in
milliseconds.
-/

namespace EdgeGateway

open Config (Section)

/-- What the links to the backend need to know. -/
structure LinkSettings where
  /-- The node number on every frame. -/
  nid : UInt32 := 1
  /-- Where the backend listens. -/
  address : String := "127.0.0.1:9100"
  links : Nat := 10
  /-- The number of workers that handle frames, for each link. -/
  workers : Nat := 4
  outboundCapacity : Nat := 4096
  inboundCapacity : Nat := 4096
  /-- The pause between a failure and the next attempt. -/
  reconnectInterval : Nat := 3000
  keepalivePeriod : Nat := 30000
  user : String := "imx"
  password : String := ""
  deriving Repr, DecidableEq

namespace LinkSettings

/-- The time between two liveness questions, which is never 0. -/
def keepaliveInterval (s : LinkSettings) : Nat := max s.keepalivePeriod 1

/-- The settings that a section holds. -/
def ofSection? (s : Section) : Option LinkSettings := do
  let nid ← s.number 0 "nid" 32 1
  let address ← s.text 1 "addr" "127.0.0.1:9100"
  let links ← s.number 2 "link_num" 64 10
  let workers ← s.number 3 "worker_num" 64 4
  let outboundCapacity ← s.number 4 "send_queue_len" 64 4096
  let inboundCapacity ← s.number 5 "recv_queue_len" 64 4096
  let reconnectInterval ← s.number 6 "reconnect_interval_ms" 64 3000
  let keepalivePeriod ← s.number 7 "keepalive_interval_ms" 64 30000
  let user ← s.text 8 "usr" "imx"
  let password ← s.text 9 "passwd" ""
  return { nid := .ofNat nid, address, links, workers, outboundCapacity, inboundCapacity,
           reconnectInterval, keepalivePeriod, user, password }

end LinkSettings

/-- What a gateway needs to know. -/
structure Settings where
  nid : UInt32
  /-- The address to listen at. -/
  bind : String
  port : UInt16
  /-- The path at which clients connect. -/
  path : String
  maxConnections : Nat
  sendCapacity : Nat
  pingInterval : Nat
  writeTimeout : Nat
  evictionCapacity : Nat
  evictionDelay : Nat
  shards : Nat
  /-- The time between two liveness reports, 0 for none. -/
  reportInterval : Nat
  link : LinkSettings
  deriving Repr, DecidableEq

/-- What the command line sets. -/
structure Overrides where
  port : Option UInt16 := none
  nid : Option UInt32 := none
  backend : Option String := none

/-- What stands at a path. -/
inductive FileContent where
  | missing
  | directory
  | bytes (b : List UInt8)

namespace Settings

/-- The milliseconds of a number of seconds. -/
def seconds (n : Nat) : Nat := n * 1000

/-- The settings that the two sections hold. Capacities, the ping interval and the write timeout are
at least one, whatever the file says. -/
def ofSections? (g link : Section) : Option Settings := do
  let nid ← g.number 0 "nid" 32 1
  let bind ← g.text 1 "bind" "0.0.0.0"
  let port ← g.number 2 "port" 16 8080
  let path ← g.text 3 "path" "/im"
  let maxConnections ← g.number 4 "max_connections" 64 100000
  let sendCapacity ← g.number 5 "send_queue_len" 64 1024
  let ping ← g.number 6 "ping_interval_secs" 64 30
  let write ← g.number 7 "write_timeout_secs" 64 10
  let evictionCapacity ← g.number 8 "kick_queue_len" 64 4096
  let delay ← g.number 9 "kick_delay_secs" 64 1
  let shards ← g.number 10 "router_shards" 64 64
  let report ← g.number 11 "report_interval_secs" 64 5
  let link ← LinkSettings.ofSection? link
  return {
    nid := .ofNat nid, bind, port := .ofNat port, path, maxConnections
    sendCapacity := max sendCapacity 1
    pingInterval := seconds (max ping 1)
    writeTimeout := seconds (max write 1)
    evictionCapacity := max evictionCapacity 1
    evictionDelay := seconds delay
    shards := max shards 1
    reportInterval := seconds report
    link := { link with nid := .ofNat nid } }

/-- The settings in a file's table. -/
def ofEntries? (file : Toml.Entries) : Option Settings := do
  ofSections? (← Section.ofKey? file "gateway") (← Section.ofKey? file "forwarder")

/-- The settings in a file's text. -/
def ofText? (s : String) : Option Settings := do ofEntries? (← Toml.parse? s)

/-- Applies what the command line sets. -/
def override (s : Settings) (o : Overrides) : Settings where
  nid := o.nid.getD s.nid
  bind := s.bind
  port := o.port.getD s.port
  path := s.path
  maxConnections := s.maxConnections
  sendCapacity := s.sendCapacity
  pingInterval := s.pingInterval
  writeTimeout := s.writeTimeout
  evictionCapacity := s.evictionCapacity
  evictionDelay := s.evictionDelay
  shards := s.shards
  reportInterval := s.reportInterval
  link := { s.link with nid := o.nid.getD s.link.nid, address := o.backend.getD s.link.address }

/-- The path with a leading tilde and slash replaced by the home directory. -/
def expandHome (home : Option String) (path : String) : String :=
  match home, path.toList with
  | some home, '~' :: '/' :: rest => home ++ "/" ++ String.ofList rest
  | _, _ => path

/-- Reads settings from the file at `path`, if a path is given and the file exists, and applies what
the command line sets. -/
def load (read : String → FileContent) (home : Option String) (path : Option String)
    (o : Overrides) : Except Fault Settings := do
  let content := (path.map fun p ↦ read (expandHome home p)).getD .missing
  let text ← match content with
    | .missing => pure ""
    | .directory => throw (.input .isDirectory)
    | .bytes b =>
      match String.fromUTF8? b.toByteArray with
      | some s => pure s
      | none => throw (.input .invalidData)
  match ofText? text with
  | some s => return s.override o
  | none => throw .configuration

/-- Where the gateway listens. -/
def listenAddress (s : Settings) : String := s!"{s.bind}:{s.port}"

end Settings

end EdgeGateway
