import EdgeGateway.Client.Upgrade
import EdgeGateway.Gateway.Run
import EdgeGateway.Scenario.Backend
import EdgeGateway.Scenario.Client

/-!
# A gateway among clients

A gateway with scripted clients, a scripted backend and a clock. After every act everything works
until it has to wait.
-/

namespace EdgeGateway

/-- What becomes of an attempt to connect. -/
inductive ConnectOutcome where
  | opened
  /-- The gateway serves another path. -/
  | notFound
  /-- Nobody listens. -/
  | refused
  deriving Repr, DecidableEq

/-- A gateway, its clients and its backend. -/
structure GatewayScene where
  gateway : Gateway
  backend : Backend := {}
  /-- The clients in the order in which they tried to connect. -/
  clients : List Client := []

namespace GatewayScene

/-- Makes a move of the gateway, if it is possible. -/
def move (m : Gateway.Move) (s : GatewayScene) : Option GatewayScene :=
  (s.gateway.move? m).map fun gateway ↦ { s with gateway }

/-- A task of the links as a task of the scene. -/
def lift (task : Pool Downlink → Option (Pool Downlink))
    (s : GatewayScene) : Option GatewayScene :=
  (task s.gateway.pool).map fun pool ↦ { s with gateway := { s.gateway with pool } }

/-- The client of a connection. -/
def client? (s : GatewayScene) (cid : UInt64) : Option Client := s.clients.find? (·.cid = some cid)

/-- Changes the client of a connection. -/
def modifyClient (s : GatewayScene) (cid : UInt64) (f : Client → Client) : GatewayScene :=
  { s with clients := s.clients.map fun c ↦ if c.cid = some cid then f c else c }

/-! ### The tasks of a connection with its client -/

/-- The listener hears something. The socket itself answers pings, and takes nothing new once the
client has asked for its end. -/
def hear (cid : UInt64) (s : GatewayScene) : Option GatewayScene := do
  let (socket, _) ← s.gateway.socket? cid
  let s ← s.move (.hear cid)
  match socket.inbox.head? with
  | some (.ping data) => return s.modifyClient cid fun c ↦ c.put (.pong data)
  | some .close => return s.modifyClient cid fun c ↦ { c with excused := true }
  | _ => return s

/-- What is under way arrives, if somebody at the gateway drives the socket. -/
def flush (cid : UInt64) (s : GatewayScene) : Option GatewayScene := do
  let (socket, _) ← s.gateway.socket? cid
  let c ← s.client? cid
  if c.stalled ∨ c.underway = [] then none
  else match socket.listener, socket.speaker with
    | .listening, _ | _, .writing _ | _, .closing _ => return s.modifyClient cid Client.arrive
    | _, _ => none

/-- Writing is done once everything has arrived, and fails if the client has vanished. -/
def finishWrite (cid : UInt64) (s : GatewayScene) : Option GatewayScene := do
  let c ← s.client? cid
  if c.vanished then s.move (.failWrite cid)
  else if c.stalled then none
  else s.move (.written cid)

/-- The speaker gives something to the socket. -/
def speak (cid : UInt64) (m : Gateway.Move) (s : GatewayScene) : Option GatewayScene := do
  let s ← s.move m
  let (socket, _) ← s.gateway.socket? cid
  let c ← s.client? cid
  if c.excused then s.move (.failWrite cid)
  else match socket.handed.getLast? with
    | some o => return s.modifyClient cid fun c ↦ c.put o.event
    | none => return s

/-- The connection is let go, and with it the socket. -/
def finishSocket (cid : UInt64) (s : GatewayScene) : Option GatewayScene := do
  let s ← s.move (.finishSocket cid)
  return s.modifyClient cid fun c ↦ c.finish .cutOff

/-- What the listener of a connection does. -/
def listenerTask (cid : UInt64) : GatewayScene → Option GatewayScene :=
  Schedule.first [move (.resumeListener cid), move (.heed cid), hear cid]

/-- What the speaker of a connection does. -/
def speakerTask (cid : UInt64) : GatewayScene → Option GatewayScene :=
  Schedule.first [
    flush cid,
    finishWrite cid,
    move (.giveUp cid),
    speak cid (.takeMessage cid),
    speak cid (.ping cid),
    speak cid (.sayFarewell cid)]

/-- What happens when the tasks of a connection end. -/
def supervisorTask (cid : UInt64) : GatewayScene → Option GatewayScene :=
  Schedule.first [move (.closeSocket cid), finishSocket cid]

/-! ### All tasks -/

/-- What a worker does. -/
def workerTask (i w : Nat) : GatewayScene → Option GatewayScene :=
  Schedule.first [
    move (.resumeCall i w),
    move (.link (.stopWorker i w)),
    move (.fetchCall i w)]

/-- What the gateway's own tasks do. -/
def ownTasks : List (GatewayScene → Option GatewayScene) := [
  move (.sendFarewell 0),
  Schedule.first [move .sweepFinish, move .sweepTake, move .sweepExpire],
  Schedule.first [move .stopReporter, move .resumeReporter, move .report],
  Schedule.first [move .drain, move .complete]]

/-- All tasks, in the order in which messages of the backend pass them. -/
def tasks (s : GatewayScene) : List (GatewayScene → Option GatewayScene) :=
  let pool := s.gateway.pool
  let links := List.range pool.links.length
  let cids := s.gateway.sockets.keys
  [lift (Backend.tickerTask s.gateway.now)] ++
  links.map (fun i ↦ lift (s.backend.linkTask s.gateway.now i)) ++
  links.map (fun i ↦ lift (Backend.readerTask i)) ++
  links.flatMap (fun i ↦ (Backend.workersOf pool i).map fun w ↦ workerTask i w) ++
  links.map (fun i ↦ lift (s.backend.writerTask s.gateway.now i)) ++
  cids.map listenerTask ++
  cids.map speakerTask ++
  cids.map supervisorTask ++
  ownTasks

/-- Lets everything work until it has to wait. -/
def settle (s : GatewayScene) : GatewayScene := Schedule.settle tasks Schedule.patience s

/-! ### Acts -/

/-- Where a gateway listens whose own address is none. -/
def defaultAddress : SocketAddress := ⟨.four 127 0 0 1, 8080⟩

/-- A gateway that has just been started, with a backend that listens or does not. -/
def start (settings : Settings) (listening : Bool) : GatewayScene :=
  { gateway := (Gateway.fresh settings).start
      ((SocketAddress.ofText? settings.listenAddress).getD defaultAddress)
    backend := { listening } : GatewayScene }.settle

/-- Does something to the gateway. -/
def act (s : GatewayScene) (f : Gateway → Gateway) : GatewayScene :=
  { s with gateway := f s.gateway }.settle

/-- Does something to the links. -/
def actPool (s : GatewayScene) (f : Pool Downlink → Pool Downlink) : GatewayScene :=
  s.act fun g ↦ { g with pool := f g.pool }

/-- Tells the backend something. -/
def direct (s : GatewayScene) (f : Backend → Backend) : GatewayScene :=
  { s with backend := f s.backend }.settle

/-- The backend closes both directions of a connection. -/
def drop (s : GatewayScene) (wire : Nat) : GatewayScene :=
  { s with backend := s.backend.deafen wire }.actPool fun p ↦ p.finishInflow wire

/-- Another client tries to connect, with a request for the path of the gateway or another one. -/
def connect (s : GatewayScene) (target : Option String) : ConnectOutcome × GatewayScene :=
  let turnedAway (c : Client) : GatewayScene := { s with clients := s.clients ++ [c] }
  if s.gateway.phase ≠ .running then (.refused, turnedAway { gone := true })
  else match s.gateway.settings.upgrade (target.getD s.gateway.settings.path) with
    | .notFound => (.notFound, turnedAway { gone := true })
    | .accepted =>
      match s.gateway.open? with
      | none => (.opened, turnedAway (Client.finish {} .cutOff))
      | some (cid, gateway) =>
        let client : Client := { cid := some cid }
        (.opened, { s with gateway, clients := s.clients ++ [client] }.settle)

/-- A client sends something. It cannot once it has seen the end of its socket. -/
def say (s : GatewayScene) (client : Nat) (e : SocketEvent) : Option GatewayScene := do
  let c ← s.clients[client]?
  let cid ← c.cid
  if c.gone then none
  else
    let s := if e = .close then s.modifyClient cid fun c ↦ { c with parting := true } else s
    return s.act fun g ↦ g.arrive cid e

/-- A client leaves without a word. -/
def abort (s : GatewayScene) (client : Nat) : GatewayScene :=
  match s.clients[client]?.bind (·.cid) with
  | some cid =>
    (s.modifyClient cid Client.vanish).act fun g ↦ g.arrive cid (.failed .closedNormally)
  | none => s

/-- Holds up what is written for a client, or lets it arrive. -/
def stall (s : GatewayScene) (client : Nat) (on : Bool) : GatewayScene :=
  { s with clients := s.clients.modify client fun c ↦ { c with stalled := on } }.settle

/-- Lets time pass. -/
def advance (s : GatewayScene) (ms : Nat) : GatewayScene :=
  Clock.pass (fun s : GatewayScene ↦ s.gateway.instants)
    (fun t s ↦ { s with gateway.hub.now := t }.settle) (s.gateway.now + ms) s.gateway.now s

/-- Reports what has reached the backend, and what the clients have seen. -/
def report (s : GatewayScene) : BackendReport × List (Nat × List ClientEvent) × GatewayScene :=
  let (r, backend) := s.backend.report s.gateway.pool
  (r, (s.clients.zipIdx.filter fun (c, _) ↦ !c.seen.isEmpty).map fun (c, i) ↦ (i, c.seen),
    { s with backend, clients := s.clients.map fun c ↦ { c with seen := [] } })

end GatewayScene

end EdgeGateway
