import EdgeGateway.Gateway.Downlink
import EdgeGateway.Gateway.Socket
import EdgeGateway.Link.Pool
import EdgeGateway.Net.Address

/-!
# The gateway

A gateway is its tables, its links to the backend, the tasks of every connection, and a few tasks of
its own. Whatever any of them can do next is a move, which says when it is possible; a run of the
gateway is a sequence of moves in any order. A move takes a task from one point at which it may wait
to the next.

Time, what clients send, what the backend writes, and whether writing and dialling succeed are moves
of the world.
-/

namespace EdgeGateway

/-- What the task that reports the gateway's liveness is doing. -/
inductive Reporter where
  /-- It has not started, or was never asked for. -/
  | off
  | waiting (due : Nat)
  /-- A report waits for room in the outbound queue; the next is due at `due`. -/
  | sending (ticket due : Nat)
  | ended
  deriving Repr, DecidableEq

/-- How far a gateway has come. -/
inductive GatewayPhase where
  | unstarted
  | running
  /-- It shuts down, and waits for the sweeper and the reporter. -/
  | stopping
  /-- It shuts down, and waits for the links. -/
  | draining
  | stopped
  deriving Repr, DecidableEq

/-- A gateway. -/
structure Gateway where
  settings : Settings
  hub : Hub
  pool : Pool Downlink
  sockets : Table UInt64 Socket := .empty
  reporter : Reporter := .off
  phase : GatewayPhase := .unstarted
  /-- Where it listens, once it has been started. -/
  address : Option SocketAddress := none

namespace Gateway

/-- A gateway that has not been started. -/
def fresh (s : Settings) : Gateway where
  settings := s
  hub := .empty s.nid s.shards s.evictionCapacity s.evictionDelay
  pool := .fresh s.link

/-- The instant, which is that of the tables. -/
def now (g : Gateway) : Nat := g.hub.now

/-- Starts the gateway: it launches its links, its sweeper and its reporter, and listens. -/
def start (g : Gateway) (address : SocketAddress) : Gateway :=
  if g.phase = .unstarted then
    { g with
      address
      pool := g.pool.launch g.now
      hub := { g.hub with sweeper := g.hub.sweeper.start }
      reporter := if g.settings.reportInterval = 0 then .off else .waiting g.now
      phase := .running }
  else g

/-- Changes the socket of a connection. -/
def modifySocket (g : Gateway) (cid : UInt64) (f : Socket → Socket) : Gateway :=
  { g with sockets := g.sockets.modify cid f }

/-- The socket of a connection that has not been dealt with, and the connection. -/
def socket? (g : Gateway) (cid : UInt64) : Option (Socket × Connection) := do
  let s ← g.sockets.get? cid
  let c ← g.hub.conns.find? cid
  if s.finished then none else return (s, c)

/-! ### Connections come and go -/

/-- A client connects. There is a new connection, unless there are as many as there may be. -/
def open? (g : Gateway) : Option (UInt64 × Gateway) :=
  if g.phase ≠ .running ∨ g.settings.maxConnections ≤ g.hub.conns.size then none
  else
    match g.hub.conns.create g.settings.sendCapacity with
    | (cid, conns) =>
      some (cid, { g with
        hub := { g.hub with conns := conns.register cid }
        sockets := g.sockets.insert cid { pingDue := g.now + g.settings.pingInterval } })

/-- A client sends something. -/
def arrive (g : Gateway) (cid : UInt64) (e : SocketEvent) : Gateway :=
  g.modifySocket cid fun s ↦ { s with inbox := s.inbox ++ [e] }

/-- One task of a connection has ended, so the connection is closed. -/
def closeSocket (g : Gateway) (cid : UInt64) : Option Gateway := do
  let (s, c) ← g.socket? cid
  if s.SomeEnded ∧ c.closed = false then
    return { g with hub := g.hub.modifyConn cid .close }
  else none

/-- Both tasks of a closed connection have ended, and it is let go. -/
def finishSocket (g : Gateway) (cid : UInt64) : Option Gateway := do
  let (s, c) ← g.socket? cid
  if s.AllEnded ∧ c.closed then
    return { g with hub := Closing.run g.hub cid }.modifySocket cid fun s ↦
      { s with finished := true }
  else none

/-! ### Listening to a client -/

/-- Puts the listener of a connection into another state. -/
def setListener (g : Gateway) (cid : UInt64) (l : Listener) : Gateway :=
  g.modifySocket cid fun s ↦ { s with listener := l }

/-- What a listener does once the connection's notice has been sent: it goes on when there is room
for the notice, and also when nobody takes notices any more. -/
def afterNotice (g : Gateway) (cid : UInt64) (ticket : Nat) : Gateway :=
  g.setListener cid
    (if g.hub.eviction ticket = .pending then .evicting ticket else .listening)

/-- What a listener does once its message has been passed on. -/
def afterForward (g : Gateway) (cid : UInt64) : AfterForward → Gateway
  | .proceed => g.setListener cid .listening
  | .logOut =>
    match (g.hub.modifyConn cid fun c ↦ c.setStatus .logout).evict cid with
    | (ticket, hub) => { g with hub }.afterNotice cid ticket

/-- A listener passes a message on. -/
def forward (g : Gateway) (cid : UInt64) (m : Message) (after : AfterForward) : Gateway :=
  match g.pool.send (g.pool.frame m.cmd m.bytes) with
  | (ticket, pool) =>
    if pool.outbound.delivery ticket = .accepted then { g with pool }.afterForward cid after
    else { g with pool }.setListener cid (.forwarding ticket after)

/-- A listener handles a message. -/
def onMessage (g : Gateway) (cid : UInt64) (c : Connection) (m : Message) : Gateway :=
  match Uplink.handle g.hub c m with
  | (hub, .proceed) | (hub, .failed _) => { g with hub }
  | (hub, .disconnect) => { g with hub }.setListener cid .ended
  | (hub, .forward m after) => { g with hub }.forward cid m after

/-- A listener hears the next thing that its client sent. -/
def hear (g : Gateway) (cid : UInt64) : Option Gateway := do
  let (s, c) ← g.socket? cid
  match s.listener, s.inbox with
  | .listening, e :: inbox =>
    let g := g.modifySocket cid fun s ↦ { s with inbox }
    match e.received? with
    | none => return g
    | some (.message data) =>
      match Packet.parse (H := SessionHeader) data with
      | .ok m => return g.onMessage cid c m
      | .error _ => return g.setListener cid .ended
    | some .closed | some (.broken _) => return g.setListener cid .ended
  | _, _ => none

/-- A listener hears that its connection is closed. -/
def heed (g : Gateway) (cid : UInt64) : Option Gateway := do
  let (s, c) ← g.socket? cid
  if s.listener = .listening ∧ c.closed then return g.setListener cid .ended else none

/-- A listener that waits for room goes on when there is some. -/
def resumeListener (g : Gateway) (cid : UInt64) : Option Gateway := do
  let (s, _) ← g.socket? cid
  match s.listener with
  | .forwarding ticket after =>
    if g.pool.outbound.delivery ticket = .accepted then return g.afterForward cid after else none
  | .evicting ticket =>
    if g.hub.eviction ticket = .pending then none else return g.setListener cid .listening
  | _ => none

/-! ### Speaking to a client -/

/-- Until when something that is given to a socket now has to be written. -/
def writeDeadline (g : Gateway) : Nat := g.now + g.settings.writeTimeout

/-- A speaker takes the next message off the queue. -/
def takeMessage (g : Gateway) (cid : UInt64) : Option Gateway := do
  let (s, c) ← g.socket? cid
  if s.speaker ≠ .idle then none
  else
    let (m, c) ← c.pop
    return { g with hub := { g.hub with conns := g.hub.conns.store c } }.modifySocket cid fun s ↦
      s.hand (.message m) (.writing g.writeDeadline)

/-- A speaker asks whether the client is still there. -/
def ping (g : Gateway) (cid : UInt64) : Option Gateway := do
  let (s, _) ← g.socket? cid
  if s.speaker = .idle ∧ s.pingDue ≤ g.now then
    return g.modifySocket cid fun s ↦
      { s.hand .ping (.writing g.writeDeadline) with
        pingDue := Clock.nextTick s.pingDue g.now g.settings.pingInterval }
  else none

/-- Nothing is queued and nothing will be, so the speaker says farewell. -/
def sayFarewell (g : Gateway) (cid : UInt64) : Option Gateway := do
  let (s, c) ← g.socket? cid
  if s.speaker = .idle ∧ c.closed ∧ c.queue = [] then
    return g.modifySocket cid fun s ↦ s.hand .close (.closing g.writeDeadline)
  else none

/-- A speaker ends, and what is queued is lost. -/
def endSpeaker (g : Gateway) (cid : UInt64) : Gateway :=
  { g with hub := g.hub.modifyConn cid .abandon }.modifySocket cid fun s ↦
    { s with speaker := .ended }

/-- What a speaker gave to the socket is written. -/
def written (g : Gateway) (cid : UInt64) : Option Gateway := do
  let (s, _) ← g.socket? cid
  match s.speaker with
  | .writing _ => return g.modifySocket cid fun s ↦ { s with speaker := .idle }
  | .closing _ => return g.endSpeaker cid
  | _ => none

/-- Writing to a socket fails. -/
def failWrite (g : Gateway) (cid : UInt64) : Option Gateway := do
  let (s, _) ← g.socket? cid
  match s.speaker with
  | .writing _ | .closing _ => return g.endSpeaker cid
  | _ => none

/-- The time for writing to a socket is over. -/
def giveUp (g : Gateway) (cid : UInt64) : Option Gateway := do
  let (s, _) ← g.socket? cid
  match s.speaker with
  | .writing deadline | .closing deadline =>
    if deadline ≤ g.now then return g.endSpeaker cid else none
  | _ => none

/-! ### Workers -/

/-- Takes the handling of a message as far as it goes, and leaves the rest in the worker's hands. -/
def runCall (g : Gateway) (i w : Nat) (d : Downlink) : Gateway :=
  match d.run g.hub with
  | (hub, .blocked d) => { g with hub, pool := g.pool.setWorker i w (.busy d) }
  | (hub, .finished _) => { g with hub, pool := g.pool.setWorker i w .idle }

/-- A worker takes the next frame and handles it. -/
def fetchCall (g : Gateway) (i w : Nat) : Option Gateway := do
  let (f, pool) ← g.pool.fetchInbound i w
  match downlinkCommands.lookup f.cmd with
  | none => return { g with pool }
  | some kind => return { g with pool }.runCall i w (.received kind f.body)

/-- A worker that had to wait goes on, if it can. -/
def resumeCall (g : Gateway) (i w : Nat) : Option Gateway := do
  match ← g.pool.worker? i w with
  | .busy d => if (d.step g.hub).isSome then return g.runCall i w d else none
  | _ => none

/-! ### Tasks of the gateway itself -/

/-- The message that one session has ended goes to the outbound queue. -/
def sendFarewell (g : Gateway) (k : Nat) : Option Gateway := do
  let m ← g.hub.farewells[k]?
  return { g with
    hub := { g.hub with farewells := g.hub.farewells.eraseIdx k }
    pool := (g.pool.send (g.pool.frame m.cmd m.bytes)).2 }

/-- The sweeper takes a notice off its queue. -/
def sweepTake (g : Gateway) : Option Gateway :=
  g.hub.sweeper.take?.map fun sweeper ↦ { g with hub := { g.hub with sweeper } }

/-- The sweeper serves the notice that is due. -/
def sweepExpire (g : Gateway) : Option Gateway :=
  (g.hub.sweeper.expire? g.now g.hub.conns).map fun (sweeper, conns) ↦
    { g with hub := { g.hub with sweeper, conns } }

/-- The sweeper ends. -/
def sweepFinish (g : Gateway) : Option Gateway :=
  g.hub.sweeper.finish?.map fun sweeper ↦ { g with hub := { g.hub with sweeper } }

/-- The liveness report as of now. It names the address on which the gateway listens, or the one
that is configured if it does not. -/
def snapshot (g : Gateway) : LivenessReport where
  nid := g.settings.nid
  ip := g.address.elim g.settings.bind fun a ↦ a.host.text
  port := g.address.elim g.settings.port fun a ↦ a.port
  connections := .ofNat g.hub.conns.size

/-- The frame that carries a liveness report. -/
def reportFrame (g : Gateway) (r : LivenessReport) : Frame :=
  .make .livenessReport g.settings.nid .system (Body.encode r)

/-- Where a reporter stands that has sent something. -/
def reporterAfter (g : Gateway) (ticket due : Nat) : Reporter :=
  if g.pool.outbound.delivery ticket = .accepted then .waiting due else .sending ticket due

/-- The reporter reports, if it is time. -/
def report (g : Gateway) : Option Gateway :=
  match g.reporter with
  | .waiting due =>
    if due ≤ g.now then
      match g.pool.send (g.reportFrame g.snapshot) with
      | (ticket, pool) =>
        some { g with
          pool
          reporter := { g with pool }.reporterAfter ticket
            (Clock.nextTick due g.now g.settings.reportInterval) }
    else none
  | _ => none

/-- There was room for a report. -/
def resumeReporter (g : Gateway) : Option Gateway :=
  match g.reporter with
  | .sending ticket due =>
    if g.pool.outbound.delivery ticket = .accepted then some { g with reporter := .waiting due }
    else none
  | _ => none

/-- The reporter hears the shutdown signal. -/
def stopReporter (g : Gateway) : Option Gateway :=
  match g.reporter with
  | .waiting _ =>
    if g.phase = .stopping ∨ g.phase = .draining then some { g with reporter := .ended } else none
  | _ => none

/-! ### Shutting down -/

/-- Shuts the gateway down: it listens no more, closes every connection, and stops its own tasks. A
second shutdown waits only for the links. -/
def shutdown (g : Gateway) : Gateway :=
  match g.phase with
  | .running =>
    { g with
      hub := { g.hub with
        conns := g.hub.conns.closeAll.2
        sweeper := g.hub.sweeper.signal }
      phase := .stopping }
  | .stopping => { g with pool := g.pool.signal, phase := .draining }
  | _ => g

/-- The sweeper and the reporter have ended, so the links are told to stop. -/
def drain (g : Gateway) : Option Gateway :=
  if g.phase = .stopping ∧ g.hub.sweeper.phase = .finished ∧
      (g.reporter = .off ∨ g.reporter = .ended) then
    some { g with pool := g.pool.signal, phase := .draining }
  else none

/-- The links have stopped, so the shutdown is complete. -/
def complete (g : Gateway) : Option Gateway :=
  if g.phase = .draining ∧ g.pool.AtRest then some { g with phase := .stopped } else none

/-- The instants at which something falls due. -/
def instants (g : Gateway) : List Nat :=
  g.pool.instants ++ g.hub.sweeper.instants ++
  (match g.reporter with
  | .waiting due => [due]
  | _ => []) ++
  g.sockets.values.flatMap fun s ↦
    if s.finished then []
    else match s.speaker with
      | .writing deadline | .closing deadline => [deadline, s.pingDue]
      | .idle => [s.pingDue]
      | .ended => []

end Gateway

end EdgeGateway
