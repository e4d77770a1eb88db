import EdgeGateway.Body.Room
import EdgeGateway.Dispatch
import EdgeGateway.Gateway.Hub

/-!
# Handling what a client sends

A client opens a session, ends it, leaves a room, or says something that is passed on to the backend
as it is. What is passed on carries the session of the connection and the node of the gateway,
whatever the client wrote. Handling may have to wait for room in the outbound queue, and then in the
queue of evictions; `UplinkStep` says what is to be waited for.
-/

namespace EdgeGateway

/-- What a command of a client is about. -/
inductive UplinkKind where
  | online
  | offline
  | quitRoom
  | transit
  deriving Repr, DecidableEq

/-- The commands of clients that are handled; all others are dropped. -/
def uplinkCommands : Dispatch UplinkKind :=
  (Dispatch.empty.register .online .online).2.registerAll [.offline] .offline
    |>.registerAll [.roomQuit] .quitRoom
    |>.registerAll [.ping, .sub, .unsub, .roomJoin, .roomChat] .transit

/-- What is done once a message has been passed on. -/
inductive AfterForward where
  | proceed
  /-- The client ended its session: it is marked, and its connection is given notice. -/
  | logOut
  deriving Repr, DecidableEq

/-- What handling a message leads to. -/
inductive UplinkStep where
  /-- The reader listens on. -/
  | proceed
  /-- The reader ends. -/
  | disconnect
  /-- Something is wrong with the message; the reader listens on. -/
  | failed (cause : Fault)
  /-- A message has to be passed on first. -/
  | forward (m : Message) (after : AfterForward)
  deriving Repr, DecidableEq

namespace Uplink

/-- The answer of the gateway itself to a client whose request is no good. -/
def rejection (h : Hub) (cid sid : UInt64) (reason : String) : Message :=
  .make .onlineAck h.nid sid (Body.encode
    ({ sid, cid, code := ResultCode.badRequest, errmsg := reason } : OnlineAck))

/-- Answers a client whose request is no good. -/
def reject (h : Hub) (c : Connection) (sid : UInt64) (reason : String) : Hub × UplinkStep :=
  match c.send (rejection h c.cid sid reason) with
  | .ok c => ({ h with conns := h.conns.store c }, .proceed)
  | .error e => (h, .failed e)

/-- The request that is passed on for a client that asks for a session. -/
def request (h : Hub) (c : Connection) (r : OnlineRequest) : Message :=
  .make .online h.nid r.sid (Body.encode { r with cid := c.cid })

/-- A client asks for a session. It may do so until it has one. -/
def online (h : Hub) (c : Connection) (m : Message) : Hub × UplinkStep :=
  if c.status ∉ [Status.ready, .check] then (h, .proceed)
  else match Body.decode (α := OnlineRequest) m.body with
    | .error e => reject h c m.sid (Fault.codec e).message
    | .ok r =>
      if r.sid = 0 then reject h c 0 "sid must be non-zero"
      else match c.transition [.ready, .check] .check with
        | none => (h, .proceed)
        | some d => ({ h with conns := h.conns.store d }, .forward (request h c r) .proceed)

/-- A client ends its session; one that has none is disconnected. -/
def offline (h : Hub) (c : Connection) (m : Message) : Hub × UplinkStep :=
  if c.status ≠ .logon then (h, .disconnect)
  else (h, .forward (m.readdress c.sid h.nid) .logOut)

/-- A client says something to the backend. -/
def transit (h : Hub) (c : Connection) (m : Message) : Hub × UplinkStep :=
  if c.status ≠ .logon then (h, .proceed)
  else (h, .forward (m.readdress c.sid h.nid) .proceed)

/-- A client leaves a room, and the backend is told. -/
def quitRoom (h : Hub) (c : Connection) (m : Message) : Hub × UplinkStep :=
  if c.status ≠ .logon then (h, .proceed)
  else match Body.decode (α := RoomQuit) m.body with
    | .error e => (h, .failed (.unreadableQuit e))
    | .ok quit =>
      ({ h with rooms := (h.rooms.quit quit.rid c.sid).2 },
        .forward (m.readdress c.sid h.nid) .proceed)

/-- Handles a message up to the point where it has to wait. -/
def handle (h : Hub) (c : Connection) (m : Message) : Hub × UplinkStep :=
  match uplinkCommands.lookup m.cmd with
  | none => (h, .proceed)
  | some .online => online h c m
  | some .offline => offline h c m
  | some .transit => transit h c m
  | some .quitRoom => quitRoom h c m

end Uplink

end EdgeGateway
