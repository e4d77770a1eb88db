import EdgeGateway.Body.Session
import EdgeGateway.Eviction.Sweeper
import EdgeGateway.Session.Rooms
import EdgeGateway.Session.Router

/-!
# The shared tables

Everything that the tasks of a gateway share: the connections, the route of every session, the rooms
and the queue of evictions. Tasks work on these tables one operation at a time.
-/

namespace EdgeGateway

/-- The tables of a gateway, and the time. -/
structure Hub where
  /-- The node number of the gateway. -/
  nid : UInt32
  now : Nat := 0
  conns : Connections
  router : Router
  rooms : Rooms := .empty
  sweeper : Sweeper
  /-- Messages that say that a session has ended, on their way to the outbound queue. -/
  farewells : List Message := []

namespace Hub

/-- Tables without entries. -/
def empty (nid : UInt32) (shards evictionCapacity evictionDelay : Nat) : Hub where
  nid := nid
  conns := .empty shards
  router := .empty shards
  sweeper := .empty evictionCapacity evictionDelay

/-- Changes a connection, registered or not. -/
def modifyConn (h : Hub) (cid : UInt64) (f : Connection → Connection) : Hub :=
  { h with conns := h.conns.modify cid f }

/-- Queues a message for a connection, or drops it if that cannot be. -/
def post (h : Hub) (cid : UInt64) (m : Message) : Hub := h.modifyConn cid fun c ↦ c.post m

/-- Gives a connection notice, and hands out the ticket of the sending. -/
def evict (h : Hub) (cid : UInt64) : Nat × Hub :=
  let (ticket, sweeper) := h.sweeper.push h.now cid
  (ticket, { h with sweeper })

/-- What has become of a notice. -/
def eviction (h : Hub) (ticket : Nat) : Delivery := h.sweeper.queue.delivery ticket

/-- The message that tells the backend that a session has ended. -/
def farewell (h : Hub) (sid : UInt64) : Message := .make .offline h.nid sid []

/-- The message that tells a connection that it has lost its session to another. -/
def displacement (h : Hub) (sid : UInt64) : Message :=
  .make .kick h.nid sid (Body.encode
    ({ code := ResultCode.duplicateLogin, errmsg := "session opened on another connection" } :
      KickNotice))

end Hub

end EdgeGateway
