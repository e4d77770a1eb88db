import EdgeGateway.Body.Room
import EdgeGateway.Dispatch
import EdgeGateway.Gateway.Closing

/-!
# Handling what the backend sends

A frame of the backend carries a session message, which a worker handles: it opens or refuses a
session, ends one, changes the members of a room, or carries something to a session or to a room.
The handling is a chain of steps, each of which is one operation on one table, so that it can be
interleaved with whatever else goes on; `Downlink.run` takes the steps together up to the point
where the worker has to wait.
-/

namespace EdgeGateway

/-- What a command of the backend is about. -/
inductive DownlinkKind where
  /-- The verdict on a session that a client asked for. -/
  | verdict
  /-- The end of a session. -/
  | kick
  /-- Something for one session. -/
  | session
  /-- The verdict on entering a room. -/
  | joined
  /-- The removal of a session from a room. -/
  | removed
  /-- Something for all members of a room. -/
  | room
  deriving Repr, DecidableEq

/-- The commands of the backend that are handled; all others are dropped. -/
def downlinkCommands : Dispatch DownlinkKind :=
  (Dispatch.empty.register .onlineAck .verdict).2.registerAll [.kick] .kick
    |>.registerAll [.roomJoinAck] .joined
    |>.registerAll [.roomKickNotice] .removed
    |>.registerAll [.subAck, .unsubAck, .pong, .offlineAck, .roomQuitAck, .roomChatAck] .session
    |>.registerAll
      [.roomChat, .roomBroadcast, .roomUserCount, .roomJoinNotice, .roomQuitNotice] .room

/-- Where the handling of a message stands. -/
inductive Downlink where
  /-- The frame has been taken off the inbound queue. -/
  | received (kind : DownlinkKind) (body : Bytes)
  /-- The connection that a verdict names is about to be looked up. -/
  | judge (m : Message) (ack : OnlineAck)
  /-- The refusal of a session is about to be passed on. -/
  | refuse (m : Message) (cid : UInt64)
  /-- The connection is about to get its session. -/
  | logon (m : Message) (cid uid : UInt64)
  /-- The session is about to be routed to its connection. -/
  | bind (m : Message) (cid : UInt64)
  /-- The memberships of the session are about to follow. -/
  | rebind (m : Message) (cid : UInt64) (displaced : Option UInt64)
  /-- The connection that carried the session before is about to be told. -/
  | displace (m : Message) (cid old : UInt64)
  /-- It is about to be seen whether the connection is still open. -/
  | verify (m : Message) (cid : UInt64)
  /-- The connection was closed meanwhile, and its session is being released. -/
  | release (r : Release)
  /-- The connection that a session is routed to is about to be looked up, to end the session. -/
  | kick (m : Message)
  | reachKicked (m : Message) (cid : UInt64)
  | expel (m : Message) (cid : UInt64)
  /-- A connection is about to be given notice; `after` is what comes behind. -/
  | evict (cid : UInt64) (after : Option (Message × UInt64))
  /-- The notice waits for room in the queue of evictions. -/
  | waiting (ticket : Nat) (after : Option (Message × UInt64))
  /-- The route of a session that enters a room is about to be looked up. -/
  | join (m : Message) (rid : UInt64) (gid : UInt32)
  | enter (m : Message) (rid : UInt64) (gid : UInt32) (cid : UInt64)
  /-- A session is about to be removed from a room. -/
  | leave (m : Message) (rid : UInt64)
  /-- The members of a room are about to be listed. -/
  | gather (m : Message) (rid : UInt64) (gid : UInt32)
  /-- Copies are about to be queued for the members that are left. -/
  | fanOut (m : Message) (members : List (UInt64 × UInt64))
  /-- The route of a session is about to be looked up, to deliver a message. -/
  | deliver (m : Message)
  | reach (m : Message) (cid : UInt64)
  /-- A message is about to be queued for a connection. -/
  | hand (m : Message) (cid : UInt64)
  deriving Repr, DecidableEq

namespace Downlink

/-- What a step of the handling leads to. -/
inductive Outcome where
  | next (d : Downlink)
  | done (result : Except Fault Unit)

/-- The first step for a message of a given kind, once its body is read. -/
def ofMessage (kind : DownlinkKind) (m : Message) : Except Fault Downlink :=
  match kind with
  | .verdict =>
    match Body.decode (α := OnlineAck) m.body with
    | .ok ack => .ok (.judge m ack)
    | .error e => .error (.codec e)
  | .kick => .ok (.kick m)
  | .session => .ok (.deliver m)
  | .joined =>
    match Body.decode (α := RoomJoinAck) m.body with
    | .ok ack => .ok (if ack.code = ResultCode.ok then .join m ack.rid ack.gid else .deliver m)
    | .error e => .error (.codec e)
  | .removed =>
    match Body.decode (α := RoomQuit) m.body with
    | .ok quit => .ok (.leave m quit.rid)
    | .error e => .error (.codec e)
  | .room =>
    match Body.decode (α := RoomAddress) m.body with
    | .ok a => .ok (.gather m a.rid a.gid)
    | .error e => .error (.codec e)

/-- What comes behind a notice: the check of the connection that took a session over, or nothing. -/
def behindNotice : Option (Message × UInt64) → Outcome
  | some (m, cid) => .next (.verify m cid)
  | none => .done (.ok ())

/-- One step of the handling, unless it has to wait. -/
def step (h : Hub) : Downlink → Option (Hub × Outcome)
  | received kind body =>
    match Packet.parse (H := SessionHeader) body with
    | .error e => some (h, .done (.error (.malformedFrame e)))
    | .ok m =>
      match ofMessage kind m with
      | .ok d => some (h, .next d)
      | .error e => some (h, .done (.error e))
  | judge m ack =>
    match h.conns.get? ack.cid with
    | none => some (h, .done (.error (.connectionNotFound ack.cid)))
    | some _ =>
      some (h, .next (if ack.code = ResultCode.ok then .logon m ack.cid ack.uid
        else .refuse m ack.cid))
  | refuse m cid => some (h.post cid m, .next (.evict cid none))
  | logon m cid uid =>
    match (h.conns.find? cid).bind fun c ↦ c.logon m.sid uid with
    | some c => some ({ h with conns := h.conns.store c }, .next (.bind m cid))
    | none => some (h, .done (.ok ()))
  | bind m cid =>
    match h.router.bind m.sid cid with
    | (old, router) =>
      some ({ h with router }, .next (.rebind m cid (old.filter (· ≠ cid))))
  | rebind m cid displaced =>
    let h := { h with rooms := (h.rooms.rebind m.sid cid).2 }
    match displaced with
    | some old => some (h, .next (.displace m cid old))
    | none => some (h, .next (.verify m cid))
  | displace m cid old =>
    let next := Outcome.next (.evict old (some (m, cid)))
    match h.conns.get? old with
    | some _ =>
      some ((h.post old (h.displacement m.sid)).modifyConn old fun c ↦ c.setStatus .kick, next)
    | none => some (h, next)
  | verify m cid =>
    match h.conns.find? cid with
    | some c => some (h, .next (if c.closed then .release (.inspect cid) else .hand m cid))
    | none => some (h, .done (.ok ()))
  | release r =>
    match r.step h with
    | (h, some r) => some (h, .next (.release r))
    | (h, none) => some (h, .done (.ok ()))
  | kick m =>
    match h.router.lookup m.sid with
    | some cid => some (h, .next (.reachKicked m cid))
    | none => some (h, .done (.error (.sessionNotFound m.sid)))
  | reachKicked m cid =>
    match h.conns.get? cid with
    | some _ => some (h, .next (.expel m cid))
    | none => some (h, .done (.error (.connectionNotFound cid)))
  | expel m cid =>
    some ((h.modifyConn cid fun c ↦ c.setStatus .kick).post cid m, .next (.evict cid none))
  | evict cid after =>
    match h.evict cid with
    | (ticket, h) => some (h, .next (.waiting ticket after))
  | waiting ticket after =>
    match h.eviction ticket with
    | .accepted => some (h, behindNotice after)
    | .refused => some (h, .done (.error (.queueClosed .eviction)))
    | .pending => none
  | join m rid gid =>
    match h.router.lookup m.sid with
    | some cid => some (h, .next (.enter m rid gid cid))
    | none => some (h, .done (.error (.sessionNotFound m.sid)))
  | enter m rid gid cid =>
    some ({ h with rooms := h.rooms.join rid gid m.sid cid }, .next (.deliver m))
  | leave m rid =>
    some ({ h with rooms := (h.rooms.quit rid m.sid).2 }, .next (.deliver m))
  | gather m rid gid => some (h, .next (.fanOut m (h.rooms.select rid gid)))
  | fanOut m members =>
    match members with
    | [] => some (h, .done (.ok ()))
    | (sid, cid) :: members =>
      match h.conns.get? cid with
      | some _ => some (h.post cid (m.readdress sid m.header.nid), .next (.fanOut m members))
      | none => some (h, .next (.fanOut m members))
  | deliver m =>
    match h.router.lookup m.sid with
    | some cid => some (h, .next (.reach m cid))
    | none => some (h, .done (.error (.sessionNotFound m.sid)))
  | reach m cid =>
    match h.conns.get? cid with
    | some _ => some (h, .next (.hand m cid))
    | none => some (h, .done (.error (.connectionNotFound cid)))
  | hand m cid =>
    match h.conns.find? cid with
    | none => some (h, .done (.error (.connectionNotFound cid)))
    | some c =>
      match c.send m with
      | .ok c => some ({ h with conns := h.conns.store c }, .done (.ok ()))
      | .error e => some (h, .done (.error e))

/-- What the steps up to a point where the worker waits come to. -/
inductive Pause where
  | blocked (d : Downlink)
  | finished (result : Except Fault Unit)

/-- A bound on the steps that are left. -/
def weight (h : Hub) : Downlink → Nat
  | hand .. => 1
  | reach .. => 2
  | deliver .. => 3
  | leave .. | enter .. => 4
  | join .. => 5
  | release r => r.weight
  | verify .. => 4
  | waiting .. => 5
  | evict .. => 6
  | refuse .. | expel .. | displace .. => 7
  | reachKicked .. | rebind .. => 8
  | kick .. | bind .. => 9
  | logon .. => 10
  | judge .. => 11
  | fanOut _ members => members.length + 1
  | gather _ rid gid => (h.rooms.select rid gid).length + 2
  | received .. => h.rooms.population + 12

/-- What there is to do about a message is bounded by the number of memberships. -/
theorem weight_ofMessage {h : Hub} {kind : DownlinkKind} {m : Message} {d : Downlink}
    (hd : ofMessage kind m = .ok d) : d.weight h < h.rooms.population + 12 := by
  cases kind <;> simp only [ofMessage] at hd
  case kick | session =>
    cases hd
    simp only [weight]
    omega
  case verdict | removed =>
    split at hd <;> cases hd
    simp only [weight]
    omega
  case joined =>
    split at hd <;> cases hd
    split <;> simp only [weight] <;> omega
  case room =>
    split at hd <;> cases hd
    next a _ =>
      have := h.rooms.length_select_le a.rid a.gid
      simp only [weight]
      omega

/-- Every step leaves less to do. -/
theorem weight_step {h h' : Hub} {d d' : Downlink} (hs : d.step h = some (h', .next d')) :
    d'.weight h' < d.weight h := by
  cases d with
  | received kind body =>
    simp only [step] at hs
    split at hs
    · cases hs
    · split at hs <;> cases hs
      next hd => exact weight_ofMessage hd
  | fanOut m members =>
    cases members with
    | nil => cases hs
    | cons x members =>
      simp only [step] at hs
      split at hs <;> cases hs <;> simp [weight]
  | release r =>
    simp only [step] at hs
    split at hs <;> cases hs
    next hr => exact Release.weight_step hr
  | _ =>
    simp only [step, Hub.evict, behindNotice] at hs
    (repeat' split at hs) <;> cases hs <;> simp [weight, Release.weight]

/-- Takes steps until the handling is finished or has to wait. -/
def run (h : Hub) (d : Downlink) : Hub × Pause := go (d.weight h + 1) h d
where
  go : Nat → Hub → Downlink → Hub × Pause
  | 0, h, d => (h, .blocked d)
  | fuel + 1, h, d =>
    match d.step h with
    | none => (h, .blocked d)
    | some (h, .next d) => go fuel h d
    | some (h, .done r) => (h, .finished r)

private theorem step_eq_none_of_go {fuel : Nat} {h h' : Hub} {d d' : Downlink}
    (hw : d.weight h < fuel) (hr : run.go fuel h d = (h', .blocked d')) : d'.step h' = none := by
  induction fuel generalizing h d with
  | zero => omega
  | succ fuel ih =>
    simp only [run.go] at hr
    split at hr
    · next hs =>
      cases hr
      exact hs
    · next hs =>
      have := weight_step hs
      exact ih (by omega) hr
    · cases hr

/-- A handling pauses only where it has to wait. -/
theorem step_eq_none_of_run {h h' : Hub} {d d' : Downlink} (hr : d.run h = (h', .blocked d')) :
    d'.step h' = none :=
  step_eq_none_of_go (Nat.lt_succ_self _) hr

end Downlink

end EdgeGateway
