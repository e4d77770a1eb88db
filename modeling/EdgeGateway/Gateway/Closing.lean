import EdgeGateway.Gateway.Hub

/-!
# Letting go of a connection

When a connection has ended it becomes unreachable, and the session that it still owns is released:
the route goes, then the memberships in rooms, and the backend is told unless the client itself had
ended the session. Each of these is one operation on one table, and other tasks may come in between;
`Release.step` and `Closing.step` take them one at a time.
-/

namespace EdgeGateway

/-- Where the release of a connection's session stands. -/
inductive Release where
  /-- The session is about to be looked at. -/
  | inspect (cid : UInt64)
  /-- The route is about to go, if it still leads here. -/
  | unbind (cid sid : UInt64) (status : Status)
  /-- The memberships are about to go, and the backend is about to be told. -/
  | clear (cid sid : UInt64) (status : Status)
  deriving Repr, DecidableEq

namespace Release

/-- The connection whose session is released. -/
def cid : Release → UInt64
  | inspect cid | unbind cid _ _ | clear cid _ _ => cid

/-- One operation of a release, and where it stands then. -/
def step (h : Hub) : Release → Hub × Option Release
  | inspect cid =>
    match h.conns.find? cid with
    | none => (h, none)
    | some c => (h, if c.sid = 0 then none else some (.unbind cid c.sid c.status))
  | unbind cid sid status =>
    match h.router.unbind sid cid with
    | (true, router) => ({ h with router }, some (.clear cid sid status))
    | (false, _) => (h, none)
  | clear _ sid status =>
    let h := { h with rooms := (h.rooms.removeSession sid).2 }
    (if status = .logout then h else { h with farewells := h.farewells ++ [h.farewell sid] }, none)

/-- A release takes a route away only if it leads to its connection. -/
theorem step_unbind (h : Hub) (cid sid : UInt64) (status : Status) :
    (unbind cid sid status).step h =
      if h.router.lookup sid = some cid then
        ({ h with router := (h.router.unbind sid cid).2 }, some (.clear cid sid status))
      else (h, none) := by
  have hw := Router.unbind_fst h.router sid cid
  simp only [step]
  split
  · next he =>
    rw [he] at hw
    rw [if_pos (hw.1 rfl), he]
  · next he =>
    rw [he] at hw
    rw [if_neg ((not_congr hw).1 Bool.false_ne_true)]

/-- The number of operations that are left at most. -/
def weight : Release → Nat
  | inspect .. => 3
  | unbind .. => 2
  | clear .. => 1

/-- Every step of a release leaves less to do. -/
theorem weight_step {h h' : Hub} {r r' : Release} (hs : r.step h = (h', some r')) :
    r'.weight < r.weight := by
  cases r <;> simp only [step] at hs <;> repeat' split at hs
  all_goals cases hs
  all_goals simp [weight]

end Release

/-- Where the end of a connection stands, once it is closed and its tasks have ended. -/
inductive Closing where
  | deregister (cid : UInt64)
  | release (cid : UInt64) (r : Release)
  | retire (cid : UInt64)
  deriving Repr, DecidableEq

namespace Closing

/-- The connection that ends. -/
def cid : Closing → UInt64
  | deregister cid | release cid _ | retire cid => cid

/-- One operation of the end of a connection, and where it stands then. -/
def step (h : Hub) : Closing → Hub × Option Closing
  | deregister cid =>
    ({ h with conns := h.conns.deregister cid }, some (.release cid (.inspect cid)))
  | release cid r =>
    match r.step h with
    | (h, some r) => (h, some (.release cid r))
    | (h, none) => (h, some (.retire cid))
  | retire cid => (h.modifyConn cid fun c ↦ c.setStatus .close, none)

/-- The number of operations that are left at most. -/
def weight : Closing → Nat
  | deregister .. => 5
  | release _ r => r.weight + 1
  | retire .. => 1

/-- Every step of the end of a connection leaves less to do. -/
theorem weight_step {h h' : Hub} {c c' : Closing} (hs : c.step h = (h', some c')) :
    c'.weight < c.weight := by
  cases c with
  | deregister cid =>
    cases hs
    simp [weight, Release.weight]
  | release cid r =>
    simp only [step] at hs
    split at hs <;> cases hs
    · next hr =>
      have := Release.weight_step hr
      simp only [weight]
      omega
    · cases r <;> simp [weight, Release.weight]
  | retire cid => cases hs

/-- The whole end of a connection without anything in between. -/
def run (h : Hub) (cid : UInt64) : Hub := go (weight (.deregister cid)) h (.deregister cid)
where
  go : Nat → Hub → Closing → Hub
  | 0, h, _ => h
  | fuel + 1, h, c =>
    match c.step h with
    | (h, some c) => go fuel h c
    | (h, none) => h

end Closing

end EdgeGateway
