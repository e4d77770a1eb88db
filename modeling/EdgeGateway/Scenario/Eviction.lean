import EdgeGateway.Clock
import EdgeGateway.Eviction.Sweeper

/-!
# Eviction on its own

A sweeper with some connections and a clock, and nothing else. After every act it works until it has
to wait, so what is seen of it is always at rest.
-/

namespace EdgeGateway

/-- A sweeper, its connections and the time. -/
structure EvictionScene where
  now : Nat := 0
  conns : Connections
  sweeper : Sweeper

namespace EvictionScene

/-- A scene with some registered connections and a sweeper that has not started. -/
def start (connections capacity delay : Nat) : EvictionScene where
  conns := connections.fold (fun _ _ t ↦
    let (cid, t) := Connections.create t 1
    t.register cid) (.empty 1)
  sweeper := .empty capacity delay

/-- Lets the sweeper work until it has to wait. -/
def settle (s : EvictionScene) : EvictionScene :=
  let (sweeper, conns) := s.sweeper.settle s.now s.conns
  { s with sweeper, conns }

/-- Does something to the sweeper. -/
def act (s : EvictionScene) (f : Sweeper → Sweeper) : EvictionScene :=
  { s with sweeper := f s.sweeper }.settle

/-- Gives a connection notice, as long as anybody can. -/
def push (s : EvictionScene) (cid : UInt64) : EvictionScene :=
  s.act fun w ↦ if w.attended then (w.push s.now cid).2 else w

/-- Makes a connection unreachable. -/
def remove (s : EvictionScene) (cid : UInt64) : EvictionScene :=
  { s with conns := s.conns.deregister cid }.settle

/-- Lets time pass. -/
def advance (s : EvictionScene) (ms : Nat) : EvictionScene :=
  Clock.pass (fun s : EvictionScene ↦ s.sweeper.instants)
    (fun t s ↦ { s with now := t }.settle) (s.now + ms) s.now s

/-- What has become of every notice, in the order in which they were given. -/
def deliveries (s : EvictionScene) : List Delivery :=
  (List.range s.sweeper.queue.issued).map s.sweeper.queue.delivery

/-- The numbers of the connections that are closed, in ascending order. -/
def closed (s : EvictionScene) : List UInt64 :=
  (s.conns.all.values.filter (·.closed)).map (·.cid)

end EvictionScene

end EdgeGateway
