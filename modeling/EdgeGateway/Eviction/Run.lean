import EdgeGateway.Scenario.Eviction

/-!
# Runs of a sweeper

A move is whatever a running sweeper, those who give notice and the world around them can do next.
Any order of moves is a run, so the sweeper may be late, and notices may be given while it is busy.
-/

namespace EdgeGateway.EvictionScene

/-- Some connections and a sweeper that has just started. -/
def running (now : Nat) (conns : Connections) (capacity delay : Nat) : EvictionScene where
  now
  conns
  sweeper := (Sweeper.empty capacity delay).start

/-- What can happen next. -/
inductive Move where
  /-- Somebody gives a connection notice. -/
  | push (cid : UInt64)
  /-- Somebody gives a connection notice for an instant of their choice. -/
  | pushAt (cid : UInt64) (deadline : Nat)
  /-- Time passes. -/
  | wait (ms : Nat)
  /-- A connection can no longer be reached. -/
  | remove (cid : UInt64)
  /-- The last of those who give notice leaves. -/
  | release
  /-- The sweeper takes a notice off the queue. -/
  | take
  /-- The sweeper serves the eviction that is due. -/
  | expire
  /-- The sweeper ends. -/
  | finish
  deriving Repr, DecidableEq

/-- Makes a move, if it is possible. -/
def move? (s : EvictionScene) : Move → Option EvictionScene
  | .push cid =>
    if s.sweeper.attended then some { s with sweeper := (s.sweeper.push s.now cid).2 } else none
  | .pushAt cid deadline =>
    if s.sweeper.attended then
      some { s with sweeper := (s.sweeper.pushAt cid deadline).2 }
    else none
  | .wait ms => some { s with now := s.now + ms }
  | .remove cid => some { s with conns := s.conns.deregister cid }
  | .release => some { s with sweeper := s.sweeper.release }
  | .take => s.sweeper.take?.map fun sweeper ↦ { s with sweeper }
  | .expire =>
    (s.sweeper.expire? s.now s.conns).map fun (sweeper, conns) ↦ { s with sweeper, conns }
  | .finish => s.sweeper.finish?.map fun sweeper ↦ { s with sweeper }

/-- The sweeper has nothing to do. -/
def Settled (s : EvictionScene) : Prop := s.sweeper.work? s.now s.conns = none

end EdgeGateway.EvictionScene
