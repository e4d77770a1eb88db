import EdgeGateway.Channel
import EdgeGateway.Connection.Registry

/-!
# Eviction

A connection that has to go is given notice: its number goes into a bounded queue with the instant
at which it is to be closed. The sweeper takes the notices off the queue, and closes each connection
when its time has come, whatever else is pending. It ends at the shutdown signal, or when nobody can
give notice any more and every notice has been served.
-/

namespace EdgeGateway

/-- A connection that is to be closed, and when. -/
structure Eviction where
  cid : UInt64
  deadline : Nat
  deriving Repr, DecidableEq

namespace Eviction

/-- The eviction that is due first, of several the one that came first. -/
def earliest? : List Eviction → Option Eviction
  | [] => none
  | e :: es =>
    match earliest? es with
    | none => some e
    | some f => if f.deadline < e.deadline then some f else some e

end Eviction

/-- What the sweeper is doing. -/
inductive SweeperPhase where
  | unstarted
  | running
  | finished
  deriving Repr, DecidableEq

/-- The queue of evictions and the sweeper that works it off. -/
structure Sweeper where
  /-- The time from a notice to its eviction. -/
  delay : Nat
  queue : Channel Eviction
  /-- The evictions that have been taken off the queue and are not due yet. -/
  pending : List Eviction := []
  phase : SweeperPhase := .unstarted
  /-- Is there anybody left who can give notice? -/
  attended : Bool := true
  /-- Has the shutdown signal been heard? -/
  stopping : Bool := false
  deriving Repr

namespace Sweeper

/-- A sweeper that has not started. -/
def empty (capacity delay : Nat) : Sweeper := { delay, queue := .empty capacity }

/-- Gives a connection notice that it will be closed at an instant, and hands out the ticket of the
sending. -/
def pushAt (s : Sweeper) (cid : UInt64) (deadline : Nat) : Nat × Sweeper :=
  let (ticket, queue) := s.queue.send ⟨cid, deadline⟩
  (ticket, { s with queue })

/-- Gives a connection notice. Its time runs from now, even if the notice has to wait for room. -/
def push (s : Sweeper) (now : Nat) (cid : UInt64) : Nat × Sweeper := s.pushAt cid (now + s.delay)

/-- Starts the sweeper. A shutdown signal from before is not heard. -/
def start (s : Sweeper) : Sweeper :=
  if s.phase = .unstarted ∧ s.queue.closed = false then { s with phase := .running } else s

/-- Raises the shutdown signal, which only a running sweeper hears. -/
def signal (s : Sweeper) : Sweeper :=
  if s.phase = .running then { s with stopping := true } else s

/-- Lets the queue go without ever starting. -/
def discard (s : Sweeper) : Sweeper :=
  if s.phase = .unstarted then { s with queue := s.queue.close } else s

/-- Nobody will give notice any more, except those who already wait. -/
def release (s : Sweeper) : Sweeper := { s with attended := false }

/-- Ends the sweeper, and with it the queue. -/
def finish (s : Sweeper) : Sweeper :=
  { s with phase := .finished, queue := s.queue.close, pending := [] }

/-- The next notice is taken off the queue. -/
def take? (s : Sweeper) : Option Sweeper :=
  if s.phase = .running then
    s.queue.receive.map fun (e, queue) ↦ { s with queue, pending := s.pending ++ [e] }
  else none

/-- The pending eviction that is due first, if its time has come. -/
def due? (s : Sweeper) (now : Nat) : Option Eviction :=
  if s.phase = .running then
    (Eviction.earliest? s.pending).filter fun e ↦ decide (e.deadline ≤ now)
  else none

/-- The eviction that is due is served. -/
def expire? (s : Sweeper) (now : Nat) (conns : Connections) : Option (Sweeper × Connections) :=
  (s.due? now).map fun e ↦ ({ s with pending := s.pending.erase e }, (conns.close e.cid).2)

/-- Is there nothing left to do, and will there never be? -/
def Exhausted (s : Sweeper) : Prop :=
  s.attended = false ∧ s.queue.items = [] ∧ s.queue.waiting = [] ∧ s.pending = []

/-- Whether a sweeper is exhausted can be seen. -/
instance (s : Sweeper) : Decidable s.Exhausted :=
  inferInstanceAs (Decidable (_ ∧ _ ∧ _ ∧ _))

/-- The sweeper ends. -/
def finish? (s : Sweeper) : Option Sweeper :=
  if s.phase = .running ∧ (s.stopping = true ∨ s.Exhausted) then some s.finish else none

/-- The instants at which an eviction is due. -/
def instants (s : Sweeper) : List Nat := s.pending.map (·.deadline)

/-- What the sweeper does next, if it can do anything. -/
def work? (s : Sweeper) (now : Nat) (conns : Connections) : Option (Sweeper × Connections) :=
  match s.finish? with
  | some s => some (s, conns)
  | none =>
    match s.take? with
    | some s => some (s, conns)
    | none => s.expire? now conns

/-- The number of things that the sweeper can still do: every notice that is not pending has to be
taken and served, every pending one to be served, and the sweeper can end. -/
def workload (s : Sweeper) : Nat :=
  2 * (s.queue.items.length + s.queue.waiting.length) + s.pending.length + 1

/-- Lets the sweeper work until it has to wait. -/
def settle (s : Sweeper) (now : Nat) (conns : Connections) : Sweeper × Connections :=
  go s.workload s conns
where
  go : Nat → Sweeper → Connections → Sweeper × Connections
  | 0, s, conns => (s, conns)
  | fuel + 1, s, conns =>
    match s.work? now conns with
    | some (s, conns) => go fuel s conns
    | none => (s, conns)

end Sweeper

end EdgeGateway
