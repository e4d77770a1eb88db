import EdgeGateway.Dispatch
import EdgeGateway.Scenario.Backend

/-!
# The links on their own

A pool of links with a scripted backend, a clock, and handlers that only note their calls. After
every act everything works until it has to wait.
-/

namespace EdgeGateway

/-- What a scripted handler does with a call. -/
inductive Script where
  /-- It notes the call and is done, well or badly. -/
  | note
  /-- It notes the call and takes its worker down. -/
  | crash
  /-- It takes some time and then notes the call. -/
  | slow (ms : Nat)
  deriving Repr, DecidableEq

/-- A call that a handler noted, with the tag of the handler. -/
structure Note (τ : Type) where
  tag : τ
  cmd : Command
  nid : UInt32
  body : Bytes

/-- A slow call, and when it will be done. -/
structure SlowCall (τ : Type) where
  due : Nat
  note : Note τ

/-- Links, backend, handlers and clock. -/
structure ForwarderScene (τ : Type) where
  now : Nat := 0
  pool : Pool (SlowCall τ)
  backend : Backend := {}
  handlers : Dispatch (τ × Script) := .empty
  /-- The calls noted and not yet reported. -/
  notes : List (Note τ) := []

namespace ForwarderScene

variable {τ : Type}

/-- A scene whose links have not been launched. -/
def start (s : LinkSettings) : ForwarderScene τ := { pool := .fresh s }

/-- A task of the pool as a task of the scene. -/
def lift (task : Pool (SlowCall τ) → Option (Pool (SlowCall τ))) (s : ForwarderScene τ) :
    Option (ForwarderScene τ) := (task s.pool).map fun pool ↦ { s with pool }

/-- A worker has a frame, and its handler does what it does. -/
def handle (s : ForwarderScene τ) (i w : Nat) (f : Frame) : ForwarderScene τ :=
  match s.handlers.lookup f.cmd with
  | none => s
  | some (tag, script) =>
    let note : Note τ := ⟨tag, f.cmd, f.header.nid, f.body⟩
    match script with
    | .note => { s with notes := s.notes ++ [note] }
    | .crash =>
      { s with notes := s.notes ++ [note], pool := s.pool.setWorker i w .ended }
    | .slow ms => { s with pool := s.pool.setWorker i w (.busy ⟨s.now + ms, note⟩) }

/-- A worker whose slow call is done notes it. -/
def finishCall (i w : Nat) (s : ForwarderScene τ) : Option (ForwarderScene τ) := do
  match ← s.pool.worker? i w with
  | .busy c =>
    if c.due ≤ s.now then
      return { s with notes := s.notes ++ [c.note], pool := s.pool.setWorker i w .idle }
    else none
  | _ => none

/-- What a worker does. -/
def workerTask (i w : Nat) : ForwarderScene τ → Option (ForwarderScene τ) :=
  Schedule.first [
    finishCall i w,
    lift fun p ↦ p.stopWorker i w,
    fun s ↦ do
      let (f, pool) ← s.pool.fetchInbound i w
      return { s with pool }.handle i w f]

/-- All tasks, in the order in which frames pass them. -/
def tasks (s : ForwarderScene τ) : List (ForwarderScene τ → Option (ForwarderScene τ)) :=
  let links := List.range s.pool.links.length
  [lift (Backend.tickerTask s.now)] ++
  links.map (fun i ↦ lift (s.backend.linkTask s.now i)) ++
  links.map (fun i ↦ lift (Backend.readerTask i)) ++
  links.flatMap (fun i ↦ (Backend.workersOf s.pool i).map fun w ↦ workerTask i w) ++
  links.map (fun i ↦ lift (s.backend.writerTask s.now i))

/-- Lets everything work until it has to wait. -/
def settle (s : ForwarderScene τ) : ForwarderScene τ := Schedule.settle tasks Schedule.patience s

/-- Does something to the links. -/
def act (s : ForwarderScene τ)
    (f : Pool (SlowCall τ) → Pool (SlowCall τ)) : ForwarderScene τ :=
  { s with pool := f s.pool }.settle

/-- Tells the backend something. -/
def direct (s : ForwarderScene τ) (f : Backend → Backend) : ForwarderScene τ :=
  { s with backend := f s.backend }.settle

/-- Registers a handler, and tells whether it replaces another. -/
def register (s : ForwarderScene τ) (cmd : Command) (tag : τ) (h : Script) :
    Bool × ForwarderScene τ :=
  let (replaced, handlers) := s.handlers.register cmd (tag, h)
  (replaced, { s with handlers }.settle)

/-- The backend closes both directions of a connection. -/
def drop (s : ForwarderScene τ) (wire : Nat) : ForwarderScene τ :=
  { s with pool := s.pool.finishInflow wire, backend := s.backend.deafen wire }.settle

/-- The instants at which something falls due. -/
def instants (s : ForwarderScene τ) : List Nat :=
  s.pool.instants ++ s.pool.links.flatMap fun l ↦
    match l.service? with
    | some v => v.workers.filterMap fun
      | .busy c => some c.due
      | _ => none
    | none => []

/-- Lets time pass. -/
def advance (s : ForwarderScene τ) (ms : Nat) : ForwarderScene τ :=
  Clock.pass instants (fun t s ↦ { s with now := t }.settle) (s.now + ms) s.now s

/-- The number of sendings that wait for room. -/
def waitingSends (s : ForwarderScene τ) : Nat := s.pool.outbound.waiting.length

/-- Reports what has reached the backend and what the handlers have noted. -/
def report (s : ForwarderScene τ) : BackendReport × List (Note τ) × ForwarderScene τ :=
  let (r, backend) := s.backend.report s.pool
  (r, s.notes, { s with backend, notes := [] })

end ForwarderScene

end EdgeGateway
