import EdgeGateway.Dispatch
import EdgeGateway.Link.Pool

/-!
# A forwarder and its runs

A forwarder is a pool of links with the handlers of its owner. A move is whatever the owner, the
links, the workers or the backend can do next. Dialling and writing succeed or fail, and a handler
is done at once, waits or crashes as the world has it, so every run of a forwarder is a sequence of
moves.
-/

namespace EdgeGateway

/-- A call of a handler. -/
structure Call (η : Type) where
  handler : η
  cmd : Command
  nid : UInt32
  body : Bytes
  deriving Repr, DecidableEq

/-- A pool of links, the handlers of the commands that come in, and the time. -/
structure Forwarder (η κ : Type) where
  now : Nat := 0
  pool : Pool κ
  handlers : Dispatch η := .empty

namespace Forwarder

variable {η κ : Type}

/-- A forwarder that has not been launched. -/
def start (s : LinkSettings) : Forwarder η κ := { pool := .fresh s }

/-- The call that comes of a frame, if its command has a handler. -/
def call? (p : Forwarder η κ) (f : Frame) : Option (Call η) :=
  (p.handlers.lookup f.cmd).map fun h ↦ ⟨h, f.cmd, f.header.nid, f.body⟩

/-- An idle worker takes the next frame that came in and calls its handler, which leaves the worker
idle, busy or ended. A frame whose command has no handler is dropped. -/
def fetch (p : Forwarder η κ) (i w : Nat) (x : Worker κ) : Option (Forwarder η κ) := do
  let (f, pool) ← p.pool.fetchInbound i w
  match p.call? f with
  | some _ => return { p with pool := pool.setWorker i w x }
  | none => return { p with pool }

/-- A handler goes on, and is done or waits for something else. -/
def resume (p : Forwarder η κ) (i w : Nat) (x : Option κ) : Option (Forwarder η κ) := do
  match ← p.pool.worker? i w with
  | .busy _ =>
    let y : Worker κ := match x with
      | some c => .busy c
      | none => .idle
    return { p with pool := p.pool.setWorker i w y }
  | _ => none

/-- What can happen next. -/
inductive Move (η κ : Type) where
  | register (cmd : Command) (h : η)
  | launch
  | shutdown
  /-- Time passes. -/
  | wait (ms : Nat)
  /-- Somebody sends a frame. -/
  | send (f : Frame)
  /-- Somebody whose frame waits for room takes it back. -/
  | withdraw (ticket : Nat)
  /-- The backend writes on a connection. -/
  | backendSays (wire : Nat) (b : Bytes)
  /-- The backend ends its side of a connection. -/
  | backendEnds (wire : Nat)
  /-- A link, its reader, its writer or a worker does something. -/
  | link (m : Pool.Move)
  | fetch (link worker : Nat) (x : Worker κ)
  | resume (link worker : Nat) (x : Option κ)
  deriving Repr, DecidableEq

/-- Makes a move, if it is possible. -/
def move? (p : Forwarder η κ) : Move η κ → Option (Forwarder η κ)
  | .register cmd h => some { p with handlers := (p.handlers.register cmd h).2 }
  | .launch => some { p with pool := p.pool.launch p.now }
  | .shutdown => some { p with pool := p.pool.signal }
  | .wait ms => some { p with now := p.now + ms }
  | .send f => some { p with pool := (p.pool.send f).2 }
  | .withdraw ticket =>
    some { p with pool := { p.pool with outbound := p.pool.outbound.withdraw ticket } }
  | .backendSays wire b => some { p with pool := p.pool.deliver wire b }
  | .backendEnds wire => some { p with pool := p.pool.finishInflow wire }
  | .link m => (p.pool.move? p.now m).map fun pool ↦ { p with pool }
  | .fetch i w x => p.fetch i w x
  | .resume i w x => p.resume i w x

end Forwarder

end EdgeGateway
