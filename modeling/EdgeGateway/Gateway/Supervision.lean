import EdgeGateway.Gateway.Socket

/-!
# A connection under supervision

Every connection is served by two tasks, a reader, which calls a handler with one message after the
other, and a writer, and by a supervisor, which waits for both. Here nothing is assumed of the
handler, of the client or of the socket: a handler may go on, disconnect or panic, a reader and a
writer may end at any point at which they may end at all, and whoever holds the connection may send
to it, close it and change its session at any time.

To close a connection is not one operation. Whoever does it marks the connection as closed first,
shuts its queue next, and tells the reader last; who finds it marked already is done at once,
however far the other has come. All of them may run at the same time, so anything may happen in
between. To queue a message is one operation, under the lock of the queue.

What happens to one connection is a sequence of events; `Supervision.step?` says which event may
come next and what it does.
-/

namespace EdgeGateway

namespace Supervision

/-- How far the supervisor of a connection has come. -/
inductive Stage where
  | made
  /-- The handler knows of the connection. -/
  | created
  /-- The connection is registered, and its tasks run. -/
  | serving
  | deregistered
  /-- The handler knows that the connection has ended. -/
  | parted
  | retired
  deriving Repr, DecidableEq

/-- What the reader of a connection is doing. -/
inductive Reader where
  | listening
  /-- It waits for the handler. -/
  | handling
  | ended
  deriving Repr, DecidableEq

/-- What the writer of a connection is doing. -/
inductive Writer where
  | idle
  | writing
  /-- It writes the last there is. -/
  | closing
  | ended
  deriving Repr, DecidableEq

/-- How far whoever is the first to close a connection has come. -/
inductive Closure where
  | unmarked
  /-- The connection counts as closed. -/
  | marked
  /-- The queue takes nothing any more. -/
  | sealed
  /-- The reader has been told. -/
  | signalled
  /-- The call has returned. -/
  | done
  deriving Repr, DecidableEq

/-- How the handling of a message comes out. -/
inductive Verdict where
  | goOn
  | disconnect
  | panic
  deriving Repr, DecidableEq

/-- Something that happens to a connection. -/
inductive Event where
  /-- The handler is told that there is a connection. -/
  | created
  | registered
  /-- The handler is called with a message. -/
  | called (m : Message)
  | returned (v : Verdict)
  /-- The reader ends while it listens: the client has left, the socket fails, the message is
  malformed or the connection is closed. -/
  | readerEnded
  /-- A message is queued for the client. -/
  | accepted (m : Message)
  /-- Whoever closes the connection finds it open and marks it as closed. -/
  | marked
  /-- Whoever has marked the connection shuts its queue. -/
  | sealed
  /-- Whoever has shut the queue tells the reader. -/
  | signalled
  /-- A call that closes the connection returns and says whether it was the first. -/
  | closed (first : Bool)
  /-- The session changes. -/
  | session (sid uid : UInt64) (status : Status)
  /-- The writer gives something to the socket. -/
  | handed (o : Outgoing)
  | written
  /-- The writer ends: its last is written, writing fails or takes too long. -/
  | writerEnded
  | deregistered
  /-- The handler is told that the connection has ended. -/
  | notified
  | retired
  deriving Repr, DecidableEq

end Supervision

/-- A connection with the tasks that serve it. -/
structure Supervision where
  conn : Connection
  stage : Supervision.Stage := .made
  reader : Supervision.Reader := .listening
  writer : Supervision.Writer := .idle
  closure : Supervision.Closure := .unmarked
  /-- Everything that was given to the socket. -/
  handed : List Outgoing := []
  deriving Repr, DecidableEq

namespace Supervision

/-- What the reader does once a message has been handled. -/
def Verdict.reader : Verdict → Reader
  | goOn => .listening
  | disconnect | panic => .ended

/-- The queue has been shut. -/
def Closure.Sealed (a : Closure) : Prop := a ≠ .unmarked ∧ a ≠ .marked

/-- Whether the queue has been shut can be seen. -/
instance (a : Closure) : Decidable a.Sealed := inferInstanceAs (Decidable (_ ∧ _))

/-- Queues a message for the writer. Whether that works is up to the queue; a connection that counts
as closed has one until it is shut. -/
def send (s : Supervision) (m : Message) : Except Fault Supervision :=
  if s.closure.Sealed ∨ s.conn.abandoned then .error (.queueClosed .connectionSend)
  else if s.conn.queue.length < s.conn.capacity then
    .ok { s with conn := { s.conn with queue := s.conn.queue ++ [m] } }
  else .error (.sendQueueFull s.conn.cid)

/-- What is left when something is given to the socket, if the connection gives it: the message in
front of the queue, a ping at any time, a close when nothing is queued and the queue has been
shut. -/
def give? (s : Supervision) : Outgoing → Option (Connection × Writer)
  | .message m =>
    match s.conn.pop with
    | some (m', c) => if m' = m then some (c, .writing) else none
    | none => none
  | .ping => some (s.conn, .writing)
  | .close => if s.closure.Sealed ∧ s.conn.queue = [] then some (s.conn, .closing) else none

/-- What an event leads to, if it may happen. -/
def step? (s : Supervision) : Event → Option Supervision
  | .created => if s.stage = .made then some { s with stage := .created } else none
  | .registered => if s.stage = .created then some { s with stage := .serving } else none
  | .called _ =>
    if s.stage = .serving ∧ s.reader = .listening then
      some { s with reader := .handling }
    else none
  | .returned v => if s.reader = .handling then some { s with reader := v.reader } else none
  | .readerEnded =>
    if s.stage = .serving ∧ s.reader = .listening then some { s with reader := .ended } else none
  | .accepted m =>
    match s.send m with
    | .ok t => some t
    | .error _ => none
  | .marked =>
    if s.conn.closed then none else some { s with conn := s.conn.close, closure := .marked }
  | .sealed => if s.closure = .marked then some { s with closure := .sealed } else none
  | .signalled => if s.closure = .sealed then some { s with closure := .signalled } else none
  | .closed true => if s.closure = .signalled then some { s with closure := .done } else none
  | .closed false => if s.conn.closed then some s else none
  | .session sid uid status => some { s with conn := { s.conn with sid, uid, status } }
  | .handed o =>
    if s.stage = .serving ∧ s.writer = .idle then
      (s.give? o).map fun (conn, writer) ↦ { s with conn, writer, handed := s.handed ++ [o] }
    else none
  | .written => if s.writer = .writing then some { s with writer := .idle } else none
  | .writerEnded =>
    if s.writer = .writing ∨ s.writer = .closing then
      some { s with writer := .ended, conn := s.conn.abandon }
    else none
  | .deregistered =>
    if s.stage = .serving ∧ s.reader = .ended ∧ s.writer = .ended ∧ s.conn.closed then
      some { s with stage := .deregistered }
    else none
  | .notified => if s.stage = .deregistered then some { s with stage := .parted } else none
  | .retired =>
    if s.stage = .parted then
      some { s with stage := .retired, conn := s.conn.setStatus .close }
    else none

/-- What events lead to one after the other, if they may happen. -/
def run? (s : Supervision) (es : List Event) : Option Supervision := es.foldlM step? s

/-- A new connection, of which nobody knows. -/
def start (cid : UInt64) (capacity : Nat) : Supervision := { conn := .fresh cid capacity }

/-! ### Histories -/

/-- The reader has ended. -/
def Event.EndsReader (e : Event) : Prop :=
  e = .readerEnded ∨ e = .returned .disconnect ∨ e = .returned .panic

/-- The supervisor does this. -/
def Event.BySupervisor : Event → Prop
  | .marked | .sealed | .signalled | .closed _ | .deregistered | .notified | .retired => True
  | _ => False

/-- The messages that were queued for the client. -/
def accepted (es : List Event) : List Message :=
  es.filterMap fun
    | .accepted m => some m
    | _ => none

/-- The messages among what is given to a socket. -/
def messages (os : List Outgoing) : List Message :=
  os.filterMap fun
    | .message m => some m
    | _ => none

/-- The events of two stretches come one after the other. -/
theorem run?_append (s : Supervision) (l r : List Event) :
    s.run? (l ++ r) = (s.run? l).bind fun t ↦ t.run? r := List.foldlM_append

private theorem run_induction_from {P : List Event → Supervision → Prop} {s t : Supervision}
    {es fs : List Event} (hp : P es s)
    (kept : ∀ {es s e t}, P es s → s.step? e = some t → P (es ++ [e]) t)
    (h : s.run? fs = some t) : P (es ++ fs) t := by
  induction fs generalizing es s with
  | nil =>
    cases h
    rwa [List.append_nil]
  | cons e fs ih =>
    obtain ⟨u, hu, h⟩ := Option.bind_eq_some_iff.1 h
    have hfs := ih (kept hp hu) h
    rwa [List.append_assoc] at hfs

/-- What holds at first and is kept by every event holds wherever a run leads. -/
theorem run_induction {P : List Event → Supervision → Prop} {a s : Supervision}
    {es : List Event} (initially : P [] a)
    (kept : ∀ {es s e t}, P es s → s.step? e = some t → P (es ++ [e]) t)
    (h : a.run? es = some s) : P es s := run_induction_from initially kept h

/-- Each event of a run happened in a state to which a part of the run leads. -/
theorem run_split {a s : Supervision} {l r : List Event} {e : Event}
    (h : a.run? (l ++ e :: r) = some s) :
    ∃ b c, a.run? l = some b ∧ b.step? e = some c ∧ c.run? r = some s := by
  rw [run?_append] at h
  obtain ⟨b, hb, h⟩ := Option.bind_eq_some_iff.1 h
  obtain ⟨c, hc, h⟩ := Option.bind_eq_some_iff.1 h
  exact ⟨b, c, hb, hc, h⟩

end Supervision

end EdgeGateway
