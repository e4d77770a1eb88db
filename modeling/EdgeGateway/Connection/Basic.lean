import EdgeGateway.Wire.Packet

/-!
# Connections

A connection is one client's socket as the rest of the gateway sees it: a session, a status and a
bounded queue of messages that its writer has not taken yet. A connection is closed once and for
all, and its queue refuses everything from then on; what is queued by then is still written.

Main statements: a send that fails and a logon that fails give no new connection at all, so they
change nothing; `close_close` and `send_close` say that closing is final.
-/

namespace EdgeGateway

/-- How far a connection has come. -/
inductive Status where
  /-- Open, without a session. -/
  | ready
  /-- A session was asked for; the backend has not answered. -/
  | check
  /-- The session is accepted. -/
  | logon
  /-- The client ended the session. -/
  | logout
  /-- The backend or a newer connection ended the session. -/
  | kick
  /-- The socket is gone. -/
  | close
  deriving Repr, DecidableEq

namespace Status

/-- The name of a status. -/
def name : Status → String
  | ready => "Ready"
  | check => "Check"
  | logon => "Logon"
  | logout => "Logout"
  | kick => "Kick"
  | close => "Close"

/-- Every status in the order in which a connection passes through them. -/
def all : List Status := [ready, check, logon, logout, kick, close]

/-- The status with a given name. -/
def ofName? (s : String) : Option Status := all.find? fun t ↦ t.name == s

end Status

/-- One client's connection. -/
structure Connection where
  cid : UInt64
  /-- The session, 0 before the connection has one. -/
  sid : UInt64 := 0
  uid : UInt64 := 0
  status : Status := .ready
  closed : Bool := false
  /-- The writer has gone, so that nobody takes messages from the queue any more. -/
  abandoned : Bool := false
  capacity : Nat
  queue : List Message := []
  deriving Repr, DecidableEq

namespace Connection

/-- A fresh connection. Its queue has room for at least one message. -/
def fresh (cid : UInt64) (capacity : Nat) : Connection := { cid, capacity := max capacity 1 }

/-- Gives the connection another status, whatever it had. -/
def setStatus (c : Connection) (status : Status) : Connection := { c with status }

/-- Moves on to a status, if the present one is among `before`. -/
def transition (c : Connection) (before : List Status) (after : Status) : Option Connection :=
  if c.status ∈ before then some (c.setStatus after) else none

/-- Gives the connection its session. Only an open connection whose session was asked for can log
on. -/
def logon (c : Connection) (sid uid : UInt64) : Option Connection :=
  if c.status = .check ∧ c.closed = false then some { c with sid, uid, status := .logon }
  else none

/-- Queues a message for the writer. -/
def send (c : Connection) (m : Message) : Except Fault Connection :=
  if c.closed ∨ c.abandoned then .error (.queueClosed .connectionSend)
  else if c.queue.length < c.capacity then .ok { c with queue := c.queue ++ [m] }
  else .error (.sendQueueFull c.cid)

/-- The connection after trying to queue a message; one that cannot be queued is dropped. -/
def post (c : Connection) (m : Message) : Connection :=
  match c.send m with
  | .ok c => c
  | .error _ => c

/-- Takes the oldest message off the queue. -/
def pop (c : Connection) : Option (Message × Connection) :=
  match c.queue with
  | [] => none
  | m :: rest => some (m, { c with queue := rest })

/-- Closes the connection. -/
def close (c : Connection) : Connection := { c with closed := true }

/-- The connection once its writer has gone. Messages that were still queued are lost. -/
def abandon (c : Connection) : Connection := { c with abandoned := true, queue := [] }

/-- To close a connection again changes nothing. -/
@[simp] theorem close_close (c : Connection) : c.close.close = c.close := rfl

/-- A closed connection takes no message. -/
theorem send_close (c : Connection) (m : Message) :
    c.close.send m = .error (.queueClosed .connectionSend) := by simp [send, close]

/-- A closed connection cannot log on. -/
theorem logon_close (c : Connection) (sid uid : UInt64) : c.close.logon sid uid = none := by
  simp [logon, close]

/-- A message is queued just when the connection is open, its writer is there and there is room, and
nothing else changes. -/
theorem send_eq_ok_iff {c d : Connection} {m : Message} :
    c.send m = .ok d ↔
      c.closed = false ∧ c.abandoned = false ∧ c.queue.length < c.capacity ∧
      d = { c with queue := c.queue ++ [m] } := by
  constructor
  · intro h
    unfold send at h
    split at h
    · simp at h
    · next hc =>
      split at h
      · next hq =>
        simp only [Except.ok.injEq] at h
        simp only [not_or, Bool.not_eq_true] at hc
        exact ⟨hc.1, hc.2, hq, h.symm⟩
      · simp at h
  · rintro ⟨hc, ha, hq, rfl⟩
    simp [send, hc, ha, hq]

/-- A connection logs on just when it is open and its session was asked for, and nothing else
changes. -/
theorem logon_eq_some_iff {c d : Connection} {sid uid : UInt64} :
    c.logon sid uid = some d ↔
      c.status = .check ∧ c.closed = false ∧ d = { c with sid, uid, status := .logon } := by
  constructor
  · intro h
    unfold logon at h
    split at h
    · next hc =>
      simp only [Option.some.injEq] at h
      exact ⟨hc.1, hc.2, h.symm⟩
    · simp at h
  · rintro ⟨hs, hc, rfl⟩
    simp [logon, hs, hc]

end Connection

end EdgeGateway
