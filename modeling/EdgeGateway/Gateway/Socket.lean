import EdgeGateway.Client.Socket
import EdgeGateway.Gateway.Uplink

/-!
# The tasks of a connection

Every connection has a listener, which handles what the client sends one message after the other,
and a speaker, which writes what is queued for the client and asks now and then whether it is still
there. As soon as one of them ends the connection is closed, which ends the other in time: the
speaker writes what is queued and a farewell first, each under a deadline.
-/

namespace EdgeGateway

/-- What a speaker gives to the socket. -/
inductive Outgoing where
  | message (m : Message)
  | ping
  | close
  deriving Repr, DecidableEq

/-- What the listener of a connection is doing. -/
inductive Listener where
  | listening
  /-- What it passes on waits for room in the outbound queue. -/
  | forwarding (ticket : Nat) (after : AfterForward)
  /-- The notice to its connection waits for room in the queue of evictions. -/
  | evicting (ticket : Nat)
  | ended
  deriving Repr, DecidableEq

/-- What the speaker of a connection is doing. -/
inductive Speaker where
  | idle
  /-- It writes what it gave to the socket last. -/
  | writing (deadline : Nat)
  /-- It writes the last there is. -/
  | closing (deadline : Nat)
  | ended
  deriving Repr, DecidableEq

/-- The socket of a connection and the tasks that serve it. -/
structure Socket where
  /-- What the client sent and the listener has not heard. -/
  inbox : List SocketEvent := []
  listener : Listener := .listening
  speaker : Speaker := .idle
  /-- When the client is next asked whether it is still there. -/
  pingDue : Nat
  /-- Everything that was given to the socket. -/
  handed : List Outgoing := []
  /-- The end of the connection has been dealt with. -/
  finished : Bool := false
  deriving Repr, DecidableEq

namespace Socket

/-- Gives something to the socket. -/
def hand (s : Socket) (o : Outgoing) (speaker : Speaker) : Socket :=
  { s with handed := s.handed ++ [o], speaker }

/-- Has one of the tasks ended? -/
def SomeEnded (s : Socket) : Prop := s.listener = .ended ∨ s.speaker = .ended

/-- Whether a task has ended can be seen. -/
instance (s : Socket) : Decidable s.SomeEnded := inferInstanceAs (Decidable (_ ∨ _))

/-- Have both tasks ended? -/
def AllEnded (s : Socket) : Prop := s.listener = .ended ∧ s.speaker = .ended

/-- Whether both tasks have ended can be seen. -/
instance (s : Socket) : Decidable s.AllEnded := inferInstanceAs (Decidable (_ ∧ _))

end Socket

end EdgeGateway
