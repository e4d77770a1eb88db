import EdgeGateway.Client.Socket
import EdgeGateway.Wire.Packet

/-!
# Reading from a client

A reader takes one message after the other from a client's socket and gives each to a handler. It
ends when the socket has come to its end or is broken, when it brings what is no message, and when
the handler wants no more. What the handler does is left open: it goes from state to state and says
after each message whether the reader is to go on.
-/

namespace EdgeGateway

/-- What the handler of a message wants of the reader. -/
inductive Flow where
  | proceed
  | disconnect
  deriving Repr, DecidableEq

namespace SocketEvent

variable {σ : Type}

/-- What has a meaning is taken from the socket. -/
theorem length_receive_lt {es rest : List SocketEvent} {r : Received}
    (h : receive es = (some r, rest)) : rest.length < es.length := by
  induction es with
  | nil => cases h
  | cons e es ih =>
    rw [receive] at h
    split at h
    · cases h
      exact Nat.lt_succ_self _
    · exact Nat.lt_succ_of_lt (ih h)

/-- Gives the messages that come out of a socket to a handler until the reader ends. Comes to the
state in which the handler is left, to what the reader says in the end, and to what it has not read.
-/
def readAll (handle : σ → Message → σ × Flow) (s : σ) (es : List SocketEvent) :
    σ × Except Fault Unit × List SocketEvent :=
  match _h : receive es with
  | (none, rest) | (some .closed, rest) => (s, .ok (), rest)
  | (some (.broken cause), rest) => (s, .error cause, rest)
  | (some (.message data), rest) =>
    match Packet.parse (H := SessionHeader) data with
    | .error cause => (s, .error (.malformedFrame cause), rest)
    | .ok m =>
      match handle s m with
      | (s, .disconnect) => (s, .ok (), rest)
      | (s, .proceed) => readAll handle s rest
termination_by es.length
decreasing_by exact length_receive_lt (by assumption)

/-- What reading comes to, without the reason why it ends. -/
theorem readAll_eq (handle : σ → Message → σ × Flow) (s : σ) (es : List SocketEvent) :
    readAll handle s es = match receive es with
      | (none, rest) | (some .closed, rest) => (s, .ok (), rest)
      | (some (.broken cause), rest) => (s, .error cause, rest)
      | (some (.message data), rest) =>
        match Packet.parse (H := SessionHeader) data with
        | .error cause => (s, .error (.malformedFrame cause), rest)
        | .ok m =>
          match handle s m with
          | (s, .disconnect) => (s, .ok (), rest)
          | (s, .proceed) => readAll handle s rest := by
  rw [readAll]
  split <;> next h => rw [h]

end SocketEvent

end EdgeGateway
