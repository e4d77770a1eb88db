import EdgeGateway.Wire.Header

/-!
# A client's socket

A client sends whole socket messages. Binary ones carry session messages; a close, a failure and the
end of the socket end what the client says; everything else is passed over.
-/

namespace EdgeGateway

/-- What comes out of a client's socket. -/
inductive SocketEvent where
  | binary (data : Bytes)
  | text
  | ping (data : Bytes)
  | pong
  | close
  | failed (cause : SocketFault)
  deriving Repr, DecidableEq

/-- What a socket event means to whoever listens for session messages. -/
inductive Received where
  | message (data : Bytes)
  /-- The client closed the socket. -/
  | closed
  | broken (cause : Fault)
  deriving Repr, DecidableEq

/-- The longest message that is taken from a client: the longest body behind a session header. -/
def maxMessageLength : Nat := maxBodyLength + SessionHeader.size

namespace SocketEvent

/-- The meaning of an event, if it has one. -/
def received? : SocketEvent → Option Received
  | binary data =>
    if maxMessageLength < data.length then
      some (.broken (.messageTooLarge data.length maxMessageLength))
    else some (.message data)
  | close => some .closed
  | failed cause => some (.broken (.socketRead cause))
  | text | ping _ | pong => none

/-- The first event with a meaning, and the events behind it. -/
def receive : List SocketEvent → Option Received × List SocketEvent
  | [] => (none, [])
  | e :: es =>
    match e.received? with
    | some r => (some r, es)
    | none => receive es

end SocketEvent

end EdgeGateway
