import EdgeGateway.Gateway.Socket

/-!
# A scripted client

A client at the other end of a socket notes what it sees. What the gateway writes is under way until
it arrives, which it does at once unless the client is told to hold it up. A client sees at most one
end of its socket, and nothing behind it.
-/

namespace EdgeGateway

/-- What a client sees. -/
inductive ClientEvent where
  | message (m : Message)
  | ping
  /-- The answer to a ping of its own. -/
  | pong (data : Bytes)
  /-- The gateway says farewell. -/
  | farewell
  /-- The socket ends without a farewell. -/
  | cutOff
  /-- The socket ends in one way or the other, as the client had asked. -/
  | parted
  deriving Repr, DecidableEq

/-- What a client sees of what the gateway gave to its socket. -/
def Outgoing.event : Outgoing → ClientEvent
  | .message m => .message m
  | .ping => .ping
  | .close => .farewell

/-- The other end of a socket. -/
structure Client where
  /-- The number of its connection, if it has got one. -/
  cid : Option UInt64 := none
  stalled : Bool := false
  /-- What was written and has not arrived. -/
  underway : List ClientEvent := []
  /-- What has arrived and has not been reported. -/
  seen : List ClientEvent := []
  /-- It has asked for the end of its socket. -/
  parting : Bool := false
  /-- The gateway has heard that, and writes nothing new. -/
  excused : Bool := false
  /-- It has seen the end of its socket. -/
  gone : Bool := false
  /-- It has left without a word, so that nothing can be written. -/
  vanished : Bool := false
  deriving Repr, DecidableEq

namespace Client

/-- Something is written for the client. -/
def put (c : Client) (e : ClientEvent) : Client :=
  if c.gone then c else { c with underway := c.underway ++ [e] }

/-- The client sees the end of its socket. -/
def finish (c : Client) (e : ClientEvent) : Client :=
  if c.gone then c
  else
    { c with
      seen := c.seen ++ [if c.parting then .parted else e]
      underway := []
      gone := true }

/-- The client sees something. -/
def see (c : Client) (e : ClientEvent) : Client :=
  match e with
  | .farewell | .cutOff | .parted => c.finish e
  | _ => if c.gone then c else { c with seen := c.seen ++ [e] }

/-- Everything that is under way arrives. -/
def arrive (c : Client) : Client := c.underway.foldl see { c with underway := [] }

/-- The client leaves without a word. -/
def vanish (c : Client) : Client :=
  { c with vanished := true, gone := true, underway := [], seen := [] }

end Client

end EdgeGateway
