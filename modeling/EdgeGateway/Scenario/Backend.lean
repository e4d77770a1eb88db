import EdgeGateway.Link.Pool
import EdgeGateway.Scenario.Schedule

/-!
# A scripted backend

The backend at the other end of the links does only what it is told. Dialling succeeds at once while
it listens, and fails at once while it does not. Writes succeed at once, unless it is told to hold
them up or to stop reading. It remembers what it has already reported.
-/

namespace EdgeGateway

/-- The other end of the links. -/
structure Backend where
  listening : Bool := true
  /-- The connections on which writes are held up. -/
  stalled : List Nat := []
  /-- The connections that it has left or on which it has stopped reading, so that writes fail. -/
  deaf : List Nat := []
  /-- How many frames of each connection have been reported. -/
  reported : List Nat := []
  /-- The connections whose end has been reported. -/
  ended : List Nat := []

/-- What has reached the backend since it last reported. -/
structure BackendReport where
  /-- Frames with their connections, by connection and in order of arrival. -/
  frames : List (Nat × Frame)
  /-- Connections that have come to their end. -/
  ended : List Nat

namespace Backend

variable {κ : Type}

/-- Holds up the writes on a connection, or lets them go on. -/
def stall (b : Backend) (wire : Nat) (on : Bool) : Backend :=
  { b with stalled := if on then b.stalled.insert wire else b.stalled.erase wire }

/-- Stops reading on a connection. -/
def deafen (b : Backend) (wire : Nat) : Backend := { b with deaf := b.deaf.insert wire }

/-- Writes bytes on a connection, unless it has ended its side. -/
def deliver (wire : Nat) (bytes : Bytes) (p : Pool κ) : Pool κ :=
  match p.wires[wire]? with
  | some w => if w.inflow.ended then p else p.deliver wire bytes
  | none => p

/-- Is this a frame of the transport's own, which is reported apart? -/
def isTransport (f : Frame) : Bool :=
  f.header.flag = .system &&
    (f.cmd = .keepaliveRequest || f.cmd = .keepaliveAck || f.cmd = .linkAuthRequest)

/-- The frames that have not been reported. -/
def unreported (b : Backend) (p : Pool κ) : List (Nat × Frame) :=
  p.wires.zipIdx.flatMap fun (w, i) ↦
    (w.written.drop (b.reported[i]?.getD 0)).map fun f ↦ (i, f)

/-- The connections whose end has not been reported. The backend does not see the end of one that it
has left. -/
def unreportedEnds (b : Backend) (p : Pool κ) : List Nat :=
  p.wires.zipIdx.filterMap fun (w, i) ↦
    if w.shut ∧ i ∉ b.deaf ∧ i ∉ b.ended then some i else none

/-- Reports what has arrived. -/
def report (b : Backend) (p : Pool κ) : BackendReport × Backend :=
  (⟨b.unreported p, b.unreportedEnds p⟩,
    { b with
      reported := p.wires.map (·.written.length)
      ended := b.ended ++ b.unreportedEnds p })

/-! ### The tasks of a link with this backend -/

/-- Writing what a link holds, as the backend has it. -/
def write (b : Backend) (now i : Nat) (p : Pool κ) : Option (Pool κ) := do
  let (wire, _, left) ← p.held? i
  if wire ∈ b.deaf then p.failWrite now i
  else if wire ∈ b.stalled then none
  else p.transmit i left.length

/-- What a link itself does: it dials, introduces itself, watches over its tasks and pauses. -/
def linkTask (b : Backend) (now i : Nat) : Pool κ → Option (Pool κ) :=
  Schedule.first [
    fun p ↦ p.halt i,
    fun p ↦ p.wake now i,
    fun p ↦ if b.listening then p.connect i else p.refuse now i,
    fun p ↦ if (p.service? i).isNone then b.write now i p else none,
    fun p ↦ p.supervise i true,
    fun p ↦ p.supervise i false,
    fun p ↦ p.conclude now i]

/-- What the reader of a link does. -/
def readerTask (i : Nat) : Pool κ → Option (Pool κ) :=
  Schedule.first [fun p ↦ p.stopReader i, fun p ↦ p.readOn i, fun p ↦ p.read i]

/-- What the writer of a link does. -/
def writerTask (b : Backend) (now i : Nat) : Pool κ → Option (Pool κ) :=
  Schedule.first [
    fun p ↦ if (p.service? i).isSome then b.write now i p else none,
    fun p ↦ p.stopWriter i,
    fun p ↦ p.fetchOutbound i]

/-- What the clock of the liveness questions does. -/
def tickerTask (now : Nat) : Pool κ → Option (Pool κ) :=
  Schedule.first [fun p ↦ p.stopTicker, fun p ↦ p.tick now]

/-- The workers of a link by their numbers. -/
def workersOf (p : Pool κ) (i : Nat) : List Nat :=
  match p.service? i with
  | some (_, s) => List.range s.workers.length
  | none => []

end Backend

end EdgeGateway
