import EdgeGateway.Channel
import EdgeGateway.Wire.FrameStream

/-!
# Links

A link keeps one connection to the backend alive at a time. While it is connected it is served by a
reader, a writer and some workers, who end together: as soon as one of them ends the others are told
to stop, and only when all have ended does the link pause and dial again.
-/

namespace EdgeGateway

/-- What can be seen of a link from outside. -/
inductive LinkState where
  | dialing
  | connected
  | draining
  | stopped
  deriving Repr, DecidableEq

namespace LinkState

/-- The name of a state. -/
def name : LinkState → String
  | dialing => "Dialing"
  | connected => "Connected"
  | draining => "Draining"
  | stopped => "Stopped"

end LinkState

/-- One connection to the backend. -/
structure Wire where
  /-- What the backend wrote and nobody has read. -/
  inflow : Inflow := {}
  /-- The portions in which bytes were written to the backend, latest first. -/
  portions : List Bytes := []
  /-- The frames that were written to their end, latest first. -/
  finished : List Frame := []
  /-- No more is written. -/
  shut : Bool := false
  deriving Repr, DecidableEq

namespace Wire

/-- All bytes that were written to the backend. -/
def bytes (w : Wire) : Bytes := w.portions.reverse.flatten

/-- The frames that were written to their end, in the order in which they were written. -/
def written (w : Wire) : List Frame := w.finished.reverse

/-- Writes a portion of a frame, and counts the frame as written if this was the last of it. -/
def write (w : Wire) (f : Frame) (portion left : Bytes) : Wire :=
  { w with
    portions := portion :: w.portions
    finished := if left.isEmpty then f :: w.finished else w.finished }

/-- A write adds the portion to what stands on the connection. -/
@[simp] theorem bytes_write (w : Wire) (f : Frame) (portion left : Bytes) :
    (w.write f portion left).bytes = w.bytes ++ portion := by
  simp [write, bytes]

/-- A frame counts as written once nothing of it is left. -/
theorem written_write (w : Wire) (f : Frame) (portion left : Bytes) :
    (w.write f portion left).written = if left.isEmpty then w.written ++ [f] else w.written := by
  unfold write written
  split <;> simp

end Wire

/-- What the reader of a connection is doing. -/
inductive Reader where
  | reading
  /-- It waits for room in the inbound queue. -/
  | offering (ticket : Nat)
  | ended
  deriving Repr, DecidableEq

/-- What the writer of a connection is doing. -/
inductive Writer where
  | idle
  /-- It holds a frame of which some bytes are still to be written. -/
  | writing (f : Frame) (left : Bytes)
  | ended
  deriving Repr, DecidableEq

/-- What a worker is doing: nothing, or a call that it has not finished. -/
inductive Worker (κ : Type) where
  | idle
  | busy (call : κ)
  | ended
  deriving Repr, DecidableEq

/-- The tasks that serve a connection. -/
structure Service (κ : Type) where
  wire : Nat
  reader : Reader := .reading
  writer : Writer := .idle
  workers : List (Worker κ)
  /-- The tasks are told to stop. -/
  stopping : Bool := false
  /-- The link will not dial again. -/
  final : Bool := false
  deriving Repr, DecidableEq

namespace Service

variable {κ : Type}

/-- Has the reader, the writer or a worker ended? -/
def SomeEnded (s : Service κ) : Prop :=
  s.reader = .ended ∨ s.writer = .ended ∨ ∃ w ∈ s.workers, w matches .ended

/-- Whether a task has ended can be seen. -/
instance (s : Service κ) : Decidable s.SomeEnded := inferInstanceAs (Decidable (_ ∨ _ ∨ _))

/-- Have the reader, the writer and all workers ended? -/
def AllEnded (s : Service κ) : Prop :=
  s.reader = .ended ∧ s.writer = .ended ∧ ∀ w ∈ s.workers, w matches .ended

/-- Whether all tasks have ended can be seen. -/
instance (s : Service κ) : Decidable s.AllEnded := inferInstanceAs (Decidable (_ ∧ _ ∧ _))

end Service

/-- What a link is doing. -/
inductive LinkPhase (κ : Type) where
  /-- It has not been launched. -/
  | unlaunched
  | dialing
  /-- It is connected and writes its introduction. -/
  | greeting (wire : Nat) (left : Bytes)
  | serving (s : Service κ)
  /-- It pauses before it dials again. -/
  | resting (wakeAt : Nat)
  | stopped
  deriving Repr, DecidableEq

/-- One link to the backend. -/
structure Link (κ : Type) where
  state : LinkState := .dialing
  phase : LinkPhase κ := .unlaunched
  /-- The transport's own frames that wait to be written. They survive a lost connection. -/
  system : Channel Frame
  deriving Repr, DecidableEq

namespace Link

variable {κ : Type}

/-- The number of frames of its own that a link keeps waiting. -/
def systemCapacity : Nat := 16

/-- A link that has not been launched. -/
def fresh : Link κ := { system := .empty systemCapacity }

/-- The tasks of a link that is being served. -/
def service? (l : Link κ) : Option (Service κ) :=
  match l.phase with
  | .serving s => some s
  | _ => none

/-- The same link, served by tasks in another state. -/
def serve (l : Link κ) (s : Service κ) : Link κ := { l with phase := .serving s }

end Link

end EdgeGateway
