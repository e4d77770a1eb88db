import EdgeGateway.Body.System
import EdgeGateway.Clock
import EdgeGateway.Config.Settings
import EdgeGateway.Link.Basic

/-!
# The pool of links

The links of a gateway share two bounded queues: one of frames that go out, which the writers of all
links empty, and one of frames that came in, which all workers empty. What a pool can do next is a
collection of moves, each of which says when it is possible. Any order of moves is a run of the
pool; dialling, writing and reading succeed or fail as the world has it, so these moves are there
for both.

A worker's part is left to whoever owns the pool: `fetchInbound` gives a frame to a worker, and the
owner puts the call that comes of it into the worker's hands.
-/

namespace EdgeGateway

/-- The frame that introduces a new connection to the backend. -/
def LinkSettings.introduction (s : LinkSettings) : Frame :=
  .make .linkAuthRequest s.nid .system
    (Body.encode ({ nid := s.nid, usr := s.user, passwd := s.password } : LinkAuthRequest))

/-- What the clock of the liveness questions is doing. -/
inductive Ticker where
  | unlaunched
  | waiting (due : Nat)
  | ended
  deriving Repr, DecidableEq

/-- The links of a gateway with the queues they share. -/
structure Pool (κ : Type) where
  settings : LinkSettings
  outbound : Channel Frame
  inbound : Channel Frame
  links : List (Link κ)
  /-- Every connection there ever was, in the order in which they came about. -/
  wires : List Wire := []
  ticker : Ticker := .unlaunched
  /-- The shutdown signal has been raised. -/
  stopping : Bool := false
  deriving Repr

namespace Pool

variable {κ : Type}

/-- A pool that has not been launched. There is at least one link. -/
def fresh (s : LinkSettings) : Pool κ where
  settings := s
  outbound := .empty s.outboundCapacity
  inbound := .empty s.inboundCapacity
  links := List.replicate (max s.links 1) .fresh

/-- Changes one link. -/
def setLink (p : Pool κ) (i : Nat) (l : Link κ) : Pool κ := { p with links := p.links.set i l }

/-- Changes one connection. -/
def modifyWire (p : Pool κ) (w : Nat) (f : Wire → Wire) : Pool κ :=
  { p with wires := p.wires.modify w f }

/-- The tasks that serve a link. -/
def service? (p : Pool κ) (i : Nat) : Option (Link κ × Service κ) := do
  let l ← p.links[i]?
  let s ← l.service?
  return (l, s)

/-- The states of the links as they can be seen from outside. -/
def states (p : Pool κ) : List LinkState := p.links.map (·.state)

/-- Queues a frame for the backend, and gives the ticket of the sending. -/
def send (p : Pool κ) (f : Frame) : Nat × Pool κ :=
  let (ticket, outbound) := p.outbound.send f
  (ticket, { p with outbound })

/-- The frame of the gateway's node for `cmd` that carries `body`. -/
def frame (p : Pool κ) (cmd : Command) (body : Bytes) : Frame :=
  .make cmd p.settings.nid .user body

/-! ### Launching and shutting down -/

/-- Launches the links and the liveness questions. A pool is launched only once. -/
def launch (p : Pool κ) (now : Nat) : Pool κ :=
  if p.ticker = .unlaunched then
    { p with
      links := p.links.map fun l ↦ { l with phase := .dialing }
      ticker := .waiting (now + p.settings.keepaliveInterval) }
  else p

/-- Raises the shutdown signal, which a pool that has not been launched does not hear. -/
def signal (p : Pool κ) : Pool κ :=
  if p.ticker = .unlaunched then p else { p with stopping := true }

/-- Has a shutdown nothing to wait for any more? -/
def AtRest (p : Pool κ) : Prop :=
  p.ticker = .unlaunched ∨
    ((∀ l ∈ p.links, l.phase matches .stopped) ∧ p.ticker = .ended)

/-- Whether a pool is at rest can be seen. -/
instance (p : Pool κ) : Decidable p.AtRest := inferInstanceAs (Decidable (_ ∨ _ ∧ _))

/-! ### Dialling and pausing -/

/-- Dialling succeeds: there is a new connection, on which the link introduces itself first. -/
def connect (p : Pool κ) (i : Nat) : Option (Pool κ) := do
  let l ← p.links[i]?
  match l.phase with
  | .dialing =>
    let p := p.setLink i
      { l with
        state := .connected, phase := .greeting p.wires.length p.settings.introduction.bytes }
    return { p with wires := p.wires ++ [{}] }
  | _ => none

/-- Dialling fails, and the link pauses. -/
def refuse (p : Pool κ) (now i : Nat) : Option (Pool κ) := do
  let l ← p.links[i]?
  match l.phase with
  | .dialing => return p.setLink i { l with phase := .resting (now + p.settings.reconnectInterval) }
  | _ => none

/-- A pause is over, and the link dials again. -/
def wake (p : Pool κ) (now i : Nat) : Option (Pool κ) := do
  let l ← p.links[i]?
  match l.phase with
  | .resting wakeAt =>
    if wakeAt ≤ now then
      return p.setLink i { l with state := .dialing, phase := .dialing }
    else none
  | _ => none

/-- A link that is not connected hears the shutdown signal. -/
def halt (p : Pool κ) (i : Nat) : Option (Pool κ) := do
  let l ← p.links[i]?
  if ¬ p.stopping then none
  else match l.phase with
    | .dialing | .resting _ => return p.setLink i { l with state := .stopped, phase := .stopped }
    | _ => none

/-! ### Writing -/

/-- The tasks of a connection that has just introduced itself. There is at least one worker. -/
def newService (p : Pool κ) (wire : Nat) : Service κ :=
  { wire, workers := List.replicate (max p.settings.workers 1) .idle }

/-- The frame and the bytes of it that a link is about to write, and on which connection. -/
def held? (p : Pool κ) (i : Nat) : Option (Nat × Frame × Bytes) := do
  let l ← p.links[i]?
  match l.phase with
  | .greeting wire left => return (wire, p.settings.introduction, left)
  | .serving s =>
    match s.writer with
    | .writing f left => return (s.wire, f, left)
    | _ => none
  | _ => none

/-- What a link does when `left` is still to be written of what it holds. -/
def afterWrite (p : Pool κ) (l : Link κ) (left : Bytes) : Link κ :=
  match l.phase with
  | .greeting wire _ =>
    if left.isEmpty then l.serve (p.newService wire) else { l with phase := .greeting wire left }
  | .serving s =>
    match s.writer with
    | .writing f _ =>
      l.serve { s with writer := if left.isEmpty then .idle else .writing f left }
    | _ => l
  | _ => l

/-- The backend takes up to `n` bytes of what a link holds. -/
def transmit (p : Pool κ) (i n : Nat) : Option (Pool κ) := do
  let (wire, f, left) ← p.held? i
  let l ← p.links[i]?
  if n = 0 then none
  else return (p.setLink i (p.afterWrite l (left.drop n))).modifyWire wire fun w ↦
    w.write f (left.take n) (left.drop n)

/-- Writing fails. What the link holds is lost. -/
def failWrite (p : Pool κ) (now i : Nat) : Option (Pool κ) := do
  let (wire, _, _) ← p.held? i
  let l ← p.links[i]?
  let p := p.modifyWire wire fun w ↦ { w with shut := true }
  match l.phase with
  | .greeting .. =>
    return p.setLink i
      { l with state := .draining, phase := .resting (now + p.settings.reconnectInterval) }
  | .serving s => return p.setLink i (l.serve { s with writer := .ended })
  | _ => none

/-- The writer takes the next frame: one of the link's own if there is any, else one of those that
all links share. -/
def fetchOutbound (p : Pool κ) (i : Nat) : Option (Pool κ) := do
  let (l, s) ← p.service? i
  if s.writer ≠ .idle ∨ s.stopping then none
  else match l.system.receive with
    | some (f, system) =>
      return p.setLink i ({ l with system }.serve { s with writer := .writing f f.bytes })
    | none => do
      let (f, outbound) ← p.outbound.receive
      return { p.setLink i (l.serve { s with writer := .writing f f.bytes }) with outbound }

/-- The writer stops, and nothing more is written on its connection. -/
def stopWriter (p : Pool κ) (i : Nat) : Option (Pool κ) := do
  let (l, s) ← p.service? i
  if s.writer = .idle ∧ s.stopping then
    return (p.setLink i (l.serve { s with writer := .ended })).modifyWire s.wire fun w ↦
      { w with shut := true }
  else none

/-! ### Reading -/

/-- The answer to a liveness question of the backend. -/
def keepaliveAnswer (p : Pool κ) : Frame := .make .keepaliveAck p.settings.nid .system []

/-- What reading a frame does: the transport's own frames are dealt with on the spot, all others are
offered to the workers. -/
def accept (p : Pool κ) (i : Nat) (l : Link κ) (s : Service κ) (f : Frame) : Pool κ :=
  if f.header.flag = .system then
    if f.cmd = .keepaliveRequest then
      p.setLink i { l with system := l.system.offer p.keepaliveAnswer }
    else p
  else
    let (ticket, inbound) := p.inbound.send f
    let reader := if inbound.delivery ticket = .accepted then .reading else .offering ticket
    { p.setLink i (l.serve { s with reader }) with inbound }

/-- The reader reads the next frame, if enough bytes have arrived or none will. -/
def read (p : Pool κ) (i : Nat) : Option (Pool κ) := do
  let (l, s) ← p.service? i
  if s.reader ≠ .reading then none
  else
    let w ← p.wires[s.wire]?
    match w.inflow.readFrame with
    | .waiting => none
    | .broken _ inflow =>
      return (p.setLink i (l.serve { s with reader := .ended })).modifyWire s.wire fun w ↦
        { w with inflow }
    | .dropped inflow => return p.modifyWire s.wire fun w ↦ { w with inflow }
    | .frame f inflow => return (p.modifyWire s.wire fun w ↦ { w with inflow }).accept i l s f

/-- The reader learns that there was room for the frame it offered. -/
def readOn (p : Pool κ) (i : Nat) : Option (Pool κ) := do
  let (l, s) ← p.service? i
  match s.reader with
  | .offering ticket =>
    if p.inbound.delivery ticket = .accepted then
      return p.setLink i (l.serve { s with reader := .reading })
    else none
  | _ => none

/-- The reader stops, and takes back a frame for which there was no room. -/
def stopReader (p : Pool κ) (i : Nat) : Option (Pool κ) := do
  let (l, s) ← p.service? i
  if ¬ s.stopping then none
  else match s.reader with
    | .ended => none
    | .reading => return p.setLink i (l.serve { s with reader := .ended })
    | .offering ticket =>
      return { p.setLink i (l.serve { s with reader := .ended }) with
        inbound := p.inbound.withdraw ticket }

/-- The reader is told to stop while it has a frame for the workers in its hands, and drops the
frame although there may be room for it. -/
def readLast (p : Pool κ) (i : Nat) : Option (Pool κ) := do
  let (l, s) ← p.service? i
  if s.reader ≠ .reading ∨ ¬ s.stopping then none
  else
    let w ← p.wires[s.wire]?
    match w.inflow.readFrame with
    | .frame f inflow =>
      if f.header.flag = .system then none
      else return (p.setLink i (l.serve { s with reader := .ended })).modifyWire s.wire fun w ↦
        { w with inflow }
    | _ => none

/-! ### Workers -/

/-- What a worker is doing. -/
def worker? (p : Pool κ) (i w : Nat) : Option (Worker κ) := do
  let (_, s) ← p.service? i
  s.workers[w]?

/-- Puts something into a worker's hands. -/
def setWorker (p : Pool κ) (i w : Nat) (x : Worker κ) : Pool κ :=
  match p.service? i with
  | some (l, s) => p.setLink i (l.serve { s with workers := s.workers.set w x })
  | none => p

/-- An idle worker takes the next frame that came in. -/
def fetchInbound (p : Pool κ) (i w : Nat) : Option (Frame × Pool κ) := do
  match ← p.worker? i w with
  | .idle =>
    let (f, inbound) ← p.inbound.receive
    return (f, { p with inbound })
  | _ => none

/-- An idle worker stops. -/
def stopWorker (p : Pool κ) (i w : Nat) : Option (Pool κ) := do
  let (_, s) ← p.service? i
  match ← s.workers[w]? with
  | .idle => if s.stopping then return p.setWorker i w .ended else none
  | _ => none

/-! ### Supervision -/

/-- The tasks of a link are told to stop: because the pool shuts down, if `final`, or because one of
them has ended. -/
def supervise (p : Pool κ) (i : Nat) (final : Bool) : Option (Pool κ) := do
  let (l, s) ← p.service? i
  if s.stopping then none
  else if if final then p.stopping = true else s.SomeEnded then
    return p.setLink i ({ l with state := .draining }.serve { s with stopping := true, final })
  else none

/-- All tasks of a link have ended: it stops for good or pauses. -/
def conclude (p : Pool κ) (now i : Nat) : Option (Pool κ) := do
  let (l, s) ← p.service? i
  if s.stopping ∧ s.AllEnded then
    if s.final then return p.setLink i { l with state := .stopped, phase := .stopped }
    else return p.setLink i { l with phase := .resting (now + p.settings.reconnectInterval) }
  else none

/-- Asks the backend on a link whether it is alive, if the link is connected. -/
def question (p : Pool κ) (l : Link κ) : Link κ :=
  if l.state = .connected then
    { l with system := l.system.offer (.make .keepaliveRequest p.settings.nid .system []) }
  else l

/-- The time has come to ask the backend on every connected link whether it is alive. -/
def tick (p : Pool κ) (now : Nat) : Option (Pool κ) :=
  match p.ticker with
  | .waiting due =>
    if due ≤ now then some { p with
      links := p.links.map p.question
      ticker := .waiting (Clock.nextTick due now p.settings.keepaliveInterval) }
    else none
  | _ => none

/-- The liveness questions end. -/
def stopTicker (p : Pool κ) : Option (Pool κ) :=
  match p.ticker with
  | .waiting _ => if p.stopping then some { p with ticker := .ended } else none
  | _ => none

/-! ### The backend's side -/

/-- The backend writes bytes on a connection. -/
def deliver (p : Pool κ) (w : Nat) (b : Bytes) : Pool κ :=
  p.modifyWire w fun x ↦ { x with inflow := x.inflow.push b }

/-- The backend will write no more on a connection. -/
def finishInflow (p : Pool κ) (w : Nat) : Pool κ :=
  p.modifyWire w fun x ↦ { x with inflow := x.inflow.finish }

/-- The instants at which a pause is over or the backend is asked whether it is alive. -/
def instants (p : Pool κ) : List Nat :=
  (p.links.filterMap fun l ↦ match l.phase with
    | .resting wakeAt => some wakeAt
    | _ => none) ++
  match p.ticker with
  | .waiting due => [due]
  | _ => []

/-- What a link, its reader, its writer or a worker can do without the help of a handler. -/
inductive Move where
  | connect (link : Nat)
  | refuse (link : Nat)
  | wake (link : Nat)
  | halt (link : Nat)
  | transmit (link n : Nat)
  | failWrite (link : Nat)
  | fetchOutbound (link : Nat)
  | stopWriter (link : Nat)
  | read (link : Nat)
  | readOn (link : Nat)
  | stopReader (link : Nat)
  | readLast (link : Nat)
  | stopWorker (link worker : Nat)
  | supervise (link : Nat) (final : Bool)
  | conclude (link : Nat)
  | tick
  | stopTicker
  deriving Repr, DecidableEq

/-- Makes a move, if it is possible. -/
def move? (p : Pool κ) (now : Nat) : Move → Option (Pool κ)
  | .connect i => p.connect i
  | .refuse i => p.refuse now i
  | .wake i => p.wake now i
  | .halt i => p.halt i
  | .transmit i n => p.transmit i n
  | .failWrite i => p.failWrite now i
  | .fetchOutbound i => p.fetchOutbound i
  | .stopWriter i => p.stopWriter i
  | .read i => p.read i
  | .readOn i => p.readOn i
  | .stopReader i => p.stopReader i
  | .readLast i => p.readLast i
  | .stopWorker i w => p.stopWorker i w
  | .supervise i final => p.supervise i final
  | .conclude i => p.conclude now i
  | .tick => p.tick now
  | .stopTicker => p.stopTicker

end Pool

end EdgeGateway
