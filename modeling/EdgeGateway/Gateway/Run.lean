import EdgeGateway.Gateway.Basic

/-!
# Runs of a gateway

A move is whatever a gateway or the world around it can do next. A state is reachable if some
sequence of moves leads to it from a gateway that has not been started; nothing is said about who
moves when, so what holds of every reachable state holds under every schedule.
-/

namespace EdgeGateway.Gateway

/-- What a gateway or its world can do next. -/
inductive Move where
  | start (address : SocketAddress)
  /-- Time passes. -/
  | wait (ms : Nat)
  /-- A client connects. -/
  | connect
  /-- A client sends something. -/
  | say (cid : UInt64) (e : SocketEvent)
  | shutdown
  /-- The backend writes on a connection. -/
  | backendSays (wire : Nat) (b : Bytes)
  /-- The backend ends its side of a connection. -/
  | backendEnds (wire : Nat)
  /-- A link, its reader, its writer or a worker does something. -/
  | link (m : Pool.Move)
  | fetchCall (link worker : Nat)
  | resumeCall (link worker : Nat)
  | hear (cid : UInt64)
  | heed (cid : UInt64)
  | resumeListener (cid : UInt64)
  | takeMessage (cid : UInt64)
  | ping (cid : UInt64)
  | sayFarewell (cid : UInt64)
  | written (cid : UInt64)
  | failWrite (cid : UInt64)
  | giveUp (cid : UInt64)
  | closeSocket (cid : UInt64)
  | finishSocket (cid : UInt64)
  | sendFarewell (k : Nat)
  | sweepTake
  | sweepExpire
  | sweepFinish
  | report
  | resumeReporter
  | stopReporter
  | drain
  | complete
  deriving Repr, DecidableEq

/-- Makes a move, if it is possible. -/
def move? (g : Gateway) : Move → Option Gateway
  | .start address => some (g.start address)
  | .wait ms => some { g with hub := { g.hub with now := g.now + ms } }
  | .connect => g.open?.map (·.2)
  | .say cid e => some (g.arrive cid e)
  | .shutdown => some g.shutdown
  | .backendSays wire b => some { g with pool := g.pool.deliver wire b }
  | .backendEnds wire => some { g with pool := g.pool.finishInflow wire }
  | .link m => (g.pool.move? g.now m).map fun pool ↦ { g with pool }
  | .fetchCall i w => g.fetchCall i w
  | .resumeCall i w => g.resumeCall i w
  | .hear cid => g.hear cid
  | .heed cid => g.heed cid
  | .resumeListener cid => g.resumeListener cid
  | .takeMessage cid => g.takeMessage cid
  | .ping cid => g.ping cid
  | .sayFarewell cid => g.sayFarewell cid
  | .written cid => g.written cid
  | .failWrite cid => g.failWrite cid
  | .giveUp cid => g.giveUp cid
  | .closeSocket cid => g.closeSocket cid
  | .finishSocket cid => g.finishSocket cid
  | .sendFarewell k => g.sendFarewell k
  | .sweepTake => g.sweepTake
  | .sweepExpire => g.sweepExpire
  | .sweepFinish => g.sweepFinish
  | .report => g.report
  | .resumeReporter => g.resumeReporter
  | .stopReporter => g.stopReporter
  | .drain => g.drain
  | .complete => g.complete

/-- The states that a gateway with given settings can come to. -/
inductive Reachable (s : Settings) : Gateway → Prop where
  | fresh : Reachable s (fresh s)
  | move {g h : Gateway} (m : Move) : Reachable s g → g.move? m = some h → Reachable s h

/-- What holds at first and is kept by every move holds of every reachable state. -/
theorem Reachable.invariant {s : Settings} {P : Gateway → Prop} (initially : P (Gateway.fresh s))
    (kept : ∀ (g h : Gateway) (m : Move), P g → g.move? m = some h → P h) {g : Gateway}
    (hg : Reachable s g) : P g := by
  induction hg with
  | fresh => exact initially
  | move m _ hm ih => exact kept _ _ m ih hm

/-- The state after a sequence of moves, if all of them are possible. -/
def run? (g : Gateway) (ms : List Move) : Option Gateway := ms.foldlM move? g

/-- A run from a reachable state leads to reachable states. -/
theorem Reachable.run {s : Settings} {ms : List Move} :
    ∀ {g h : Gateway}, Reachable s g → g.run? ms = some h → Reachable s h := by
  induction ms with
  | nil =>
    rintro g h hg ⟨⟩
    exact hg
  | cons m ms ih =>
    intro g h hg hr
    obtain ⟨k, hk, hr⟩ := Option.bind_eq_some_iff.1 hr
    exact ih (hg.move m hk) hr

/-- Reachable are the states to which a run from the beginning leads. -/
theorem reachable_iff {s : Settings} {g : Gateway} :
    Reachable s g ↔ ∃ ms, (fresh s).run? ms = some g := by
  constructor
  · intro hg
    induction hg with
    | fresh => exact ⟨[], rfl⟩
    | move m _ hm ih =>
      obtain ⟨ms, hms⟩ := ih
      refine ⟨ms ++ [m], ?_⟩
      simp only [run?] at hms
      simp [run?, List.foldlM_append, hms, hm]
  · rintro ⟨ms, hms⟩
    exact Reachable.fresh.run hms

end EdgeGateway.Gateway
