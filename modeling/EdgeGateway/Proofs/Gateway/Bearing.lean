import EdgeGateway.Proofs.Gateway.CoherentRun
import EdgeGateway.Proofs.Gateway.Footing

/-!
# How far connections have come

What matters about a connection, once queues, rooms and evictions are left aside, is its session,
its status, whether it is closed, whether it can be reached and whether its session is routed to it.
Between two points at which it waits a worker changes little of this: `handled_run` says what can
come of a message that it has just taken, `run_waiting` what can come of one that it takes up again,
and `Closing.run_eq` what the end of a connection comes to.
-/

namespace EdgeGateway

/-- How far a connection has come. -/
structure Bearing where
  sid : UInt64
  status : Status
  closed : Bool
  /-- It can be reached by its number. -/
  live : Bool
  /-- Its session is routed to it. -/
  routed : Bool
  deriving Repr, DecidableEq

namespace Connection

/-- What a connection itself says about how far it has come. -/
def core (c : Connection) : UInt64 × Status × Bool := (c.sid, c.status, c.closed)

private theorem core_post (c : Connection) (m : Message) : (c.post m).core = c.core := by
  rw [post]
  split
  · next h =>
    obtain ⟨-, -, -, rfl⟩ := send_eq_ok_iff.1 h
    rfl
  · rfl

end Connection

namespace Hub

/-- How far a connection has come by the tables. -/
def bearingOf (h : Hub) (cid : UInt64) (c : Connection) : Bearing where
  sid := c.sid
  status := c.status
  closed := c.closed
  live := h.conns.isLive cid
  routed := h.router.lookup c.sid == some cid

/-- How far the connection with a given number has come, if there is one. -/
def bearing? (h : Hub) (cid : UInt64) : Option Bearing := (h.conns.find? cid).map (h.bearingOf cid)

/-- No connection comes any further, and nobody is told that a session has ended. -/
structure Quiet (h h' : Hub) : Prop where
  nid : h'.nid = h.nid
  farewells : h'.farewells = h.farewells
  bearing : ∀ cid, h'.bearing? cid = h.bearing? cid

variable {h h' : Hub} {cid : UInt64}

/-- To do nothing is quiet. -/
theorem Quiet.refl (h : Hub) : h.Quiet h := ⟨rfl, rfl, fun _ ↦ rfl⟩

/-- Quiet changes one after the other are quiet. -/
theorem Quiet.trans {h'' : Hub} (hq : h.Quiet h') (hq' : h'.Quiet h'') : h.Quiet h'' :=
  ⟨hq'.nid.trans hq.nid, hq'.farewells.trans hq.farewells,
    fun cid ↦ (hq'.bearing cid).trans (hq.bearing cid)⟩

/-- What a change to one connection does to how far connections have come. -/
theorem bearing?_modifyConn (h : Hub) (k : UInt64) (f : Connection → Connection) (cid : UInt64) :
    (h.modifyConn k f).bearing? cid =
      if cid = k then
        (h.conns.find? cid).map fun c ↦ h.bearingOf cid (f c)
      else h.bearing? cid := by
  have hf := Connections.find?_modify h.conns k cid f
  rw [bearing?, modifyConn, hf]
  split
  · next he =>
    subst he
    rw [Option.map_map]
    rfl
  · rfl

/-- A change of status changes nothing else. -/
theorem bearing?_setStatus (h : Hub) (k : UInt64) (status : Status) (cid : UInt64) :
    (h.modifyConn k fun c ↦ c.setStatus status).bearing? cid =
      (h.bearing? cid).map fun b ↦ if cid = k then { b with status } else b := by
  rw [bearing?_modifyConn]
  split
  · rw [bearing?, Option.map_map]
    rfl
  · rw [Option.map_id']

/-- The same change of status after what is quiet comes to the same. -/
theorem Quiet.setStatus (hq : h.Quiet h') (k : UInt64) (status : Status) :
    (h.modifyConn k fun c ↦ c.setStatus status).Quiet
      (h'.modifyConn k fun c ↦ c.setStatus status) := by
  refine ⟨hq.nid, hq.farewells, ?_⟩
  intro cid
  rw [bearing?_setStatus, bearing?_setStatus, hq.bearing]

/-- A change to a connection that says the same about itself as before is quiet. -/
theorem quiet_modifyConn (h : Hub) (k : UInt64) {f : Connection → Connection}
    (hf : ∀ c : Connection, (f c).core = c.core) : h.Quiet (h.modifyConn k f) := by
  refine ⟨rfl, rfl, ?_⟩
  intro cid
  rw [bearing?_modifyConn]
  split
  · rw [bearing?]
    congr 1
    funext c
    have hc := hf c
    simp only [Connection.core, Prod.mk.injEq] at hc
    simp only [bearingOf, hc]
  · rfl

/-- Putting back a connection that says the same about itself as before is quiet. -/
theorem quiet_store (hn : h.conns.Numbered) {k : UInt64} {c d : Connection}
    (hc : h.conns.find? k = some c) (hcid : d.cid = c.cid) (hd : d.core = c.core) :
    h.Quiet { h with conns := h.conns.store d } := by
  have hk : (h.modifyConn k fun _ ↦ d) = { h with conns := h.conns.store d } := by
    rw [Connections.store, hcid, hn.cid_eq k c hc]
    rfl
  rw [← hk]
  refine ⟨rfl, rfl, ?_⟩
  intro cid
  rw [bearing?_modifyConn]
  split
  · next he =>
    simp only [Connection.core, Prod.mk.injEq] at hd
    simp only [bearing?, he, hc, Option.map_some, bearingOf, hd]
  · rfl

/-- Queuing a message is quiet. -/
theorem quiet_post (h : Hub) (k : UInt64) (m : Message) : h.Quiet (h.post k m) :=
  h.quiet_modifyConn k fun c ↦ c.core_post m

/-- The time, the rooms and the evictions do not matter. -/
theorem quiet_rest (h : Hub) (now : Nat) (rooms : Rooms) (sweeper : Sweeper) :
    h.Quiet { h with now, rooms, sweeper } := ⟨rfl, rfl, fun _ ↦ rfl⟩

/-! ### Letting go -/

/-- The message by which the release of a connection tells the backend that its session has ended,
unless there is nothing to tell. -/
def parting? (h : Hub) (cid : UInt64) : Option Message := do
  let c ← h.conns.find? cid
  if c.sid ≠ 0 ∧ h.router.lookup c.sid = some cid ∧ c.status ≠ .logout then
    return h.farewell c.sid
  else none

/-- The tables once the session of a connection has been released. -/
def released (h : Hub) (cid : UInt64) : Hub :=
  match h.conns.find? cid with
  | none => h
  | some c =>
    if c.sid ≠ 0 ∧ h.router.lookup c.sid = some cid then
      { h with
        router := (h.router.unbind c.sid cid).2
        rooms := (h.rooms.removeSession c.sid).2
        farewells := h.farewells ++ (h.parting? cid).toList }
    else h

/-- A release does not change the number of the node. -/
theorem nid_released (h : Hub) (cid : UInt64) : (h.released cid).nid = h.nid := by
  rw [released]
  split
  · rfl
  · split <;> rfl

/-- A release leaves the connections alone. -/
theorem conns_released (h : Hub) (cid : UInt64) : (h.released cid).conns = h.conns := by
  rw [released]
  split
  · rfl
  · split <;> rfl

/-- The backend is told what is to be told. -/
theorem farewells_released (h : Hub) (cid : UInt64) :
    (h.released cid).farewells = h.farewells ++ (h.parting? cid).toList := by
  rw [released]
  split
  · next hf => simp [parting?, hf]
  · next c hf =>
    split
    · rfl
    · next hne =>
      have hp : h.parting? cid = none := by
        simp only [parting?, hf, Option.bind_eq_bind, Option.bind_some]
        exact if_neg fun hx ↦ hne ⟨hx.1, hx.2.1⟩
      rw [hp, Option.toList_none, List.append_nil]

private theorem routed_released {k : UInt64} {c : Connection} (hf : h.conns.find? cid = some c) :
    ((h.released k).router.lookup c.sid == some cid) =
      if cid = k ∧ c.sid ≠ 0 then false else h.router.lookup c.sid == some cid := by
  rw [released]
  split
  · next hk =>
    rw [if_neg]
    rintro ⟨rfl, -⟩
    rw [hf] at hk
    cases hk
  · next e he =>
    split
    · next hc =>
      rw [Router.lookup_unbind]
      by_cases hs : c.sid = e.sid
      · rw [if_pos ⟨hs, hc.2⟩]
        by_cases hk : cid = k
        · rw [if_pos ⟨hk, hs ▸ hc.1⟩]
          rfl
        · rw [if_neg fun hx ↦ hk hx.1, hs, hc.2]
          simpa using fun hx ↦ hk hx.symm
      · rw [if_neg fun hx ↦ hs hx.1, if_neg]
        rintro ⟨rfl, -⟩
        rw [hf] at he
        cases he
        exact hs rfl
    · next hc =>
      by_cases hk : cid = k ∧ c.sid ≠ 0
      · obtain ⟨rfl, h0⟩ := hk
        rw [hf] at he
        cases he
        rw [if_pos ⟨rfl, h0⟩, beq_eq_false_iff_ne]
        exact fun hx ↦ hc ⟨h0, hx⟩
      · rw [if_neg hk]

/-- The route of the session of a connection is gone after its release, if there is a session;
nothing else changes. -/
theorem bearing?_released (h : Hub) (k cid : UInt64) :
    (h.released k).bearing? cid = (h.bearing? cid).map fun b ↦
      if cid = k ∧ b.sid ≠ 0 then { b with routed := false } else b := by
  rw [bearing?, conns_released, bearing?, Option.map_map]
  cases hf : h.conns.find? cid with
  | none => rfl
  | some c =>
    have hr := routed_released (k := k) hf
    rw [Option.map_some, Option.map_some, Option.some.injEq, Function.comp_apply]
    show _ = if cid = k ∧ c.sid ≠ 0 then _ else _
    split at hr
    · next hk =>
      rw [if_pos hk]
      simp only [bearingOf, conns_released, hr]
    · next hk =>
      rw [if_neg hk]
      simp only [bearingOf, conns_released, hr]

/-! ### Being given a session -/

/-- The tables once a connection has been given a session and the session is routed to it. -/
def admitted (h : Hub) (cid : UInt64) (d : Connection) : Hub :=
  { h.modifyConn cid fun _ ↦ d with router := (h.router.bind d.sid cid).2 }

/-- Only the connection that is given the session and the one that loses it are affected. -/
theorem bearing?_admitted {c d : Connection} (hf : h.conns.find? cid = some c) (k : UInt64) :
    (h.admitted cid d).bearing? k =
      if k = cid then some ⟨d.sid, d.status, d.closed, h.conns.isLive cid, true⟩
      else (h.bearing? k).map fun b ↦ { b with routed := b.routed && b.sid != d.sid } := by
  have hk : (h.admitted cid d).conns.find? k = _ :=
    Connections.find?_modify h.conns cid k fun _ ↦ d
  have hl := fun s ↦ Router.lookup_bind h.router d.sid cid s
  rw [bearing?, hk]
  split
  · next he =>
    subst he
    simp [hf, bearingOf, admitted, modifyConn, hl]
  · next he =>
    rw [bearing?, Option.map_map]
    congr 1
    funext e
    have hne : (some cid == some k) = false := by simpa using fun hx ↦ he (Eq.symm hx)
    by_cases hs : e.sid = d.sid
    · simp [bearingOf, admitted, modifyConn, hl, hs, hne]
    · simp [bearingOf, admitted, modifyConn, hl, hs]

end Hub

/-! ### Releases and endings as a whole -/

private theorem Release.steps (h : Hub) (cid : UInt64) :
    ((inspect cid).step h = (h, none) ∧ h.released cid = h) ∨
    ∃ sid status, (inspect cid).step h = (h, some (unbind cid sid status)) ∧
      (((unbind cid sid status).step h = (h, none) ∧ h.released cid = h) ∨
        ∃ h₁, (unbind cid sid status).step h = (h₁, some (clear cid sid status)) ∧
          (clear cid sid status).step h₁ = (h.released cid, none)) := by
  cases hf : h.conns.find? cid with
  | none => exact .inl ⟨by simp only [step, hf], by simp only [Hub.released, hf]⟩
  | some c =>
    by_cases h0 : c.sid = 0
    · refine .inl ⟨by simp only [step, hf, if_pos h0], ?_⟩
      simp only [Hub.released, hf]
      exact if_neg fun hx ↦ hx.1 h0
    · refine .inr ⟨c.sid, c.status, by simp only [step, hf, if_neg h0], ?_⟩
      rw [step_unbind]
      by_cases hl : h.router.lookup c.sid = some cid
      · refine .inr ⟨{ h with router := (h.router.unbind c.sid cid).2 }, by rw [if_pos hl], ?_⟩
        by_cases hs : c.status = .logout
        · simp [step, Hub.released, Hub.parting?, hf, h0, hl, hs]
        · simp [step, Hub.released, Hub.parting?, Hub.farewell, hf, h0, hl, hs]
      · refine .inl ⟨by rw [if_neg hl], ?_⟩
        simp only [Hub.released, hf]
        exact if_neg fun hx ↦ hl hx.2

/-- The end of a connection, taken together: it becomes unreachable, its session is released, and it
is marked as gone. -/
theorem Closing.run_eq (h : Hub) (cid : UInt64) :
    Closing.run h cid =
      (({ h with conns := h.conns.deregister cid } : Hub).released cid).modifyConn cid fun c ↦
        c.setStatus .close := by
  rcases Release.steps { h with conns := h.conns.deregister cid } cid with
    ⟨h₁, hr⟩ | ⟨sid, status, h₁, ⟨h₂, hr⟩ | ⟨k, h₂, h₃⟩⟩
  · simp only [run, weight, run.go, step, h₁, hr]
  · simp only [run, weight, run.go, step, h₁, h₂, hr]
  · simp only [run, weight, run.go, step, h₁, h₂, h₃]

namespace Downlink

variable {h h' : Hub} {d d' : Downlink} {o : Outcome} {cid : UInt64}

private theorem go_eq {fuel fuel' : Nat} (hw : d.weight h < fuel) (hw' : d.weight h < fuel') :
    run.go fuel h d = run.go fuel' h d := by
  induction fuel generalizing h d fuel' with
  | zero => omega
  | succ fuel ih =>
    cases fuel' with
    | zero => omega
    | succ fuel' =>
      simp only [run.go]
      split
      · rfl
      · next hs =>
        have := weight_step hs
        exact ih (by omega) (by omega)
      · rfl

/-- A handling goes on as what it leads to. -/
theorem run_of_next (hs : d.step h = some (h', .next d')) : d.run h = d'.run h' := by
  have hw := weight_step hs
  rw [run, run.go, hs]
  exact go_eq hw (Nat.lt_succ_self _)

/-- A handling ends where a step ends it. -/
theorem run_of_done {r : Except Fault Unit} (hs : d.step h = some (h', .done r)) :
    d.run h = (h', .finished r) := by
  rw [run, run.go, hs]

/-- A handling that has to wait does nothing. -/
theorem run_of_none (hs : d.step h = none) : d.run h = (h, .blocked d) := by
  rw [run, run.go, hs]

/-- A release by a worker, taken together. -/
theorem run_release (h : Hub) (cid : UInt64) :
    ((release (.inspect cid)).run h).1 = h.released cid := by
  rcases Release.steps h cid with ⟨h₁, hr⟩
    | ⟨sid, status, h₁, ⟨h₂, hr⟩ | ⟨k, h₂, h₃⟩⟩
  · have s₁ : (release (.inspect cid)).step h = some (h, .done (.ok ())) := by
      simp only [step, h₁]
    rw [run_of_done s₁, hr]
  · have s₁ : (release (.inspect cid)).step h =
      some (h, .next (.release (.unbind cid sid status))) := by
      simp only [step, h₁]
    have s₂ : (release (.unbind cid sid status)).step h = some (h, .done (.ok ())) := by
      simp only [step, h₂]
    rw [run_of_next s₁, run_of_done s₂, hr]
  · have s₁ : (release (.inspect cid)).step h =
      some (h, .next (.release (.unbind cid sid status))) := by
      simp only [step, h₁]
    have s₂ : (release (.unbind cid sid status)).step h =
        some (k, .next (.release (.clear cid sid status))) := by
      simp only [step, h₂]
    have s₃ : (release (.clear cid sid status)).step k =
      some (h.released cid, .done (.ok ())) := by
      simp only [step, h₃]
    rw [run_of_next s₁, run_of_next s₂, run_of_done s₃]

/-! ### What a handling comes to -/

/-- The rest of a handling only queues messages, changes rooms and gives notice: no connection is
about to be given a session or to lose it. -/
def Calm (h : Hub) : Downlink → Prop
  | received .. | judge .. | logon .. | bind .. | rebind .. | displace .. | release .. | kick ..
  | reachKicked .. | expel .. => False
  | verify _ cid => ∀ c, h.conns.find? cid = some c → c.closed = false
  | evict _ after | waiting _ after =>
    ∀ x ∈ after, ∀ c, h.conns.find? x.2 = some c → c.closed = false
  | _ => True

private theorem calm_evict (h : Hub) (cid : UInt64) : (evict cid none).Calm h := by
  rintro x ⟨⟩

private theorem Calm.step (hd : d.Calm h) (hn : h.conns.Numbered) (hs : d.step h = some (h', o)) :
    h.Quiet h' ∧ ∀ d' ∈ o.calls, d'.Calm h' := by
  have done : ∀ r, h.Quiet h ∧ ∀ d' ∈ (Outcome.done r).calls, d'.Calm h :=
    fun _ ↦ ⟨.refl h, List.forall_mem_nil _⟩
  have next : ∀ {h' d'}, h.Quiet h' → d'.Calm h' →
      h.Quiet h' ∧ ∀ d ∈ (Outcome.next d').calls, d.Calm h' :=
    fun hq hd ↦ ⟨hq, List.forall_mem_singleton.2 hd⟩
  cases d with
  | refuse m k =>
    cases hs
    exact next (h.quiet_post k m) (calm_evict _ k)
  | verify m k =>
    simp only [Downlink.step] at hs
    split at hs <;> cases hs
    · next c hf =>
      rw [hd c hf]
      exact next (.refl h) trivial
    · exact done _
  | evict k after =>
    cases hs
    exact next (h.quiet_rest _ _ _) hd
  | waiting ticket after =>
    cases after <;> simp only [Downlink.step, behindNotice] at hs <;> split at hs <;> cases hs
    · exact done _
    · exact done _
    · exact next (.refl h) (hd _ rfl)
    · exact done _
  | fanOut m members =>
    cases members with
    | nil =>
      cases hs
      exact done _
    | cons x members =>
      simp only [Downlink.step] at hs
      split at hs <;> cases hs
      · exact next (h.quiet_post _ _) trivial
      · exact next (.refl h) trivial
  | hand m k =>
    simp only [Downlink.step] at hs
    split at hs
    · cases hs
      exact done _
    · next c hc =>
      split at hs <;> cases hs
      · next d hsend =>
        obtain ⟨-, -, -, rfl⟩ := Connection.send_eq_ok_iff.1 hsend
        exact ⟨Hub.quiet_store hn hc rfl rfl, List.forall_mem_nil _⟩
      · exact done _
  | join m rid gid | deliver m | reach m k =>
    simp only [Downlink.step] at hs
    split at hs <;> cases hs
    · exact next (.refl h) trivial
    · exact done _
  | enter m rid gid k | leave m rid =>
    cases hs
    exact next (h.quiet_rest _ _ _) trivial
  | gather m rid gid =>
    cases hs
    exact next (.refl h) trivial
  | _ => exact hd.elim

private theorem numbered_step (hn : h.conns.Numbered) (hs : d.step h = some (h', o)) :
    h'.conns.Numbered := (op_of_step hn hs).numbered hn

/-- A calm handling is quiet. -/
theorem Calm.quiet_run (hd : d.Calm h) (hn : h.conns.Numbered) : h.Quiet (d.run h).1 := by
  generalize hw : d.weight h = n
  induction n using Nat.strongRecOn generalizing h d with
  | ind n ih =>
    cases hs : d.step h with
    | none =>
      rw [run_of_none hs]
      exact .refl h
    | some x =>
      obtain ⟨h', o⟩ := x
      obtain ⟨hq, hc⟩ := hd.step hn hs
      cases o with
      | done r =>
        rw [run_of_done hs]
        exact hq
      | next d' =>
        rw [run_of_next hs]
        have hlt := weight_step hs
        exact hq.trans
          (ih _ (hw ▸ hlt) (hc d' (List.mem_singleton_self _)) (numbered_step hn hs) rfl)

end Downlink

/-- What can come of a message that a worker has just taken, once it waits or is done. -/
inductive Hub.Handled (h : Hub) : Hub → Prop
  | quiet {h' : Hub} : h.Quiet h' → Handled h h'
  /-- The backend has ended the session. -/
  | kicked {sid cid : UInt64} {c : Connection} {h' : Hub} : h.router.lookup sid = some cid →
    h.conns.get? cid = some c → (h.modifyConn cid fun c ↦ c.setStatus .kick).Quiet h' →
    Handled h h'
  /-- A connection has been given a session; whoever had it before cannot be reached any more. -/
  | admitted {sid cid uid : UInt64} {c d : Connection} {h' : Hub} : h.conns.find? cid = some c →
    c.logon sid uid = some d → (h.admitted cid d).Quiet h' → Handled h h'
  /-- A connection has been given a session, which another one has lost. -/
  | tookOver {sid cid uid old : UInt64} {c d e : Connection} {h' : Hub} :
    h.conns.find? cid = some c → c.logon sid uid = some d → h.router.lookup sid = some old →
    old ≠ cid → h.conns.get? old = some e →
    ((h.admitted cid d).modifyConn old fun c ↦ c.setStatus .kick).Quiet h' → Handled h h'

namespace Downlink

variable {h : Hub}

private theorem displace_run (hn : h.conns.Numbered) (m : Message) {k old : UInt64}
    (hne : old ≠ k) (hopen : ∀ c, h.conns.find? k = some c → c.closed = false) :
    h.Quiet ((displace m k old).run h).1 ∨ ∃ e, h.conns.get? old = some e ∧
      (h.modifyConn old fun c ↦ c.setStatus .kick).Quiet ((displace m k old).run h).1 := by
  cases hget : h.conns.get? old with
  | none =>
    have hs : (displace m k old).step h = some (h, .next (.evict old (some (m, k)))) := by
      simp only [step, hget]
    rw [run_of_next hs]
    refine .inl (Calm.quiet_run ?_ hn)
    rintro x ⟨⟩
    exact hopen
  | some e =>
    have hs : (displace m k old).step h =
        some ((h.post old (h.displacement m.sid)).modifyConn old fun c ↦ c.setStatus .kick,
          .next (.evict old (some (m, k)))) := by
      simp only [step, hget]
    have hk : ((h.post old (h.displacement m.sid)).modifyConn old fun c ↦
        c.setStatus .kick).conns.find? k = h.conns.find? k := by
      simp only [Hub.post, Hub.modifyConn, Connections.find?_modify, if_neg (Ne.symm hne)]
    rw [run_of_next hs]
    have hq := (h.quiet_post old (h.displacement m.sid)).setStatus old .kick
    refine .inr ⟨e, rfl, hq.trans (Calm.quiet_run ?_ (numbered_step hn hs))⟩
    rintro x ⟨⟩ c hc
    exact hopen c (hk ▸ hc)

/-- A verdict that gives no session to a connection does nothing. -/
theorem run_logon_of_none {m : Message} {k uid : UInt64}
    (hl : (h.conns.find? k).bind (fun c ↦ c.logon m.sid uid) = none) :
    (logon m k uid).run h = (h, .finished (.ok ())) :=
  run_of_done (by simp only [step, hl])

/-- A connection that is given a session has it from then on, and the session is routed to it.
Whoever had it before is marked, if it can still be reached. -/
theorem run_logon (hn : h.conns.Numbered) {m : Message} {k uid : UInt64} {c d : Connection}
    (hf : h.conns.find? k = some c) (hlog : c.logon m.sid uid = some d) :
    (h.admitted k d).Quiet ((logon m k uid).run h).1 ∨
      ∃ old e, h.router.lookup m.sid = some old ∧ old ≠ k ∧ h.conns.get? old = some e ∧
        ((h.admitted k d).modifyConn old fun c ↦ c.setStatus .kick).Quiet
        ((logon m k uid).run h).1 := by
  have hl : (h.conns.find? k).bind (fun c ↦ c.logon m.sid uid) = some d := by
    rw [hf, Option.bind_some, hlog]
  have hstore : h.conns.store d = h.conns.modify k fun _ ↦ d := by
    rw [Connections.store, (Connection.grows_of_logon hlog).cid, hn.cid_eq k c hf]
  obtain ⟨hsid, hopen⟩ : d.sid = m.sid ∧ d.closed = false := by
    obtain ⟨-, ho, rfl⟩ := Connection.logon_eq_some_iff.1 hlog
    exact ⟨rfl, ho⟩
  have s₁ : (logon m k uid).step h = some (h.modifyConn k fun _ ↦ d, .next (.bind m k)) := by
    simp only [step, hl, hstore]
    rfl
  have s₂ : (bind m k).step (h.modifyConn k fun _ ↦ d) =
      some (h.admitted k d, .next (.rebind m k ((h.router.lookup m.sid).filter (· ≠ k)))) := by
    simp only [Hub.admitted, hsid]
    rfl
  have hn₂ := numbered_step (numbered_step hn s₁) s₂
  have hfind : ∀ i, (h.admitted k d).conns.find? i =
    if i = k then some d else h.conns.find? i := by
    intro i
    have hi : (h.admitted k d).conns.find? i = _ := Connections.find?_modify h.conns k i fun _ ↦ d
    rw [hi, hf]
    rfl
  have hopen : ∀ e, (h.admitted k d).conns.find? k = some e → e.closed = false := by
    intro e he
    rw [hfind, if_pos rfl, Option.some.injEq] at he
    rw [← he, hopen]
  have hq := (h.admitted k d).quiet_rest h.now ((h.admitted k d).rooms.rebind m.sid k).2 h.sweeper
  rw [run_of_next s₁, run_of_next s₂]
  cases hold : (h.router.lookup m.sid).filter (· ≠ k) with
  | none =>
    have s₃ : (rebind m k none).step (h.admitted k d) = some (_, .next (.verify m k)) := rfl
    rw [run_of_next s₃]
    exact .inl (hq.trans (Calm.quiet_run hopen (numbered_step hn₂ s₃)))
  | some old =>
    obtain ⟨hroute, hne⟩ := Option.filter_eq_some_iff.1 hold
    have hne : old ≠ k := of_decide_eq_true hne
    have s₃ : (rebind m k (some old)).step (h.admitted k d) =
      some (_, .next (.displace m k old)) := rfl
    rw [run_of_next s₃]
    rcases displace_run (numbered_step hn₂ s₃) m hne hopen with hd | ⟨e, he, hd⟩
    · exact .inl (hq.trans hd)
    · obtain ⟨hlive, he⟩ := Connections.get?_eq_some_iff.1 he
      have he : h.conns.find? old = some e := by
        have hi := hfind old
        rwa [if_neg hne, show (h.admitted k d).conns.find? old = some e from he, eq_comm] at hi
      exact .inr ⟨old, e, hroute, hne, Connections.get?_eq_some_iff.2 ⟨hlive, he⟩,
        (hq.setStatus old .kick).trans hd⟩

private theorem handled_logon (hn : h.conns.Numbered) (m : Message) (k uid : UInt64) :
    h.Handled ((logon m k uid).run h).1 := by
  cases hl : (h.conns.find? k).bind fun c ↦ c.logon m.sid uid with
  | none =>
    rw [run_logon_of_none hl]
    exact .quiet (.refl h)
  | some d =>
    obtain ⟨c, hf, hlog⟩ := Option.bind_eq_some_iff.1 hl
    rcases run_logon hn hf hlog with hq | ⟨old, e, hroute, hne, he, hq⟩
    · exact .admitted hf hlog hq
    · exact .tookOver hf hlog hroute hne he hq

private theorem handled_judge (hn : h.conns.Numbered) (m : Message) (ack : OnlineAck) :
    h.Handled ((judge m ack).run h).1 := by
  cases hget : h.conns.get? ack.cid with
  | none =>
    have hs : (judge m ack).step h = some (h, .done (.error (.connectionNotFound ack.cid))) := by
      simp only [step, hget]
    rw [run_of_done hs]
    exact .quiet (.refl h)
  | some c =>
    have hs : (judge m ack).step h = some (h, .next (if ack.code = ResultCode.ok then
        .logon m ack.cid ack.uid else .refuse m ack.cid)) := by
      simp only [step, hget]
    rw [run_of_next hs]
    split
    · exact handled_logon hn m ack.cid ack.uid
    · exact .quiet (Calm.quiet_run trivial hn)

private theorem handled_kick (hn : h.conns.Numbered) (m : Message) :
    h.Handled ((kick m).run h).1 := by
  cases hl : h.router.lookup m.sid with
  | none =>
    have hs : (kick m).step h = some (h, .done (.error (.sessionNotFound m.sid))) := by
      simp only [step, hl]
    rw [run_of_done hs]
    exact .quiet (.refl h)
  | some k =>
    have s₁ : (kick m).step h = some (h, .next (.reachKicked m k)) := by simp only [step, hl]
    rw [run_of_next s₁]
    cases hget : h.conns.get? k with
    | none =>
      have hs : (reachKicked m k).step h = some (h, .done (.error (.connectionNotFound k))) := by
        simp only [step, hget]
      rw [run_of_done hs]
      exact .quiet (.refl h)
    | some c =>
      have s₂ : (reachKicked m k).step h = some (h, .next (.expel m k)) := by
        simp only [step, hget]
      have s₃ : (expel m k).step h = some ((h.modifyConn k fun c ↦ c.setStatus .kick).post k m,
        .next (.evict k none)) := rfl
      rw [run_of_next s₂, run_of_next s₃]
      exact .kicked hl hget ((Hub.quiet_post _ k m).trans
        (Calm.quiet_run (calm_evict _ k) (numbered_step hn s₃)))

/-- What can come of a message that a worker has just taken. -/
theorem handled_run (hn : h.conns.Numbered) (kind : DownlinkKind) (body : Bytes) :
    h.Handled ((received kind body).run h).1 := by
  cases hs : (received kind body).step h with
  | none =>
    rw [run_of_none hs]
    exact .quiet (.refl h)
  | some x =>
    obtain ⟨h', o⟩ := x
    obtain ⟨rfl, ⟨e, rfl⟩ | ⟨m, d, -, -, rfl, hb⟩⟩ := begins_of_received hs
    · rw [run_of_done hs]
      exact .quiet (.refl h')
    · rw [run_of_next hs]
      cases hb with
      | judge ack => exact handled_judge hn m ack
      | kick => exact handled_kick hn m
      | _ => exact .quiet (Calm.quiet_run trivial hn)

/-- The connection whose session a handling releases when it is taken up again. -/
def released? (h : Hub) : Downlink → Option UInt64
  | waiting ticket (some (_, cid)) =>
    if h.eviction ticket = .accepted ∧ (h.conns.find? cid).any (·.closed) then some cid else none
  | _ => none

/-- What comes of a message that a worker takes up again. -/
theorem run_waiting (hn : h.conns.Numbered) {d : Downlink} (hd : d.Waits) :
    match d.released? h with
    | some cid => (d.run h).1 = h.released cid
    | none => h.Quiet (d.run h).1 := by
  obtain ⟨ticket, after, rfl⟩ := hd
  cases after with
  | none =>
    refine Calm.quiet_run ?_ hn
    rintro x ⟨⟩
  | some x =>
    obtain ⟨m, k⟩ := x
    by_cases hc : h.eviction ticket = .accepted ∧ (h.conns.find? k).any (·.closed)
    · obtain ⟨c, hf, hcl⟩ := (Option.any_eq_true _ _).1 hc.2
      have s₁ : (waiting ticket (some (m, k))).step h = some (h, .next (.verify m k)) := by
        simp only [step, hc.1, behindNotice]
      have s₂ : (verify m k).step h = some (h, .next (.release (.inspect k))) := by
        simp only [step, hf, hcl, if_true]
      simp only [released?, if_pos hc]
      rw [run_of_next s₁, run_of_next s₂, run_release]
    · simp only [released?, if_neg hc]
      cases he : h.eviction ticket with
      | pending =>
        rw [run_of_none (by simp only [step, he])]
        exact .refl h
      | refused =>
        have hs : (waiting ticket (some (m, k))).step h =
            some (h, .done (.error (.queueClosed .eviction))) := by simp only [step, he]
        rw [run_of_done hs]
        exact .refl h
      | accepted =>
        refine Calm.quiet_run ?_ hn
        rintro x ⟨⟩ c hf
        rw [Bool.eq_false_iff]
        exact fun hcl ↦ hc ⟨he, by rw [hf]; exact hcl⟩

end Downlink

end EdgeGateway
