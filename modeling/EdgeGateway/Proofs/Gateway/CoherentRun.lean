import EdgeGateway.Proofs.Gateway.Coherence

/-!
# Coherence over whole runs

Between two points at which it may wait a task works on the tables alone, so it is enough that each
of its steps takes up what the one before it left out of step, and that nothing is left when it
waits. `Midway` says how the tables stand before each step. The main statement is
`sessions_coherent`: in every state of every run the routes, the connections and the rooms tell the
same.
-/

namespace EdgeGateway

/-! ### Letting go of a connection -/

/-- How the tables stand before a step of a release. -/
def Release.Midway (h : Hub) : Release → Prop
  | inspect cid =>
    h.CoherentBut { gone := some cid } ∧ ∃ c, h.conns.find? cid = some c ∧ c.closed = true
  | unbind cid sid _ =>
    h.CoherentBut { gone := some cid } ∧
      ∃ c, h.conns.find? cid = some c ∧ c.closed = true ∧ c.sid = sid
  | clear cid sid _ =>
    h.CoherentBut { astray := some sid } ∧ ∀ sid, h.router.lookup sid ≠ some cid

private theorem Release.Midway.step {h h' : Hub} {r r' : Release} (hm : r.Midway h)
    (hs : r.step h = (h', some r')) : r'.Midway h' ∧ r'.cid = r.cid := by
  cases r with
  | inspect cid =>
    obtain ⟨hc, c, hf, hcl⟩ := hm
    simp only [Release.step, hf, Prod.mk.injEq] at hs
    obtain ⟨rfl, hs⟩ := hs
    split at hs <;> cases hs
    exact ⟨⟨hc, c, hf, hcl, rfl⟩, rfl⟩
  | unbind cid sid status =>
    obtain ⟨hc, c, hf, hcl, hsid⟩ := hm
    rw [step_unbind] at hs
    split at hs <;> cases hs
    exact ⟨hc.unbind hf hcl hsid, rfl⟩
  | clear cid sid status => cases hs

/-- A release that is over leaves coherent tables and no route to its connection. -/
theorem Release.Midway.done {h h' : Hub} {r : Release} (hm : r.Midway h)
    (hs : r.step h = (h', none)) :
    h'.Coherent ∧ ∀ sid, h'.router.lookup sid ≠ some r.cid := by
  cases r with
  | inspect cid =>
    obtain ⟨hc, c, hf, hcl⟩ := hm
    simp only [Release.step, hf, Prod.mk.injEq] at hs
    obtain ⟨rfl, hs⟩ := hs
    split at hs
    · next h0 =>
      have hfree : ∀ sid, h.router.lookup sid ≠ some cid := by
        intro sid hl
        obtain ⟨hne, -⟩ := hc.owner sid cid hl
        exact hne (by rw [← hc.sid_of_lookup hf hl, h0])
      exact ⟨hc.forget hfree, hfree⟩
    · cases hs
  | unbind cid sid status =>
    obtain ⟨hc, c, hf, hcl, hsid⟩ := hm
    rw [step_unbind] at hs
    split at hs <;> cases hs
    next hlost =>
    have hfree : ∀ sid, h.router.lookup sid ≠ some cid := by
      intro sid' hl
      have he := hc.sid_of_lookup hf hl
      rw [hsid] at he
      rw [he] at hlost
      exact hlost hl
    exact ⟨hc.forget hfree, hfree⟩
  | clear cid sid status =>
    obtain ⟨hc, hfree⟩ := hm
    have hk := hc.removeSession
    simp only [Release.step, Prod.mk.injEq] at hs
    obtain ⟨rfl, -⟩ := hs
    split
    · exact ⟨hk, hfree⟩
    · exact ⟨hk.change (.rest _ _ _ id), hfree⟩

/-- How the tables stand before a step of the end of a connection. -/
def Closing.Midway (h : Hub) : Closing → Prop
  | deregister cid => h.Coherent ∧ ∃ c, h.conns.find? cid = some c ∧ c.closed = true
  | release cid r => r.Midway h ∧ r.cid = cid
  | retire cid => h.Coherent ∧ ∀ sid, h.router.lookup sid ≠ some cid

private theorem Closing.Midway.step {h h' : Hub} {e e' : Closing} (hm : e.Midway h)
    (hs : e.step h = (h', some e')) : e'.Midway h' := by
  cases e with
  | deregister cid =>
    obtain ⟨hc, c, hf, hcl⟩ := hm
    cases hs
    exact ⟨⟨hc.deregister hf hcl, c, hf, hcl⟩, rfl⟩
  | release cid r =>
    obtain ⟨hr, hcid⟩ := hm
    simp only [Closing.step] at hs
    split at hs <;> cases hs
    · next hrs =>
      obtain ⟨hr', hcid'⟩ := hr.step hrs
      exact ⟨hr', hcid'.trans hcid⟩
    · next hrs =>
      have hd := hr.done hrs
      rw [hcid] at hd
      exact hd
  | retire cid => cases hs

private theorem Closing.Midway.done {h h' : Hub} {e : Closing} (hm : e.Midway h)
    (hs : e.step h = (h', none)) : h'.Coherent := by
  cases e with
  | deregister cid => cases hs
  | release cid r =>
    simp only [Closing.step] at hs
    split at hs <;> cases hs
  | retire cid =>
    cases hs
    exact hm.1.retire hm.2

/-- The end of a closed connection, taken together, leaves coherent tables. -/
theorem Closing.coherent_run {h : Hub} {cid : UInt64} {c : Connection} (hc : h.Coherent)
    (hf : h.conns.find? cid = some c) (hcl : c.closed = true) : (Closing.run h cid).Coherent :=
  run_induction Midway.step Midway.done ⟨hc, c, hf, hcl⟩

/-! ### Handling a message -/

namespace Downlink

/-- How the tables stand before a step of a handling. -/
def Midway (h : Hub) : Downlink → Prop
  | bind m cid => h.Fledgling cid m.sid
  | rebind m cid displaced =>
    h.CoherentBut { loose := displaced, astray := some m.sid } ∧ h.router.lookup m.sid = some cid
  | displace _ _ old => h.CoherentBut { loose := some old }
  | enter m _ _ cid => h.Coherent ∧ h.router.lookup m.sid = some cid
  | release r => r.Midway h
  | _ => h.Coherent

/-- How the tables stand after a step of a handling. -/
def Outcome.Midway (h : Hub) : Outcome → Prop
  | .next d => d.Midway h
  | .done _ => h.Coherent

variable {h h' : Hub} {d : Downlink} {o : Outcome}

private theorem midway_displace {m : Message} {cid old : UInt64}
    (hm : (displace m cid old).Midway h)
    (hs : (displace m cid old).step h = some (h', o)) : o.Midway h' := by
  simp only [step] at hs
  split at hs
  · next c hget =>
    cases hs
    have hk := hm.changes
      ((h.changes_post old (h.displacement m.sid)).trans
        (Hub.changes_modifyConn _ old fun _ ↦ .kick))
    refine hk.settle ?_
    intro d hd _ hlog
    simp only [Hub.modifyConn, Hub.post, Connections.find?_modify, if_true, Option.map_map] at hd
    obtain ⟨c', -, rfl⟩ := Option.map_eq_some_iff.1 hd
    cases hlog
  · next hget =>
    cases hs
    refine hm.settle ?_
    intro c hf ho
    have hlive := hm.numbered.isLive_of_open old c hf ho
    rw [Connections.get?_eq_some_iff.2 ⟨hlive, hf⟩] at hget
    cases hget

/-- Each step of a handling takes up what the one before it left. -/
theorem Midway.step (hn : d.Named) (hm : d.Midway h) (hs : d.step h = some (h', o)) :
    o.Midway h' := by
  cases d with
  | received kind body =>
    obtain ⟨rfl, ⟨e, rfl⟩ | ⟨m, d, -, -, rfl, hb⟩⟩ := begins_of_received hs
    · exact hm
    · cases hb <;> exact hm
  | judge m ack =>
    simp only [Downlink.step] at hs
    split at hs <;> cases hs
    · exact hm
    · split <;> exact hm
  | logon m cid uid =>
    simp only [Downlink.step] at hs
    split at hs <;> cases hs
    · next c hl =>
      obtain ⟨e, hf, hl⟩ := Option.bind_eq_some_iff.1 hl
      exact hm.logon hf hl hn
    · exact hm
  | bind m cid =>
    cases hs
    exact ⟨Hub.Fledgling.bind hm,
      (Router.lookup_bind h.router m.sid cid m.sid).trans (if_pos rfl)⟩
  | rebind m cid displaced =>
    obtain ⟨hc, hl⟩ := hm
    have hk := hc.rebind hl
    simp only [Downlink.step] at hs
    split at hs <;> cases hs <;> exact hk
  | displace m cid old => exact midway_displace hm hs
  | verify m cid =>
    simp only [Downlink.step] at hs
    split at hs <;> cases hs
    · next c hf =>
      split
      · next hcl => exact ⟨Hub.CoherentBut.slacken hm _, c, hf, hcl⟩
      · exact hm
    · exact hm
  | release r =>
    simp only [Downlink.step] at hs
    split at hs <;> cases hs
    · next hr => exact (Release.Midway.step hm hr).1
    · next hr => exact (Release.Midway.done hm hr).1
  | join m rid gid =>
    simp only [Downlink.step] at hs
    split at hs <;> cases hs
    · next hl => exact ⟨hm, hl⟩
    · exact hm
  | enter m rid gid cid =>
    cases hs
    exact hm.1.join rid gid hm.2
  | fanOut m members =>
    have hc : h'.Coherent := hm.changes (changes_of_step hs trivial hm.numbered)
    cases members with
    | nil =>
      cases hs
      exact hc
    | cons x members =>
      simp only [Downlink.step] at hs
      split at hs <;> cases hs <;> exact hc
  | _ =>
    have hc : h'.Coherent := hm.changes (changes_of_step hs trivial hm.numbered)
    simp only [Downlink.step, behindNotice] at hs
    repeat' split at hs
    all_goals cases hs
    all_goals exact hc

/-- When a handling is over or has to wait, nothing is out of step. -/
theorem coherent_run (hn : d.Named) (hm : d.Midway h) : (d.run h).1.Coherent := by
  refine run_induction (P := fun h d ↦ d.Named ∧ d.Midway h) ?_ ?_ ?_ ⟨hn, hm⟩
  · rintro h d ⟨-, hm⟩ hs
    obtain ⟨ticket, after, rfl⟩ := eq_waiting_of_step_eq_none hs
    exact hm
  · rintro h h' d d' ⟨hn, hm⟩ hs
    exact ⟨hn.step hs, hm.step hn hs⟩
  · rintro h h' d r ⟨hn, hm⟩ hs
    exact hm.step hn hs

/-- A handling that waits for room in the queue of evictions. -/
def Waits (d : Downlink) : Prop := ∃ ticket after, d = .waiting ticket after

private theorem Waits.named (hd : d.Waits) : d.Named := by
  obtain ⟨ticket, after, rfl⟩ := hd
  trivial

private theorem Waits.midway (hd : d.Waits) (hc : h.Coherent) : d.Midway h := by
  obtain ⟨ticket, after, rfl⟩ := hd
  exact hc

end Downlink

/-! ### Whole runs -/

namespace Gateway

/-- The states that a gateway with given settings can come to by moves that are allowed. -/
inductive ReachableBy (s : Settings) (allowed : Gateway → Move → Prop) : Gateway → Prop where
  | fresh : ReachableBy s allowed (fresh s)
  | move {g h : Gateway} (m : Move) : ReachableBy s allowed g → allowed g m →
    g.move? m = some h → ReachableBy s allowed h

/-- Allowed moves lead only where moves lead. -/
theorem ReachableBy.reachable {s : Settings} {allowed : Gateway → Move → Prop} {g : Gateway}
    (hg : ReachableBy s allowed g) : Reachable s g := by
  induction hg with
  | fresh => exact .fresh
  | move m _ _ hm ih => exact .move m ih hm

/-- The frame that a worker is about to handle. -/
def fetched? (g : Gateway) : Move → Option Frame
  | .fetchCall i w => (g.pool.fetchInbound i w).map (·.1)
  | _ => none

/-- A connection is opened only as long as there is a number that none has had, and a verdict that
opens a session says which. -/
def Orderly (g : Gateway) (m : Move) : Prop :=
  (m = .connect → g.hub.conns.next ≠ 0) ∧
    ∀ f ∈ g.fetched? m, f.cmd = .onlineAck → NamesSession f.body

/-- Whether a move is orderly can be seen before it is made. -/
instance (g : Gateway) (m : Move) : Decidable (Orderly g m) := inferInstanceAs (Decidable (_ ∧ _))

/-- The state after a sequence of moves, if all of them are orderly and possible. -/
def orderlyRun? (g : Gateway) (ms : List Move) : Option Gateway :=
  ms.foldlM (fun g m ↦ if Orderly g m then g.move? m else none) g

/-- Orderly moves lead on to where orderly moves lead. -/
theorem ReachableBy.orderlyRun {s : Settings} {ms : List Move} :
    ∀ {g h : Gateway}, ReachableBy s Orderly g → g.orderlyRun? ms = some h →
      ReachableBy s Orderly h := by
  induction ms with
  | nil =>
    rintro g h hg ⟨⟩
    exact hg
  | cons m ms ih =>
    intro g h hg hr
    obtain ⟨k, hk, hr⟩ := Option.bind_eq_some_iff.1 hr
    obtain ⟨ho, hk⟩ := Option.ite_none_right_eq_some.1 hk
    exact ih (hg.move m ho hk) hr

private theorem waits_runCall {g : Gateway} (hg : g.pool.Calls Downlink.Waits) (i w : Nat)
    (d : Downlink) : (g.runCall i w d).pool.Calls Downlink.Waits := by
  rw [runCall]
  split
  · next hr =>
    refine hg.setWorker i w ?_
    rintro d' ⟨⟩
    exact Downlink.eq_waiting_of_step_eq_none (Downlink.step_eq_none_of_run hr)
  · exact hg.setWorker i w (by rintro d ⟨⟩)

/-- After every move every call that is not finished waits for room in the queue of evictions. -/
theorem waits_of_move? {g g' : Gateway} {m : Move} (hg : g.pool.Calls Downlink.Waits)
    (hn : g.hub.conns.Numbered) (hc : m = .connect → g.hub.conns.next ≠ 0)
    (h : g.move? m = some g') : g'.pool.Calls Downlink.Waits := by
  have he := effect_of_move? hn hc h
  cases he with
  | routine hr => exact hr.calls _ hg
  | fetch hf => exact waits_runCall (g := { g with pool := _ }) (hg.fetchInbound hf) _ _ _
  | resume => exact waits_runCall hg _ _ _
  | finish _ _ _ hp => rwa [hp]

/-- The tables are coherent, and every call that is not finished waits for room in the queue of
evictions. -/
structure Settled (g : Gateway) : Prop where
  coherent : g.hub.Coherent
  calls : g.pool.Calls Downlink.Waits

private theorem settled_fresh (s : Settings) : (fresh s).Settled :=
  ⟨Hub.coherent_empty .., Pool.calls_fresh _⟩

private theorem eq_onlineAck_of_verdict {cmd : Command}
    (h : downlinkCommands.lookup cmd = some .verdict) : cmd = .onlineAck := by
  simp only [downlinkCommands, Dispatch.lookup_registerAll, Dispatch.lookup_register] at h
  repeat' split at h
  all_goals first | assumption | cases h

/-- An orderly move leaves nothing out of step. -/
theorem Settled.move {g g' : Gateway} {m : Move} (hg : g.Settled) (hm : Orderly g m)
    (h : g.move? m = some g') : g'.Settled := by
  refine ⟨?_, waits_of_move? hg.calls hg.coherent.numbered hm.1 h⟩
  have he := effect_of_move? hg.coherent.numbered hm.1 h
  cases he with
  | routine hr => exact hg.coherent.changes hr.tables
  | @fetch i w f pool kind hf hk =>
    rw [hub_runCall]
    refine Downlink.coherent_run ?_ hg.coherent
    rintro rfl
    have hf' : f ∈ g.fetched? (.fetchCall i w) := by simp [fetched?, hf]
    exact hm.2 f hf' (eq_onlineAck_of_verdict hk)
  | @resume i w d hd =>
    have hw : d.Waits := hg.calls.of_worker? hd
    rw [hub_runCall]
    exact Downlink.coherent_run hw.named (hw.midway hg.coherent)
  | finish hf hcl hh =>
    rw [hh]
    exact Closing.coherent_run hg.coherent hf hcl

/-- Nothing is out of step wherever orderly moves lead. -/
theorem settled_of_reachable {s : Settings} {g : Gateway} (hg : ReachableBy s Orderly g) :
    g.Settled := by
  induction hg with
  | fresh => exact settled_fresh s
  | move m _ ho hm ih => exact ih.move ho hm

/-- In every state of every run each route leads to a registered connection that carries the session
and has been logged on, no two routes lead to the same connection, each open connection that is
logged on is the one that its session is routed to, so no two of them carry the same session, and
the rooms record for every session in them the connection that it is routed to. -/
theorem sessions_coherent {s : Settings} {g : Gateway} (hg : ReachableBy s Orderly g) :
    (∀ sid cid, g.hub.router.lookup sid = some cid →
      ∃ c, g.hub.conns.get? cid = some c ∧ c.sid = sid ∧
        (c.status = .logon ∨ c.status = .logout ∨ c.status = .kick)) ∧
    (∀ sid₁ sid₂ cid, g.hub.router.lookup sid₁ = some cid →
      g.hub.router.lookup sid₂ = some cid → sid₁ = sid₂) ∧
    (∀ cid c, g.hub.conns.get? cid = some c → c.closed = false → c.status = .logon →
      g.hub.router.lookup c.sid = some cid) ∧
    (∀ cid₁ cid₂ c₁ c₂, g.hub.conns.get? cid₁ = some c₁ →
      g.hub.conns.get? cid₂ = some c₂ → c₁.closed = false → c₂.closed = false →
      c₁.status = .logon → c₂.status = .logon → c₁.sid = c₂.sid → cid₁ = cid₂) ∧
    (∀ sid, g.hub.rooms.Present sid →
      ∃ cid, g.hub.router.lookup sid = some cid ∧ g.hub.rooms.carrier? sid = some cid) := by
  have hc := (settled_of_reachable hg).coherent
  have hrouted : ∀ cid c, g.hub.conns.get? cid = some c → c.closed = false →
    c.status = .logon →
      g.hub.router.lookup c.sid = some cid := by
    intro cid c hget ho hs
    exact hc.routed cid c (Connections.get?_eq_some_iff.1 hget).2 ho hs nofun
  refine ⟨?_, ?_, hrouted, ?_, ?_⟩
  · intro sid cid hl
    obtain ⟨-, c, hf, hs, hm⟩ := hc.owner sid cid hl
    exact ⟨c, Connections.get?_eq_some_iff.2 ⟨hc.reachable sid cid hl nofun, hf⟩, hs, hm⟩
  · intro sid₁ sid₂ cid hl₁ hl₂
    obtain ⟨-, c, hf, hs, -⟩ := hc.owner sid₁ cid hl₁
    rw [← hs]
    exact hc.sid_of_lookup hf hl₂
  · intro cid₁ cid₂ c₁ c₂ hg₁ hg₂ ho₁ ho₂ hs₁ hs₂ hsid
    have h₁ := hrouted cid₁ c₁ hg₁ ho₁ hs₁
    have h₂ := hrouted cid₂ c₂ hg₂ ho₂ hs₂
    rw [hsid, h₂] at h₁
    cases h₁
    rfl
  · intro sid hp
    obtain ⟨cid, hcar⟩ := Option.isSome_iff_exists.1 ((hc.mirrored.present_iff sid).1 hp)
    exact ⟨cid, hc.carried sid cid hcar nofun, hcar⟩

namespace Takeover

/-- A gateway with one link and one worker. -/
def settings : Settings where
  nid := 1
  bind := ""
  port := 0
  path := ""
  maxConnections := 2
  sendCapacity := 8
  pingInterval := 1000
  writeTimeout := 1000
  evictionCapacity := 4
  evictionDelay := 1000
  shards := 1
  reportInterval := 0
  link := { links := 1, workers := 1, outboundCapacity := 4, inboundCapacity := 4 }

/-- A client asks for session 42. -/
def request : Message := .make .online 0 42 (Body.encode ({ sid := 42 } : OnlineRequest))

/-- The backend ends session 42. -/
def expulsion : Message :=
  .make .kick 0 42 (Body.encode ({ code := ResultCode.kicked } : KickNotice))

/-- The backend writes a message, which a worker handles. -/
def handling (m : Message) : List Move :=
  [.backendSays 0 (m.wrap 0).bytes, .link (.read 0), .fetchCall 0 0]

/-- A client opens session 42 and enters a room, then another one takes the session over. -/
def moves : List Move :=
  [.start ⟨.four 127 0 0 1, 8080⟩, .link (.connect 0), .link (.transmit 0 1000)] ++
    [.connect, .say 1 (.binary request.bytes), .hear 1] ++ handling (.opening 42 1) ++
    handling (.entry 42 7 1) ++
    [.connect, .say 2 (.binary request.bytes), .hear 2] ++ handling (.opening 42 2)

end Takeover

/-- A session that is taken over while it is in a room is carried by its new connection there. -/
theorem sessions_coherent_takeover :
    ∃ g, ReachableBy Takeover.settings Orderly g ∧ g.hub.router.lookup 42 = some 2 ∧
      g.hub.rooms.carrier? 42 = some 2 ∧
      (∃ c, g.hub.conns.get? 2 = some c ∧ c.sid = 42) ∧
      (∃ c, g.hub.conns.get? 1 = some c ∧ c.sid = 42 ∧ c.status = .kick) := by
  obtain ⟨g, hg⟩ : ∃ g, (fresh Takeover.settings).orderlyRun? Takeover.moves = some g :=
    Option.isSome_iff_exists.1 (by decide +kernel)
  have hreach := ReachableBy.fresh.orderlyRun hg
  have hview : ((fresh Takeover.settings).orderlyRun? Takeover.moves).map (fun g ↦
      (g.hub.router.lookup 42, (g.hub.rooms.carrier? 42).isSome,
        (g.hub.conns.get? 1).map fun c ↦ (c.sid, c.status))) =
      some (some 2, true, some (42, .kick)) := by decide +kernel
  rw [hg] at hview
  simp only [Option.map_some, Option.some.injEq, Prod.mk.injEq] at hview
  obtain ⟨hl, hp, h1⟩ := hview
  obtain ⟨howner, -, -, -, hrooms⟩ := sessions_coherent hreach
  obtain ⟨c, hget, hsid, -⟩ := howner 42 2 hl
  obtain ⟨cid, hl', hcar⟩ := hrooms 42 (.inl hp)
  obtain ⟨d, hd, hds⟩ := Option.map_eq_some_iff.1 h1
  rw [hl] at hl'
  cases hl'
  rw [Prod.mk.injEq] at hds
  exact ⟨g, hreach, hl, hcar, ⟨c, hget, hsid⟩, ⟨d, hd, hds⟩⟩

end Gateway

end EdgeGateway
