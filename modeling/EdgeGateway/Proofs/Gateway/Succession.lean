import EdgeGateway.Proofs.Gateway.Handover
import EdgeGateway.Proofs.Gateway.Outbound

/-!
# After a session has been handed over

A connection that has lost its session gets neither that one nor another again. What it still does,
its closing and its end leave the routes, the rooms and what goes to the backend alone, however late
they come and whatever has become of the session by then. `session_handed_over` puts this together
with the handing over itself.
-/

namespace EdgeGateway

/-! ### Connections without a future -/

namespace Standing

/-- The connection has been given a session and has lost it for good. -/
structure Ousted (x : Standing) : Prop where
  late : ¬ x.Early
  off : x.status ≠ .logon
  unrouted : x.routed = false

private theorem ousted_of_status {x : Standing}
    (hs : x.status = .logout ∨ x.status = .kick ∨ x.status = .close) (hr : x.routed = false) :
    x.Ousted := by
  refine ⟨?_, ?_, hr⟩
  · rintro (he | he) <;> simp [he] at hs
  · intro he
    simp [he] at hs

/-- A session that has been lost for good stays lost. -/
theorem Ousted.step {nid : UInt32} {cid : UInt64} {x y : Standing} {m : Gateway.Move}
    {said : Option (SocketEvent × Message)} {noticed : Option Message} (hx : x.Ousted)
    (h : x.Step nid cid m said noticed y) : y.Ousted := by
  obtain ⟨hlate, hoff, hr⟩ := hx
  have lost : ∀ b, (x.routed && b) = false := fun b ↦ by rw [hr, Bool.false_and]
  cases h with
  | close | listen => exact ⟨hlate, hoff, hr⟩
  | request _ he => exact absurd he hlate
  | relay _ _ hs | offline _ _ hs | logOff _ _ hs => exact absurd hs hoff
  | accept _ hs => exact absurd (.inr hs) hlate
  | logOut => exact ousted_of_status (.inl rfl) hr
  | lose keeps | release => exact ⟨hlate, hoff, lost _⟩
  | kick keeps => exact ousted_of_status (.inr (.inl rfl)) (lost _)
  | finish => exact ousted_of_status (.inr (.inr rfl)) (lost _)

end Standing

namespace Gateway

variable {s : Settings} {g g' h : Gateway} {m : Move} {cid : UInt64} {x : Standing}

private theorem sound_of_reachable (hg : ReachableBy s Orderly g) : g.Sound := by
  induction hg with
  | fresh => exact sound_fresh s
  | move m _ ho hm ih => exact ih.move ho.1 hm

/-- The connection has been given a session and has lost it for good. -/
def Ousted (g : Gateway) (cid : UInt64) : Prop := ∃ x, g.standing? cid = some x ∧ x.Ousted

private theorem Ousted.move (ho : g.Ousted cid) (hg : g.Sound)
    (hc : m = .connect → g.hub.conns.next ≠ 0) (h : g.move? m = some g') : g'.Ousted cid := by
  obtain ⟨x, hx, ho⟩ := ho
  rcases standing_of_move? hg hc h cid with ⟨x', hx', y, hy, hstep⟩ | ⟨hnone, -⟩
  · rw [hx] at hx'
    cases hx'
    exact ⟨y, hy, ho.step hstep⟩
  · rw [hx] at hnone
    cases hnone

private theorem Ousted.run {ms : List Move} (ho : g.Ousted cid) (hg : g.Sound)
    (hr : g.orderlyRun? ms = some h) : h.Ousted cid := by
  induction ms generalizing g with
  | nil =>
    cases hr
    exact ho
  | cons m ms ih =>
    obtain ⟨k, hk, hr⟩ := Option.bind_eq_some_iff.1 hr
    obtain ⟨horderly, hk⟩ := Option.ite_none_right_eq_some.1 hk
    exact ih (ho.move hg horderly.1 hk) (hg.move horderly.1 hk) hr

private theorem Ousted.conn (ho : g.Ousted cid) : ∃ c, g.hub.conns.find? cid = some c ∧
    ¬ c.Early ∧ c.status ≠ .logon ∧ g.hub.router.lookup c.sid ≠ some cid := by
  obtain ⟨x, hx, hlate, hoff, hr⟩ := ho
  obtain ⟨c, hc, hb⟩ := Option.map_eq_some_iff.1 (standing?_eq_some_iff.1 hx).1
  have hstatus : c.status = x.status := congrArg Bearing.status hb
  refine ⟨c, hc, by rwa [Connection.Early, hstatus], hstatus ▸ hoff, ?_⟩
  have hr' := (congrArg Bearing.routed hb).trans hr
  exact beq_eq_false_iff_ne.1 hr'

/-! ### What it still does -/

/-- Routes and rooms stay as they are, and nothing goes to the backend. -/
structure Spares (g g' : Gateway) : Prop where
  router : g'.hub.router = g.hub.router
  rooms : g'.hub.rooms = g.hub.rooms
  farewells : g'.hub.farewells = g.hub.farewells
  outbound : g'.pool.outbound = g.pool.outbound

/-- A move by which a connection's own tasks do something, or by which it is or may be closed or let
go, or its session is released. -/
def Involves (g : Gateway) (cid : UInt64) : Move → Prop
  | .hear k | .heed k | .resumeListener k | .takeMessage k | .ping k | .sayFarewell k | .written k
  | .failWrite k | .giveUp k | .closeSocket k | .finishSocket k => k = cid
  | .resumeCall i w => g.releasing? (.resumeCall i w) = some cid
  | .sweepExpire | .shutdown => True
  | _ => False

private theorem Spares.of_eq (hh : g'.hub = g.hub) (hp : g'.pool = g.pool) : g.Spares g' := by
  constructor <;> simp only [hh, hp]

private theorem Confined.spares (hc : g.Confined g') : g.Spares g' := by
  obtain ⟨⟨conns, hh⟩, hp⟩ := hc
  constructor <;> simp only [hh, hp]

private theorem Ousted.released (ho : g.Ousted cid) : g.hub.released cid = g.hub := by
  obtain ⟨c, hc, -, -, hr⟩ := ho.conn
  rw [Hub.released, hc]
  exact if_neg fun h ↦ hr h.2

private theorem handle_eq {h : Hub} {c : Connection} (hlate : ¬ c.Early)
    (hoff : c.status ≠ .logon) (m : Message) :
    Uplink.handle h c m = (h, .proceed) ∨ Uplink.handle h c m = (h, .disconnect) := by
  have hnot : c.status ∉ [Status.ready, .check] := by simpa [Connection.Early] using hlate
  simp only [Uplink.handle, Uplink.online, Uplink.offline, Uplink.transit, Uplink.quitRoom,
    if_pos hnot,
    if_pos hoff]
  split
  · exact .inl rfl
  · exact .inl rfl
  · exact .inr rfl
  · exact .inl rfl
  · exact .inl rfl

private theorem Ousted.spares_hear (ho : g.Ousted cid)
    (h : g.hear cid = some g') : g.Spares g' := by
  obtain ⟨c, hc, hlate, hoff, -⟩ := ho.conn
  obtain ⟨s, c', e, inbox, g₁, hs, -, -, rfl, ⟨-, rfl | rfl⟩ | ⟨m, -, -, rfl⟩⟩ :=
    hear_eq h
  · exact .of_eq rfl rfl
  · exact .of_eq rfl rfl
  · obtain ⟨-, hc', -⟩ := socket?_eq_some_iff.1 hs
    rw [hc] at hc'
    cases hc'
    rcases handle_eq (h := g.hub) hlate hoff m with hu | hu
    all_goals
      have hu' : Uplink.handle (g.modifySocket cid fun s ↦ { s with inbox }).hub c m = _ := hu
      simp only [onMessage, hu']
      exact .of_eq rfl rfl

private theorem spares_afterForward (g : Gateway) (cid : UInt64) (after : AfterForward) :
    g.Spares (g.afterForward cid after) := by
  cases after with
  | proceed => exact .of_eq rfl rfl
  | logOut => exact ⟨rfl, rfl, rfl, rfl⟩

private theorem spares_resumeListener (h : g.resumeListener cid = some g') : g.Spares g' := by
  obtain ⟨⟨s, c⟩, -, h⟩ := Option.bind_eq_some_iff.1 h
  simp only at h
  split at h
  · split at h <;> cases h
    exact spares_afterForward g cid _
  · split at h <;> cases h
    exact .of_eq rfl rfl
  · cases h

private theorem Ousted.spares_finishSocket (ho : g.Ousted cid) (h : g.finishSocket cid = some g') :
    g.Spares g' := by
  obtain ⟨c, hc, -, -, hr⟩ := ho.conn
  obtain ⟨⟨s, d⟩, -, h⟩ := Option.bind_eq_some_iff.1 h
  simp only at h
  split at h <;> cases h
  -- That it has become unreachable does not change which session it carries.
  have hd : ({ g.hub with conns := g.hub.conns.deregister cid } : Hub).released cid =
      { g.hub with conns := g.hub.conns.deregister cid } := by
    have hc' : (g.hub.conns.deregister cid).find? cid = some c := hc
    simp only [Hub.released, hc']
    exact if_neg fun h ↦ hr h.2
  have hrun := Closing.run_eq g.hub cid
  rw [hd] at hrun
  constructor <;> simp only [modifySocket, hrun] <;> rfl

private theorem Ousted.spares_resumeCall (ho : g.Ousted cid) (hg : g.Sound) {i w : Nat}
    (hm : g.releasing? (.resumeCall i w) = some cid)
    (h : g.resumeCall i w = some g') : g.Spares g' := by
  have ht := turn_of_move? (m := .resumeCall i w) hg.tables.numbered hg.calls h
  have hout : g'.pool.outbound = g.pool.outbound := by
    obtain ⟨x, -, h⟩ := Option.bind_eq_some_iff.1 h
    split at h
    · split at h <;> cases h
      exact congrArg Prod.snd (outlet_runCall g i w _)
    · cases h
  cases ht with
  | idle hm => exact hm.elim
  | resumeCall hh =>
    rw [hm] at hh
    have hh' : g'.hub = g.hub := hh.trans ho.released
    constructor <;> simp only [hh', hout]

private theorem Ousted.spares (ho : g.Ousted cid) (hg : g.Sound) (hm : g.Involves cid m)
    (h : g.move? m = some g') : g.Spares g' := by
  cases m with
  | hear k =>
    cases hm
    exact ho.spares_hear h
  | resumeListener k => exact spares_resumeListener h
  | finishSocket k =>
    cases hm
    exact ho.spares_finishSocket h
  | resumeCall i w => exact ho.spares_resumeCall hg hm h
  | sweepExpire =>
    obtain ⟨⟨sweeper, conns⟩, -, rfl⟩ := Option.map_eq_some_iff.1 h
    exact ⟨rfl, rfl, rfl, rfl⟩
  | shutdown =>
    cases h
    rw [shutdown]
    split
    · exact ⟨rfl, rfl, rfl, rfl⟩
    · refine ⟨rfl, rfl, rfl, ?_⟩
      show g.pool.signal.outbound = _
      rw [Pool.signal]
      split <;> rfl
    · exact .of_eq rfl rfl
  | heed k | takeMessage k | ping k | sayFarewell k | written k | failWrite k | giveUp k
    | closeSocket k =>
    exact (confined_of_move? h trivial).spares
  | _ => exact hm.elim

/-- No session leads to the connection any more, nobody in a room is carried by it, and nothing that
it still does, neither its closing nor its end, changes a route, a membership or what goes to the
backend. -/
structure Bereft (g : Gateway) (cid : UInt64) : Prop where
  unrouted : ∀ sid, g.hub.router.lookup sid ≠ some cid
  uncarried : ∀ sid, g.hub.rooms.carrier? sid ≠ some cid
  spares : ∀ m g', g.Involves cid m → g.move? m = some g' → g.Spares g'

private theorem Ousted.bereft (ho : g.Ousted cid)
    (hg : ReachableBy s Orderly g) : g.Bereft cid := by
  have hc := (settled_of_reachable hg).coherent
  have hr : ∀ sid, g.hub.router.lookup sid ≠ some cid := by
    intro sid hl
    obtain ⟨c, hf, -, -, hr⟩ := ho.conn
    exact hr (by rw [hc.sid_of_lookup hf hl, hl])
  exact ⟨hr, fun sid hcar ↦ hr sid (hc.carried sid cid hcar nofun),
    fun m g' hm h ↦ ho.spares (sound_of_reachable hg) hm h⟩

/-! ### Handing over in a run -/

private theorem ousted_of_handsOver {sid old new : UInt64} (hc : g.hub.Coherent) (hs : g'.Sound)
    (hl : g.hub.router.lookup sid = some old) (hh : g.hub.HandsOver g'.hub sid old new) :
    g'.Ousted old := by
  obtain ⟨e, w, he, -, hold⟩ := hh.told
  obtain ⟨d, hnew, -, hlogon⟩ := hh.opened
  have hne : new ≠ old := by
    rintro rfl
    rw [hnew] at hold
    cases hold
    cases hlogon
  have hsid : e.sid = sid := hc.sid_of_lookup (Connections.get?_eq_some_iff.1 he).2 hl
  have hf := (Connections.get?_eq_some_iff.1 hold).2
  obtain ⟨b, hb, hkick, hr⟩ : ∃ b, g'.hub.bearing? old = some b ∧ b.status = .kick ∧
    b.routed = false := by
    refine ⟨_, by rw [Hub.bearing?, hf, Option.map_some], rfl, ?_⟩
    show (g'.hub.router.lookup e.sid == some old) = false
    rw [hh.route, hsid, if_pos rfl, beq_eq_false_iff_ne]
    exact fun h ↦ hne (Option.some.inj h)
  obtain ⟨ear, hear⟩ : ∃ ear, g'.ear? old = some ear := by
    rw [← Option.isSome_iff_exists, hs.paired, hb]
    rfl
  exact ⟨⟨b, ear.listener, ear.finished⟩, standing?_eq_some_iff.2 ⟨hb, ear.inbox, hear⟩,
    Standing.ousted_of_status (.inr (.inl hkick)) hr⟩

/-- Whenever a worker takes a verdict that opens a session on an open connection that has asked for
one, while another connection carries the session and the sweeper runs, the whole session goes to
the new connection before the worker waits, and the old one is told and given notice. From then on,
whatever happens, nothing that the old connection still does, neither its closing nor its end,
changes a route, a membership or what goes to the backend. -/
theorem session_handed_over (hg : ReachableBy s Orderly g) (hrun : g.hub.sweeper.phase = .running)
    {i w : Nat} {f : Frame} {pool : Pool Downlink} {m : Message} {ack : OnlineAck} {old : UInt64}
    {c : Connection} (hf : g.pool.fetchInbound i w = some (f, pool)) (hcmd : f.cmd = .onlineAck)
    (hm : Packet.parse f.body = .ok m) (hack : Body.decode m.body = .ok ack)
    (hok : ack.code = ResultCode.ok) (hroute : g.hub.router.lookup m.sid = some old)
    (hc : g.hub.conns.find? ack.cid = some c) (hcheck : c.status = .check)
    (hopen : c.closed = false) : ∃ g', g.move? (.fetchCall i w) = some g' ∧
      g.hub.HandsOver g'.hub m.sid old ack.cid ∧ ∀ ms h, g'.orderlyRun? ms = some h →
      h.Bereft old := by
  have hco := (settled_of_reachable hg).coherent
  have hkind : downlinkCommands.lookup f.cmd = some .verdict := by
    rw [hcmd]
    decide
  have hmove : g.move? (.fetchCall i w) =
      some ({ g with pool }.runCall i w (.received .verdict f.body)) := by
    simp only [move?, fetchCall, hf, Option.bind_eq_bind, Option.bind_some, hkind]
    rfl
  have horderly : Orderly g (.fetchCall i w) := by
    refine ⟨by rintro ⟨⟩, ?_⟩
    intro f' hf' _ m' hm' _ _ _
    rw [fetched?, hf] at hf'
    cases hf'
    rw [hm] at hm'
    cases hm'
    exact (hco.owner m.sid old hroute).1
  have hh : g.hub.HandsOver ({ g with pool }.runCall i w (.received .verdict f.body)).hub m.sid old
      ack.cid := by
    rw [hub_runCall]
    exact Downlink.handsOver_run hco (staffed_of_reachable hg.reachable hrun) hm hack hok hroute hc
      hcheck hopen
  have hg' := hg.move _ horderly hmove
  have hs' := sound_of_reachable hg'
  refine ⟨_, hmove, hh, ?_⟩
  intro ms h hms
  exact ((ousted_of_handsOver hco hs' hroute hh).run hs' hms).bereft (hg'.orderlyRun hms)

/-- A client opens session 42 and enters a room, then another one asks for the session, and the
verdict has come. -/
def Takeover.asked : List Move :=
  opened ++ handling (.entry 42 7 1) ++ [.connect, .say 2 (.binary request.bytes), .hear 2] ++
    [.backendSays 0 ((Message.opening 42 2).wrap 0).bytes, .link (.read 0)]

/-- The time of the old connection is over, and its tasks end when everything is written. -/
def Takeover.closing : List Move :=
  [.sweepTake, .wait 1000, .sweepExpire, .heed 1] ++
    [.takeMessage 1, .written 1, .takeMessage 1, .written 1, .takeMessage 1, .written 1] ++
    [.sayFarewell 1, .written 1]

/-- A session goes from one connection to another, and is still there when the old one has been let
go. -/
theorem session_handed_over_takeover :
    ∃ g g' h k, ReachableBy Takeover.settings Orderly g ∧ g.move? (.fetchCall 0 0) = some g' ∧
      g.hub.HandsOver g'.hub 42 1 2 ∧ g'.orderlyRun? Takeover.closing = some h ∧ h.Bereft 1 ∧
      h.move? (.finishSocket 1) = some k ∧ k.hub.router.lookup 42 = some 2 := by
  obtain ⟨g, hg⟩ : ∃ g, (fresh Takeover.settings).orderlyRun? Takeover.asked = some g :=
    Option.isSome_iff_exists.1 (by decide +kernel)
  have hview : ((fresh Takeover.settings).orderlyRun? Takeover.asked).bind (fun g ↦ do
      let p ← g.pool.fetchInbound 0 0
      let (m : Message) ← (Packet.parse p.1.body).toOption
      let (ack : OnlineAck) ← (Body.decode m.body).toOption
      let c ← g.hub.conns.find? ack.cid
      return (p.1.cmd, m.sid, ack.cid, ack.code, c.status, c.closed)) =
      some (.onlineAck, 42, 2, ResultCode.ok, .check, false) := by decide +kernel
  have hstate : ((fresh Takeover.settings).orderlyRun? Takeover.asked).map (fun g ↦
      (g.hub.sweeper.phase, g.hub.router.lookup 42)) = some (.running, some 1) := by decide +kernel
  have hend : ((((fresh Takeover.settings).orderlyRun? Takeover.asked).bind
      (·.move? (.fetchCall 0 0))).bind (·.orderlyRun? Takeover.closing)).bind (fun h ↦
      (h.move? (.finishSocket 1)).map (·.hub.router.lookup 42)) = some (some 2) := by
    decide +kernel
  rw [hg, Option.bind_some] at hview
  rw [hg] at hstate hend
  obtain ⟨⟨f, pool⟩, hf, hview⟩ := Option.bind_eq_some_iff.1 hview
  obtain ⟨m, hm, hview⟩ := Option.bind_eq_some_iff.1 hview
  obtain ⟨⟨asid, uid, cid, code, errmsg⟩, hack, hview⟩ := Option.bind_eq_some_iff.1 hview
  obtain ⟨c, hc, hview⟩ := Option.bind_eq_some_iff.1 hview
  simp only [Option.pure_def, Option.some.injEq, Prod.mk.injEq] at hview
  obtain ⟨hcmd, hsid, rfl, hcode, hcheck, hopen⟩ := hview
  simp only [Option.map_some, Option.some.injEq, Prod.mk.injEq] at hstate
  have hroute : g.hub.router.lookup (Message.sid m) = some 1 := by
    rw [hsid]
    exact hstate.2
  obtain ⟨g', hmove, hover, hafter⟩ :=
    session_handed_over (ReachableBy.fresh.orderlyRun hg) hstate.1 hf
    hcmd (eq_ok_of_toOption hm) (eq_ok_of_toOption hack) hcode hroute hc hcheck hopen
  rw [Option.bind_some, hmove, Option.bind_some] at hend
  obtain ⟨h, hclosing, hend⟩ := Option.bind_eq_some_iff.1 hend
  obtain ⟨k, hfinish, hend⟩ := Option.map_eq_some_iff.1 hend
  rw [hsid] at hover
  exact ⟨g, g', h, k, ReachableBy.fresh.orderlyRun hg, hmove, hover, hclosing,
    hafter _ _ hclosing, hfinish, hend⟩

end Gateway

end EdgeGateway
