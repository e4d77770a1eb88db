import EdgeGateway.Proofs.Gateway.Sweeping

/-!
# Handing a session over

A verdict that opens a session on a connection may find that another one carries it already. Before
the worker waits for the first time, everything has gone to the new connection: the route of the
session and its memberships; and the old connection has been told, marked and given notice.
`handsOver_run` says so, and that nothing else has changed.
-/

namespace EdgeGateway

/-- A result that is there is no error. -/
theorem eq_ok_of_toOption {ε α : Type} {x : Except ε α} {a : α}
    (h : x.toOption = some a) : x = .ok a := by
  cases x with
  | ok b => exact congrArg Except.ok (Option.some.inj h)
  | error e => cases h

/-- The message tells a connection that its session has been opened on another one. -/
def Message.TellsDuplicate (w : Message) (sid : UInt64) : Prop :=
  w.cmd = .kick ∧ w.sid = sid ∧
    ∃ k, Body.decode (α := KickNotice) w.body = .ok k ∧ k.code = ResultCode.duplicateLogin

/-- What is queued for a connection takes a message if it is open, somebody writes it out and there
is room. -/
def Connection.Receptive (c : Connection) : Prop :=
  c.closed = false ∧ c.abandoned = false ∧ c.queue.length < c.capacity

/-- Whether a connection takes a message can be seen. -/
instance (c : Connection) : Decidable c.Receptive := inferInstanceAs (Decidable (_ ∧ _ ∧ _))

/-- A connection after trying to queue a message. -/
theorem Connection.post_eq (c : Connection) (m : Message) :
    c.post m = { c with queue := if c.Receptive then c.queue ++ [m] else c.queue } := by
  by_cases hr : c.Receptive
  · have hs : c.send m = .ok { c with queue := c.queue ++ [m] } :=
      send_eq_ok_iff.2 ⟨hr.1, hr.2.1, hr.2.2, rfl⟩
    rw [post, hs, if_pos hr]
  · rw [if_neg hr, post]
    split
    · next hs =>
      obtain ⟨ho, ha, hq, -⟩ := send_eq_ok_iff.1 hs
      exact absurd ⟨ho, ha, hq⟩ hr
    · rfl

namespace Hub

/-- The whole of a session goes from one connection to another. -/
structure HandsOver (h h' : Hub) (sid old new : UInt64) : Prop where
  /-- The session, and no other, is routed anew. -/
  route : ∀ s, h'.router.lookup s = if s = sid then some new else h.router.lookup s
  /-- Everybody stays in the same groups of the same rooms. -/
  groups : ∀ rid s, h'.rooms.group? rid s = h.rooms.group? rid s
  /-- If the session is in any room, its memberships are those of the new connection. -/
  follows : h.rooms.Present sid → h'.rooms.carrier? sid = some new
  carriers : ∀ s, h'.rooms.carrier? s =
    if s = sid then (h.rooms.carrier? sid).map fun _ ↦ new else h.rooms.carrier? s
  opened : ∃ d, h'.conns.get? new = some d ∧ d.sid = sid ∧ d.status = .logon
  /-- The old connection is marked, and told if its queue takes anything. -/
  told : ∃ e w, h.conns.get? old = some e ∧ w.TellsDuplicate sid ∧
    h'.conns.get? old = some { e with
      status := .kick
      queue := if e.Receptive then e.queue ++ [w] else e.queue }
  /-- No other connection notices anything. -/
  others : ∀ k, k ≠ old → k ≠ new → h'.conns.get? k = h.conns.get? k
  /-- The notice of the old connection is queued or waits for room. -/
  evicted : h'.sweeper.queue.closed = false ∧
    ⟨old, h.now + h.sweeper.delay⟩ ∈ h'.sweeper.queue.contents

private theorem tellsDuplicate_displacement (h : Hub) (sid : UInt64) :
    (h.displacement sid).TellsDuplicate sid := by
  have hd : (Body.decode (α := KickNotice) (h.displacement sid).body).toOption = some
      ⟨ResultCode.duplicateLogin, "session opened on another connection"⟩ := by
    show (Body.decode (α := KickNotice) (Body.encode (α := KickNotice)
      ⟨ResultCode.duplicateLogin, "session opened on another connection"⟩)).toOption = _
    decide +kernel
  exact ⟨rfl, rfl, _, eq_ok_of_toOption hd, rfl⟩

/-- Only the queue of one connection, which is `d`, may have changed. -/
structure Queues (h h' : Hub) (cid : UInt64) (d : Connection) : Prop where
  rest : ∃ conns, h' = { h with conns }
  live : ∀ k, h'.conns.isLive k = h.conns.isLive k
  others : ∀ k, k ≠ cid → h'.conns.find? k = h.conns.find? k
  own : ∃ queue, h'.conns.find? cid = some { d with queue }

variable {h : Hub} {cid old : UInt64} {c d e : Connection}

private theorem Queues.refl (hd : h.conns.find? cid = some d) : h.Queues h cid d :=
  ⟨⟨h.conns, rfl⟩, fun _ ↦ rfl, fun _ _ ↦ rfl, d.queue, hd⟩

/-- The tables once a session has gone from one connection to another, which has been told. -/
def succeeded (h : Hub) (cid old : UInt64) (d : Connection) : Hub :=
  let h₁ : Hub := { h.admitted cid d with rooms := (h.rooms.rebind d.sid cid).2 }
  (h₁.post old (h.displacement d.sid)).modifyConn old fun c ↦ c.setStatus .kick

private theorem find?_succeeded (hc : h.conns.find? cid = some c) (he : h.conns.find? old = some e)
    (hne : old ≠ cid) (k : UInt64) :
    (h.succeeded cid old d).conns.find? k =
      if k = old then some ((e.post (h.displacement d.sid)).setStatus .kick)
      else if k = cid then some d else h.conns.find? k := by
  simp only [succeeded, admitted, post, modifyConn, Connections.find?_modify, hc, he, if_neg hne,
    if_pos]
  by_cases hk : k = old
  · rw [if_pos hk, if_pos hk]
    rfl
  · rw [if_neg hk, if_neg hk, if_neg hk]
    rfl

private theorem handsOver_of_queues {h' : Hub} (hm : h.rooms.Mirrored)
    (hopen : h.sweeper.queue.closed = false) (hc : h.conns.get? cid = some c)
    (he : h.conns.get? old = some e) (hne : old ≠ cid) (hd : d.status = .logon)
    (hq : ((h.succeeded cid old d).evict old).2.Queues h' cid d) :
    h.HandsOver h' d.sid old cid := by
  obtain ⟨hlive, hc⟩ := Connections.get?_eq_some_iff.1 hc
  obtain ⟨hlive', he'⟩ := Connections.get?_eq_some_iff.1 he
  obtain ⟨⟨conns, rfl⟩, hl, hoth, queue, hown⟩ := hq
  have hfind := find?_succeeded (d := d) hc he' hne
  have hcar : ∀ s, (h.rooms.rebind d.sid cid).2.carrier? s =
      if s = d.sid then (h.rooms.carrier? d.sid).map fun _ ↦ cid else h.rooms.carrier? s :=
    h.rooms.carrier?_rebind d.sid cid
  have hfollows : h.rooms.Present d.sid →
    (h.rooms.rebind d.sid cid).2.carrier? d.sid = some cid := by
    intro hp
    obtain ⟨k, hk⟩ := Option.isSome_iff_exists.1 ((hm.present_iff d.sid).1 hp)
    rw [hcar, if_pos rfl, hk, Option.map_some]
  have hnew : conns.get? cid = some { d with queue } :=
    Connections.get?_eq_some_iff.2 ⟨(hl cid).trans hlive, hown⟩
  have hold : conns.get? old = some ((e.post (h.displacement d.sid)).setStatus .kick) := by
    refine Connections.get?_eq_some_iff.2 ⟨(hl old).trans hlive', ?_⟩
    exact (hoth old hne).trans ((hfind old).trans (if_pos rfl))
  have hrest : ∀ k, k ≠ old → k ≠ cid → conns.get? k = h.conns.get? k := by
    intro k hk hk'
    have hf : conns.find? k = h.conns.find? k := by
      refine (hoth k hk').trans ((hfind k).trans ?_)
      rw [if_neg hk, if_neg hk']
    have hv : conns.isLive k = h.conns.isLive k := hl k
    rw [Connections.get?, Connections.get?, hf, hv]
  rw [Connection.post_eq] at hold
  exact {
    route := h.router.lookup_bind d.sid cid
    groups := h.rooms.group?_rebind d.sid cid
    follows := hfollows
    carriers := hcar
    opened := ⟨_, hnew, rfl, hd⟩
    told := ⟨e, _, he, h.tellsDuplicate_displacement d.sid, hold⟩
    others := hrest
    evicted := ⟨(h.sweeper.queue.closed_send _).trans hopen, Sweeper.mem_contents_push ..⟩ }

end Hub

namespace Downlink

variable {h : Hub} {cid old : UInt64} {c d : Connection}

private theorem queues_waiting (hd : h.conns.find? cid = some d) (hcid : d.cid = cid)
    (hopen : d.closed = false) (ticket : Nat) (m : Message) :
    h.Queues ((waiting ticket (some (m, cid))).run h).1 cid d := by
  cases hv : h.eviction ticket with
  | pending =>
    rw [run_of_none (by simp only [step, hv])]
    exact .refl hd
  | refused =>
    have hs : (waiting ticket (some (m, cid))).step h =
        some (h, .done (.error (.queueClosed .eviction))) := by simp only [step, hv]
    rw [run_of_done hs]
    exact .refl hd
  | accepted =>
    have s₁ : (waiting ticket (some (m, cid))).step h = some (h, .next (.verify m cid)) := by
      simp only [step, hv, behindNotice]
    have s₂ : (verify m cid).step h = some (h, .next (.hand m cid)) := by
      simp [step, hd, hopen]
    rw [run_of_next s₁, run_of_next s₂]
    cases hsend : d.send m with
    | error e =>
      have s₃ : (hand m cid).step h = some (h, .done (.error e)) := by simp only [step, hd, hsend]
      rw [run_of_done s₃]
      exact .refl hd
    | ok d' =>
      obtain ⟨-, -, -, rfl⟩ := Connection.send_eq_ok_iff.1 hsend
      have s₃ : (hand m cid).step h =
          some
            ({ h with conns := h.conns.store { d with queue := d.queue ++ [m] } },
              .done (.ok ())) := by
        simp only [step, hd, hsend]
      have hfind : ∀ k, (h.conns.store { d with queue := d.queue ++ [m] }).find? k =
          if k = cid then some { d with queue := d.queue ++ [m] } else h.conns.find? k := by
        intro k
        rw [Connections.store, Connections.find?_modify, hcid, hd]
        rfl
      rw [run_of_done s₃]
      exact ⟨⟨_, rfl⟩, fun _ ↦ rfl, fun k hk ↦ (hfind k).trans (if_neg hk), _,
        (hfind cid).trans (if_pos rfl)⟩

private theorem run_received {body : Bytes} {m : Message} {ack : OnlineAck} {e : Connection}
    (hn : h.conns.Numbered) (hm : Packet.parse body = .ok m) (hack : Body.decode m.body = .ok ack)
    (hok : ack.code = ResultCode.ok) (hc : h.conns.get? ack.cid = some c)
    (hlog : c.logon m.sid ack.uid = some d) (hroute : h.router.lookup m.sid = some old)
    (hne : old ≠ ack.cid) (he : h.conns.get? old = some e) :
    (received .verdict body).run h =
      (evict old (some (m, ack.cid))).run (h.succeeded ack.cid old d) := by
  obtain ⟨-, hf⟩ := Connections.get?_eq_some_iff.1 hc
  obtain ⟨hlive, hold⟩ := Connections.get?_eq_some_iff.1 he
  have hsid : d.sid = m.sid := by
    obtain ⟨-, -, rfl⟩ := Connection.logon_eq_some_iff.1 hlog
    rfl
  have hstore : h.conns.store d = h.conns.modify ack.cid fun _ ↦ d := by
    rw [Connections.store, (Connection.grows_of_logon hlog).cid, hn.cid_eq _ c hf]
  have s₁ : (received .verdict body).step h = some (h, .next (.judge m ack)) := by
    simp only [step, hm, ofMessage, hack]
  have s₂ : (judge m ack).step h = some (h, .next (.logon m ack.cid ack.uid)) := by
    simp only [step, hc, if_pos hok]
  have s₃ : (logon m ack.cid ack.uid).step h =
      some (h.modifyConn ack.cid fun _ ↦ d, .next (.bind m ack.cid)) := by
    simp only [step, hf, Option.bind_some, hlog, hstore]
    rfl
  have s₄ : (bind m ack.cid).step (h.modifyConn ack.cid fun _ ↦ d) =
      some (h.admitted ack.cid d, .next (.rebind m ack.cid (some old))) := by
    have hold' : (h.router.lookup m.sid).filter (· ≠ ack.cid) = some old := by
      simp [hroute, hne]
    rw [Hub.admitted, hsid, ← hold']
    rfl
  have s₅ : (rebind m ack.cid (some old)).step (h.admitted ack.cid d) =
      some ({ h.admitted ack.cid d with rooms := (h.rooms.rebind d.sid ack.cid).2 },
        .next (.displace m ack.cid old)) := by
    rw [hsid]
    rfl
  have s₆ : (displace m ack.cid old).step
      { h.admitted ack.cid d with rooms := (h.rooms.rebind d.sid ack.cid).2 } =
      some (h.succeeded ack.cid old d, .next (.evict old (some (m, ack.cid)))) := by
    have hget : (h.admitted ack.cid d).conns.get? old = some e := by
      refine Connections.get?_eq_some_iff.2 ⟨hlive, ?_⟩
      rw [Hub.admitted, Hub.modifyConn, Connections.find?_modify, if_neg hne]
      exact hold
    simp only [step, hget, Hub.succeeded, hsid]
    rfl
  rw [run_of_next s₁, run_of_next s₂, run_of_next s₃, run_of_next s₄, run_of_next s₅,
    run_of_next s₆]

/-- A verdict that opens a session on an open connection that has asked for one hands the session
over, if another connection carries it. -/
theorem handsOver_run {body : Bytes} {m : Message} {ack : OnlineAck} (hh : h.Coherent)
    (hq : h.sweeper.queue.closed = false) (hm : Packet.parse body = .ok m)
    (hack : Body.decode m.body = .ok ack) (hok : ack.code = ResultCode.ok)
    (hroute : h.router.lookup m.sid = some old) (hc : h.conns.find? ack.cid = some c)
    (hcheck : c.status = .check) (hopen : c.closed = false) :
    h.HandsOver ((received .verdict body).run h).1 m.sid old ack.cid := by
  obtain ⟨-, e, hold, -, hmay⟩ := hh.owner m.sid old hroute
  have hlive := hh.reachable m.sid old hroute nofun
  -- The connection that carries the session has been given it, so it is not the one that asks for
  -- it.
  have hne : old ≠ ack.cid := by
    rintro rfl
    cases hc.symm.trans hold
    exact hmay.not_early (.inr hcheck)
  have hget := Connections.get?_eq_some_iff.2 ⟨hh.numbered.isLive_of_open _ c hc hopen, hc⟩
  have hget' := Connections.get?_eq_some_iff.2 ⟨hlive, hold⟩
  obtain ⟨d, hlog, hsid, hlogon, hopen'⟩ : ∃ d, c.logon m.sid ack.uid = some d ∧
    d.sid = m.sid ∧ d.status = .logon ∧ d.closed = false :=
    ⟨_, Connection.logon_eq_some_iff.2 ⟨hcheck, hopen, rfl⟩, rfl, rfl, hopen⟩
  have hcid : d.cid = ack.cid :=
    (Connection.grows_of_logon hlog).cid.trans (hh.numbered.cid_eq _ c hc)
  have hd : ((h.succeeded ack.cid old d).evict old).2.conns.find? ack.cid = some d :=
    (Hub.find?_succeeded hc hold hne ack.cid).trans (by rw [if_neg (Ne.symm hne), if_pos rfl])
  have s₁ : (evict old (some (m, ack.cid))).step (h.succeeded ack.cid old d) =
      some (((h.succeeded ack.cid old d).evict old).2,
        .next (.waiting ((h.succeeded ack.cid old d).evict old).1 (some (m, ack.cid)))) := rfl
  rw [run_received hh.numbered hm hack hok hget hlog hroute hne hget', run_of_next s₁, ← hsid]
  exact Hub.handsOver_of_queues hh.mirrored hq hget hget' hne hlogon
    (queues_waiting hd hcid hopen' _ m)

end Downlink

end EdgeGateway
