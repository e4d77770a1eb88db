import EdgeGateway.Proofs.Gateway.Trail

/-!
# Where routes come from and where they go

The route of a session changes only as the session is given to a connection or as the connection to
which it is routed is let go, and then the session leaves all its rooms. `reroutes_of_move?` says
the first, `housed_of_trail` that between two moves nobody is in a room whose session is not routed.
-/

namespace EdgeGateway

/-! ### Routes and connections -/

namespace Hub

variable {h h' : Hub} {cid sid : UInt64}

/-- The session of a connection, and whether it is routed to the connection. -/
def claim? (h : Hub) (cid : UInt64) : Option (UInt64 × Bool) :=
  (h.bearing? cid).map fun b ↦ (b.sid, b.routed)

/-- A session is routed to the connection that claims it. -/
theorem lookup_eq_some_iff (hs : Crew.Sound { hub := h }) :
    h.router.lookup sid = some cid ↔ h.claim? cid = some (sid, true) := by
  constructor
  · intro hl
    obtain ⟨c, hf, rfl, -⟩ := hs.owner sid cid hl
    have hr : (h.router.lookup c.sid == some cid) = true := beq_iff_eq.2 hl
    simp only [claim?, bearing?, hf, Option.map_some, bearingOf, hr]
  · intro hc
    obtain ⟨b, hb, he⟩ := Option.map_eq_some_iff.1 hc
    obtain ⟨c, -, rfl⟩ := Option.map_eq_some_iff.1 hb
    obtain ⟨rfl, hr⟩ := Prod.mk.injEq .. ▸ he
    exact beq_iff_eq.1 hr

private theorem lookup_congr (hs : Crew.Sound { hub := h }) (hs' : Crew.Sound { hub := h' })
    (hc : ∀ k, h'.claim? k = h.claim? k) (sid : UInt64) :
    h'.router.lookup sid = h.router.lookup sid := by
  apply Option.ext
  intro k
  rw [lookup_eq_some_iff hs', lookup_eq_some_iff hs, hc]

private theorem Quiet.claim? (hq : h.Quiet h') (k : UInt64) : h'.claim? k = h.claim? k := by
  rw [Hub.claim?, hq.bearing]
  rfl

private theorem claim?_setStatus (h : Hub) (k : UInt64) (status : Status) (cid : UInt64) :
    (h.modifyConn k fun c ↦ c.setStatus status).claim? cid = h.claim? cid := by
  rw [claim?, bearing?_setStatus, Option.map_map, claim?]
  congr 1
  funext b
  simp only [Function.comp_apply]
  split <;> rfl

private theorem claim?_admitted {c d : Connection} (hf : h.conns.find? cid = some c) (k : UInt64) :
    (h.admitted cid d).claim? k =
      if k = cid then some (d.sid, true)
      else (h.claim? k).map fun p ↦ (p.1, p.2 && p.1 != d.sid) := by
  rw [claim?, bearing?_admitted hf]
  split
  · rfl
  · rw [claim?, Option.map_map, Option.map_map]
    rfl

private theorem lookup_of_admitted (hs : Crew.Sound { hub := h }) (hs' : Crew.Sound { hub := h' })
    {uid s : UInt64} {c d : Connection} (hf : h.conns.find? cid = some c)
    (hlog : c.logon s uid = some d)
    (hc : ∀ k, h'.claim? k = (h.admitted cid d).claim? k) (sid : UInt64) :
    h'.router.lookup sid = if sid = s then some cid else h.router.lookup sid := by
  obtain ⟨hcheck, -, rfl⟩ := Connection.logon_eq_some_iff.1 hlog
  apply Option.ext
  intro k
  rw [lookup_eq_some_iff hs', hc, claim?_admitted hf]
  by_cases hk : k = cid
  · subst hk
    rw [if_pos rfl]
    split
    · next he => simp [he]
    · next hne =>
      -- The connection was waiting for its session, so nothing was routed to it.
      refine iff_of_false (fun h ↦ hne (Prod.ext_iff.1 (Option.some.inj h)).1.symm) fun hl ↦ ?_
      obtain ⟨c', hf', -, hlate⟩ := hs.owner sid k hl
      cases hf.symm.trans hf'
      exact hlate (.inr hcheck)
  · rw [if_neg hk]
    split
    · next he =>
      refine iff_of_false ?_ fun h ↦ hk (Option.some.inj h).symm
      intro hx
      obtain ⟨p, -, hp⟩ := Option.map_eq_some_iff.1 hx
      obtain ⟨hsid, hr⟩ := Prod.mk.injEq .. ▸ hp
      rw [hsid, he] at hr
      simp at hr
    · next hne =>
      rw [lookup_eq_some_iff hs]
      cases hp : h.claim? k with
      | none => exact Iff.rfl
      | some p =>
        obtain ⟨t, r⟩ := p
        simp only [Option.map_some, Option.some.injEq, Prod.mk.injEq, Bool.and_eq_true, bne_iff_ne]
        exact ⟨fun hx ↦ ⟨hx.1, hx.2.1⟩, fun hx ↦ ⟨hx.1, hx.2, hx.1 ▸ hne⟩⟩

/-- A release takes away the route of the session of its connection, or none. -/
theorem lookup_released (h : Hub) (cid sid : UInt64) :
    (h.released cid).router.lookup sid = h.router.lookup sid ∨
      sid ≠ 0 ∧ h.router.lookup sid = some cid ∧
      (h.released cid).router.lookup sid = none := by
  rw [released]
  split
  · exact .inl rfl
  · split
    · next c _ hc =>
      by_cases hsid : sid = c.sid
      · subst hsid
        exact .inr ⟨hc.1, hc.2, (Router.lookup_unbind ..).trans (if_pos ⟨rfl, hc.2⟩)⟩
      · exact .inl ((Router.lookup_unbind ..).trans (if_neg fun hx ↦ hsid hx.1))
    · exact .inl rfl

end Hub

namespace Gateway

variable {s : Settings} {t : List (Gateway × Move)} {g g' : Gateway} {m : Move} {cid sid : UInt64}

/-- What a move can do to the route of a session. -/
inductive Reroutes (g : Gateway) (sid : UInt64) (m : Move) (g' : Gateway) : Prop
  | same : g'.hub.router.lookup sid = g.hub.router.lookup sid → Reroutes g sid m g'
  /-- The session is given to a connection. -/
  | granted {cid : UInt64} : g.granted? cid m = some sid → g'.hub.router.lookup sid = some cid →
    Reroutes g sid m g'
  /-- The connection that the session is routed to is released. -/
  | released {cid : UInt64} : g.releasing? m = some cid → sid ≠ 0 →
    g.hub.router.lookup sid = some cid → g'.hub.router.lookup sid = none → Reroutes g sid m g'

private theorem reroutes_of_released (h : g.releasing? m = some cid) (conns : Connections)
    (hr : g'.hub.router = (Hub.released { g.hub with conns } cid).router) (sid : UInt64) :
    g.Reroutes sid m g' := by
  rcases Hub.lookup_released { g.hub with conns } cid sid with hs | ⟨h0, hl, hnone⟩
  · exact .same (by rw [hr, hs])
  · exact .released h h0 hl (by rw [hr, hnone])

private theorem reroutes_of_handled (hs : Crew.Sound { hub := g.hub })
    (hs' : Crew.Sound { hub := g'.hub }) (hm : g.move? m = some g') (hh : g.hub.Handled g'.hub)
    (sid : UInt64) : g.Reroutes sid m g' := by
  generalize he : g'.hub = h' at hh
  rw [he] at hs'
  have admitted : ∀ {s k uid c d}, g.hub.conns.find? k = some c → c.logon s uid = some d →
      (∀ i, h'.claim? i = (g.hub.admitted k d).claim? i) →
      (∃ b, g'.hub.bearing? k = some b ∧ b.status = .logon ∧ b.sid = s) →
      g.Reroutes sid m g' := by
    rintro s k uid c d hf hlog hc ⟨b, hb, hl, hsid⟩
    have hroute := Hub.lookup_of_admitted hs hs' hf hlog hc sid
    rw [← he] at hroute
    split at hroute
    · next hx =>
      obtain ⟨hcheck, -⟩ := Connection.logon_eq_some_iff.1 hlog
      have hgrant := granted?_of_check hm hf hcheck hb hl
      rw [hsid, ← hx] at hgrant
      exact .granted hgrant hroute
    · exact .same hroute
  cases hh with
  | quiet hq =>
    refine .same ?_
    rw [he]
    exact Hub.lookup_congr hs hs' hq.claim? sid
  | kicked _ _ hq =>
    refine .same ?_
    rw [he]
    refine Hub.lookup_congr hs hs' (fun k ↦ ?_) sid
    rw [hq.claim?, Hub.claim?_setStatus]
  | @admitted s k uid c d _ hf hlog hq =>
    obtain ⟨-, -, hd⟩ := Connection.logon_eq_some_iff.1 hlog
    refine admitted hf hlog hq.claim?
      ⟨⟨d.sid, d.status, d.closed, g.hub.conns.isLive k, true⟩, ?_, ?_, ?_⟩
    · rw [he, hq.bearing, Hub.bearing?_admitted hf, if_pos rfl]
    · rw [hd]
    · rw [hd]
  | @tookOver s k uid old c d _ _ hf hlog _ hne _ hq =>
    obtain ⟨-, -, hd⟩ := Connection.logon_eq_some_iff.1 hlog
    refine admitted hf hlog (fun i ↦ (hq.claim? i).trans (Hub.claim?_setStatus _ _ _ _))
      ⟨⟨d.sid, d.status, d.closed, g.hub.conns.isLive k, true⟩, ?_, ?_, ?_⟩
    · rw [he, hq.bearing, Hub.bearing?_setStatus, Hub.bearing?_admitted hf, if_pos rfl,
        Option.map_some,
        if_neg (Ne.symm hne)]
    · rw [hd]
    · rw [hd]

/-- In a move the route of a session stays as it is, or leads to the connection that is given the
session, or goes with the connection that it led to. -/
theorem reroutes_of_move? (hg : g.Sound) (hc : m = .connect → g.hub.conns.next ≠ 0)
    (h : g.move? m = some g') (sid : UInt64) : g.Reroutes sid m g' := by
  have hs' := (hg.move hc h).tables
  have hm := h
  cases effect_of_move? hg.tables.numbered hc h with
  | routine hr => exact .same (by rw [hr.tables.router])
  | @fetch i w f pool kind =>
    refine reroutes_of_handled hg.tables hs' hm ?_ sid
    rw [hub_runCall]
    exact Downlink.handled_run hg.tables.numbered kind f.body
  | @resume i w d hd =>
    have hrun := Downlink.run_waiting hg.tables.numbered (hg.calls.of_worker? hd)
    have hrel : g.releasing? (.resumeCall i w) = d.released? g.hub := by simp only [releasing?, hd]
    split at hrun
    · next k hk =>
      refine reroutes_of_released (hrel.trans hk) g.hub.conns ?_ sid
      rw [hub_runCall, hrun]
    · refine .same ?_
      rw [hub_runCall] at hs' ⊢
      exact Hub.lookup_congr hg.tables hs' hrun.claim? sid
  | @finish cid _ _ _ _ hh =>
    refine reroutes_of_released (m := .finishSocket cid) rfl (g.hub.conns.deregister cid) ?_ sid
    rw [hh, Closing.run_eq]
    rfl

end Gateway

/-! ### Rooms and routes -/

namespace Hub

/-- Every session that is in a room is routed, but for one that is on its way out of its rooms. -/
def Housed (h : Hub) (leaving : Option UInt64) : Prop :=
  ∀ sid, leaving ≠ some sid → (h.rooms.carrier? sid).isSome → (h.router.lookup sid).isSome

variable {h h' : Hub} {cid sid : UInt64}

private theorem Housed.changes (hh : h.Housed none) (hm : h.rooms.Mirrored) (hc : h.Changes h') :
    h'.Housed none := by
  intro sid hne hs
  obtain ⟨k, hk⟩ := Option.isSome_iff_exists.1 hs
  rw [hc.router]
  exact hh sid hne (by rw [hc.carrier? hm hk]; rfl)

private theorem Housed.bind (hh : h.Housed none) (sid cid : UInt64) :
    Hub.Housed { h with router := (h.router.bind sid cid).2 } none := by
  intro s hne hs
  show ((h.router.bind sid cid).2.lookup s).isSome
  rw [Router.lookup_bind]
  split
  · rfl
  · exact hh s hne hs

private theorem Housed.rebind (hh : h.Housed none) (sid cid : UInt64) :
    Hub.Housed { h with rooms := (h.rooms.rebind sid cid).2 } none := by
  intro s hne hs
  rw [show Rooms.carrier? (h.rooms.rebind sid cid).2 s = _ from Rooms.carrier?_rebind ..] at hs
  split at hs
  · next he =>
    rw [Option.isSome_map] at hs
    exact hh s hne (he ▸ hs)
  · exact hh s hne hs

private theorem Housed.join (hh : h.Housed none) (rid : UInt64) (gid : UInt32) {sid : UInt64}
    (hl : (h.router.lookup sid).isSome) (cid : UInt64) :
    Hub.Housed { h with rooms := h.rooms.join rid gid sid cid } none := by
  intro s hne hs
  rw [show Rooms.carrier? (h.rooms.join rid gid sid cid) s = _ from Rooms.carrier?_join ..] at hs
  split at hs
  · next he => exact he ▸ hl
  · exact hh s hne hs

private theorem Housed.unbind (hh : h.Housed none) (sid cid : UInt64) :
    Hub.Housed { h with router := (h.router.unbind sid cid).2 } (some sid) := by
  intro s hne hs
  show ((h.router.unbind sid cid).2.lookup s).isSome
  rw [Router.lookup_unbind, if_neg fun hx ↦ hne (by rw [hx.1])]
  exact hh s nofun hs

private theorem Housed.removeSession (hh : h.Housed (some sid)) (hm : h.rooms.Mirrored)
    (farewells : List Message) :
    Hub.Housed { h with rooms := (h.rooms.removeSession sid).2, farewells } none := by
  intro s _ hs
  rw [show Rooms.carrier? (h.rooms.removeSession sid).2 s =
    _ from Rooms.carrier?_removeSession hm ..] at hs
  split at hs
  · cases hs
  · next hne => exact hh s (fun hx ↦ hne (Option.some.inj hx).symm) hs

private theorem Housed.released (hh : h.Housed none) (hm : h.rooms.Mirrored) (cid : UInt64) :
    (h.released cid).Housed none := by
  rw [Hub.released]
  split
  · exact hh
  · split
    · exact Housed.removeSession (hh.unbind _ cid) hm _
    · exact hh

end Hub

/-- How rooms and routes stand before an operation of a release. -/
def Release.Houses (h : Hub) : Release → Prop
  | clear _ sid _ => h.Housed (some sid)
  | _ => h.Housed none

private theorem Release.houses_step {h h' : Hub} {r : Release} {o : Option Release}
    (hm : h.rooms.Mirrored) (hr : r.Houses h) (hs : r.step h = (h', o)) :
    match o with
    | some r' => r'.Houses h'
    | none => h'.Housed none := by
  cases r with
  | inspect cid =>
    simp only [step] at hs
    split at hs
    · cases hs
      exact hr
    · split at hs <;> cases hs <;> exact hr
  | unbind cid sid status =>
    rw [step_unbind] at hs
    split at hs <;> cases hs
    · exact Hub.Housed.unbind hr sid cid
    · exact hr
  | clear cid sid status =>
    simp only [step] at hs
    cases hs
    show Hub.Housed (if _ then _ else _) none
    split
    · exact Hub.Housed.removeSession hr hm h.farewells
    · exact Hub.Housed.removeSession hr hm _

namespace Downlink

/-- How rooms and routes stand before a step of a handling. -/
def Houses (h : Hub) : Downlink → Prop
  | enter m _ _ _ => h.Housed none ∧ (h.router.lookup m.sid).isSome
  | release r => r.Houses h
  | _ => h.Housed none

variable {h h' : Hub} {d : Downlink} {o : Outcome}

private theorem houses_plain (hs : Crew.Sound ⟨h, [d], []⟩) (hh : h.Housed none)
    (hd : d.step h = some (h', o)) (hp : d.Plain) : h'.Housed none :=
  hh.changes hs.mirrored (changes_of_step hd hp hs.numbered)

private theorem houses_step (hs : Crew.Sound ⟨h, [d], []⟩) (hh : d.Houses h)
    (hd : d.step h = some (h', o)) :
    match o with
    | .next d' => d'.Houses h'
    | .done _ => h'.Housed none := by
  cases d with
  | received kind body =>
    obtain ⟨rfl, ⟨e, rfl⟩ | ⟨m, d, -, -, rfl, hb⟩⟩ := begins_of_received hd
    · exact hh
    · cases hb <;> exact hh
  | judge m ack =>
    simp only [step] at hd
    split at hd <;> cases hd
    · exact hh
    · show Houses h (if _ then _ else _)
      split <;> exact hh
  | logon m cid uid =>
    simp only [step] at hd
    split at hd <;> cases hd <;> exact hh
  | bind m cid =>
    cases hd
    exact Hub.Housed.bind hh m.sid cid
  | rebind m cid displaced =>
    have hk := Hub.Housed.rebind hh m.sid cid
    simp only [step] at hd
    split at hd <;> cases hd <;> exact hk
  | verify m cid =>
    simp only [step] at hd
    split at hd <;> cases hd
    · show Houses h (if _ then _ else _)
      split <;> exact hh
    · exact hh
  | release r =>
    simp only [step] at hd
    split at hd <;> cases hd
    · next hr => exact Release.houses_step hs.mirrored hh hr
    · next hr => exact Release.houses_step hs.mirrored hh hr
  | join m rid gid =>
    simp only [step] at hd
    split at hd <;> cases hd
    · next hl => exact ⟨hh, by rw [hl]; rfl⟩
    · exact hh
  | enter m rid gid cid =>
    cases hd
    exact hh.1.join rid gid hh.2 cid
  | fanOut m members =>
    have hk := houses_plain hs hh hd trivial
    cases members with
    | nil =>
      cases hd
      exact hk
    | cons x members =>
      simp only [step] at hd
      split at hd <;> cases hd <;> exact hk
  | _ =>
    have hk := houses_plain hs hh hd trivial
    simp only [step, behindNotice] at hd
    repeat' split at hd
    all_goals cases hd
    all_goals exact hk

/-- When a handling is over or has to wait, everybody is routed who is in a room. -/
theorem housed_run (hs : Crew.Sound ⟨h, [d], []⟩) (hh : d.Houses h) :
    (d.run h).1.Housed none := by
  refine run_induction (P := fun h d ↦ Crew.Sound ⟨h, [d], []⟩ ∧ d.Houses h)
    (Q := (Hub.Housed · none))
    ?_ ?_ ?_ ⟨hs, hh⟩
  · rintro h d ⟨-, hh⟩ hd
    obtain ⟨ticket, after, rfl⟩ := eq_waiting_of_step_eq_none hd
    exact hh
  · rintro h h' d d' ⟨hs, hh⟩ hd
    exact ⟨hs.step hd, houses_step hs hh hd⟩
  · rintro h h' d r ⟨hs, hh⟩ hd
    exact houses_step hs hh hd

end Downlink

namespace Gateway

variable {s : Settings} {t : List (Gateway × Move)} {g g' : Gateway} {m : Move}

private theorem housed_of_move? (hg : g.Sound) (hh : g.hub.Housed none)
    (hc : m = .connect → g.hub.conns.next ≠ 0) (h : g.move? m = some g') :
    g'.hub.Housed none := by
  have alone : ∀ {d : Downlink}, d.Founded g.hub → Crew.Sound ⟨g.hub, [d], []⟩ := fun hd ↦
    ⟨hg.tables.numbered, hg.tables.mirrored, hg.tables.owner, List.forall_mem_singleton.2 hd,
      List.forall_mem_nil _⟩
  cases effect_of_move? hg.tables.numbered hc h with
  | routine hr => exact hh.changes hg.tables.mirrored hr.tables
  | fetch =>
    rw [hub_runCall]
    exact Downlink.housed_run (alone trivial) hh
  | resume hd =>
    rw [hub_runCall]
    obtain ⟨ticket, after, rfl⟩ := hg.calls.of_worker? hd
    exact Downlink.housed_run (alone trivial) hh
  | finish _ _ hf =>
    rw [hf, Closing.run_eq]
    exact Hub.Housed.released (h := { g.hub with conns := g.hub.conns.deregister _ }) hh
      hg.tables.mirrored _

/-- In every state of every run each session that is in a room is routed. -/
theorem housed_of_trail (ht : Trail s t g) {sid : UInt64} (hp : g.hub.rooms.Present sid) :
    (g.hub.router.lookup sid).isSome := by
  have hh : g.hub.Housed none := by
    clear hp
    induction ht with
    | fresh =>
      intro sid _ hs
      cases hs
    | move ht hc hm ih => exact housed_of_move? ht.sound ih hc hm
  exact hh sid nofun ((ht.sound.tables.mirrored.present_iff sid).1 hp)

end Gateway

end EdgeGateway
