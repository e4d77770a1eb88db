import EdgeGateway.Proofs.Gateway.Endings
import EdgeGateway.Proofs.Gateway.Identity
import EdgeGateway.Proofs.Gateway.Routes
import EdgeGateway.Proofs.Gateway.Verdicts

/-!
# What is left of a session

When a connection is let go everything is undone that its acceptance has brought about, and what
came of it: the route, the memberships, and the backend is told. Whether there is anything to undo
is decided by the number of the session, and number 0 stands for none, though the backend may open
it. `undone_iff` says that nothing is left of any other session, and that the route of session 0 is
left.
-/

namespace EdgeGateway.Gateway

variable {s : Settings} {t u v : List (Gateway × Move)} {g b b' : Gateway} {m : Move}
  {cid sid : UInt64} {w : Message}

/-- Nothing is left of a session that a connection has been given: nothing is routed to the
connection, the session is in no room, and the backend is told that it has ended, once if the client
has not told it before. -/
structure Undone (s : Settings) (t : List (Gateway × Move)) (g : Gateway)
    (sid cid : UInt64) : Prop where
  unrouted : ∀ x, g.hub.router.lookup x ≠ some cid
  roomless : ¬ g.hub.rooms.Present sid
  told : endings t cid ≠ []
  /-- What tells it is about this session, and is in the outbound queue or on its way there. -/
  handed : ∀ w ∈ endings t cid, w.cmd = .offline ∧ w.sid = sid ∧
    (w ∈ g.hub.farewells ∨ w.wrap s.link.nid ∈ sent t)
  once : partings t cid = [] → (endings t cid).length = 1

/-- A session has been accepted for an open connection that waited for it, then the connection has
been let go, and no other connection has been given the session since. -/
inductive Dismissed : List (Gateway × Move) → UInt64 → UInt64 → Prop
  | mk {u v : List (Gateway × Move)} {b k : Gateway} {m : Move} {w : Message} {ack : OnlineAck}
    {c : Connection} : b.verdict? m = some (w, ack) → ack.code = ResultCode.ok →
    b.hub.conns.get? ack.cid = some c → c.status = .check → c.closed = false →
    (k, .finishSocket ack.cid) ∈ v →
    (∀ p ∈ v, ∀ i, i ≠ ack.cid → p.1.granted? i p.2 ≠ some w.sid) →
    Dismissed (u ++ (b, m) :: v) w.sid ack.cid

/-! ### From the acceptance to the end -/

private theorem finished_of_mem (ht : Trail s t g) (hk : (b, .finishSocket cid) ∈ t) :
    ∃ x, g.standing? cid = some x ∧ x.finished = true := by
  obtain ⟨u, v, -, rfl, hu, -⟩ := ht.split_of_mem hk
  refine ht.onward (P := fun _ g ↦ ∃ x, g.standing? cid = some x ∧ x.finished = true) ?_ ?_
  · intro b' ht' hm
    cases turn_of_move? hu.sound.tables.numbered hu.sound.calls hm with
    | idle hi => exact hi.elim
    | @finishSocket _ c x _ hx _ _ _ _ _ he =>
      have he' := he cid
      rw [hx, Option.map_some, if_pos rfl] at he'
      have hp := ht'.sound.paired cid
      rw [he', Option.isSome_some] at hp
      obtain ⟨y, hy⟩ := Option.isSome_iff_exists.1 hp.symm
      exact ⟨⟨y, x.listener, true⟩, standing?_eq_some_iff.2 ⟨hy, x.inbox, he'⟩, rfl⟩
  · rintro w k k' n ht ⟨x, hx, hf⟩ - hc hm
    rcases standing_of_move? ht.sound hc hm cid with ⟨x', hx', y, hy, hstep⟩ | ⟨hnone, -⟩
    · cases hx.symm.trans hx'
      have hfit := ht.fit hx
      refine ⟨y, hy, (hfit.step hstep).finished_iff.2 ?_⟩
      have hs := hfit.finished_iff.1 hf
      rcases hstep.session hfit with ⟨hcheck, -⟩ | ⟨-, -, -, -, hclose⟩
      · cases hs.symm.trans hcheck
      · exact hclose hs
    · cases hx.symm.trans hnone

-- As long as no other connection is given it, a session that has been accepted is routed to its
-- connection, or it has been taken back and the backend told.
private theorem routed_or_told (ht : Trail s (u ++ (b, m) :: v) g) (hm : b.move? m = some b')
    (hb : b'.hub.bearing? cid = some ⟨sid, .logon, false, true, true⟩)
    (hkeep : ∀ p ∈ v, ∀ k, k ≠ cid → p.1.granted? k p.2 ≠ some sid) :
    g.hub.router.lookup sid = some cid ∨
      sid ≠ 0 ∧ g.hub.router.lookup sid = none ∧ endings (u ++ (b, m) :: v) cid ≠ [] := by
  refine ht.onward (P := fun v g ↦ g.hub.router.lookup sid = some cid ∨
    sid ≠ 0 ∧ g.hub.router.lookup sid = none ∧ endings (u ++ (b, m) :: v) cid ≠ []) ?_ ?_
  · intro e ht' he
    cases hm.symm.trans he
    refine .inl ((Hub.lookup_eq_some_iff ht'.sound.tables).2 ?_)
    rw [Hub.claim?, hb, Option.map_some]
  · intro w k k' n ht hw hn hc hm
    cases reroutes_of_move? ht.sound hc hm sid with
    | same he =>
      rw [he]
      refine hw.imp_right fun h ↦ ⟨h.1, h.2.1, endings_ne_nil ?_ h.2.2⟩
      exact ((List.sublist_append_left w _).cons_cons (b, m)).append_left u
    | @granted i hgrant hl =>
      have hi : i = cid := not_not.1 fun hne ↦ hkeep (k, n) hn i hne hgrant
      exact .inl (hi ▸ hl)
    | @released i hr h0 hl hnone =>
      rcases hw with hl' | ⟨-, hl', -⟩ <;> cases hl.symm.trans hl'
      obtain ⟨c, hf, rfl, -⟩ := ht.sound.tables.owner sid cid hl
      have htold := told_of_releasing ht hr ⟨c, hf, h0, hl⟩
      rw [List.append_assoc, List.cons_append] at htold
      exact .inr ⟨h0, hnone, htold⟩

private theorem eq_zero_of_finished (ht : Trail s t g) {x : Standing}
    (hx : g.standing? cid = some x) (hf : x.finished = true)
    (hl : g.hub.router.lookup sid = some cid) : sid = x.sid ∧ sid = 0 := by
  obtain ⟨hb, -⟩ := standing?_eq_some_iff.1 hx
  have hclaim := (Hub.lookup_eq_some_iff ht.sound.tables).1 hl
  rw [Hub.claim?, hb, Option.map_some, Option.some.injEq, Prod.mk.injEq] at hclaim
  obtain ⟨rfl, hr⟩ := hclaim
  exact ⟨rfl, not_not.1 fun h0 ↦ (ht.fit hx).gone hf ⟨h0, hr⟩⟩

private theorem handed_of_endings (ht : Trail s t g) (hl : logons t cid = [sid])
    (hw : w ∈ endings t cid) : w.cmd = .offline ∧ w.sid = sid ∧
      (w ∈ g.hub.farewells ∨ w.wrap s.link.nid ∈ sent t) := by
  rcases List.mem_append.1 hw with hp | hq
  · obtain ⟨hr, hoff⟩ := List.mem_filter.1 hp
    obtain ⟨⟨e, w'⟩, hew, rfl⟩ := List.mem_map.1 hr
    have hcmd : w'.cmd = .offline := eq_of_beq hoff
    have hsent := (relays_sublist_sent ht cid).subset (List.mem_map_of_mem hew)
    obtain ⟨sid', w₀, hl', -, rfl⟩ := named_of_relayed ht hew (by rw [hcmd]; decide)
    cases hl.symm.trans hl'
    exact ⟨hcmd, rfl, .inr hsent⟩
  · obtain ⟨sid', hl', hmake⟩ := named_of_noticed ht hq
    cases hl.symm.trans hl'
    exact ⟨by rw [hmake]; rfl, by rw [hmake]; rfl, handed_of_notices ht hq⟩

/-- Once a connection has been let go whose session has been accepted, and as long as no other
connection is given the session, nothing is left of it just when it is not session 0, of which the
route is left. -/
theorem undone_iff (ht : Trail s t g) (hd : Dismissed t sid cid) :
    (Undone s t g sid cid ↔ sid ≠ 0) ∧ (sid = 0 → g.hub.router.lookup 0 = some cid) := by
  cases hd with
  | @mk u v b k m w ack c hv hok hc hcheck hopen hgone hkeep =>
    have hu := ht.split.1.sound
    have hf := (Connections.get?_eq_some_iff.1 hc).2
    obtain ⟨b', hm, hb⟩ : ∃ b', b.move? m = some b' ∧
        b'.hub.bearing? ack.cid = some ⟨w.sid, .logon, false, true, true⟩ := by
      obtain ⟨b', hm, -⟩ := ht.split.2.2
      exact ⟨b', hm, (judges_of_verdict hu.tables.numbered hv hm).accepted hc hok hcheck hopen⟩
    have hroute := routed_or_told ht hm hb hkeep
    have hzero : w.sid = 0 → g.hub.router.lookup 0 = some ack.cid := by
      intro h0
      rcases hroute with hl | ⟨hne, -⟩
      · exact h0 ▸ hl
      · exact absurd h0 hne
    refine ⟨⟨fun h h0 ↦ h.unrouted 0 (hzero h0), fun h0 ↦ ?_⟩, hzero⟩
    obtain ⟨x, hx, hfin⟩ := finished_of_mem ht
      (List.mem_append_right _ (List.mem_cons_of_mem _ hgone))
    -- The connection still has the session that it was given.
    obtain ⟨hl, hsid⟩ : logons (u ++ (b, m) :: v) ack.cid = [x.sid] ∧ w.sid = x.sid := by
      have hmem : w.sid ∈ logons (u ++ (b, m) :: v) ack.cid :=
        List.mem_filterMap.2 ⟨(b, m), by simp, granted?_of_check hm hf hcheck hb rfl⟩
      rcases (ht.logons_cases ack.cid).2 x hx with ⟨hnil, -⟩ | ⟨hl, -⟩
      · rw [hnil] at hmem
        cases hmem
      · rw [hl] at hmem
        exact ⟨hl, List.mem_singleton.1 hmem⟩
    have hunrouted : ∀ y, g.hub.router.lookup y ≠ some ack.cid := by
      intro y hy
      obtain ⟨rfl, hy0⟩ := eq_zero_of_finished ht hx hfin hy
      exact h0 (hsid.trans hy0)
    obtain ⟨hnone, htold⟩ : g.hub.router.lookup w.sid = none ∧
        endings (u ++ (b, m) :: v) ack.cid ≠ [] := by
      rcases hroute with hl | ⟨-, hnone, htold⟩
      · exact absurd hl (hunrouted w.sid)
      · exact ⟨hnone, htold⟩
    refine ⟨hunrouted, ?_, htold, fun _ ↦ handed_of_endings ht (hsid ▸ hl), ?_⟩
    · intro hp
      have hsome := housed_of_trail ht hp
      rw [hnone] at hsome
      cases hsome
    · intro hp
      have hlen := ((told_of_trail ht ack.cid).2 x hx).noticed_once
      have hpos := List.length_pos_of_ne_nil htold
      rw [endings, hp, List.nil_append] at hpos ⊢
      omega

/-- The backend opens a session for a client and lets it into a room, and then the client goes away.
-/
def Takeover.staying (sid : UInt64) : List Move :=
  [.start ⟨.four 127 0 0 1, 8080⟩, .link (.connect 0), .link (.transmit 0 1000)] ++
    [.connect, .say 1 (.binary request.bytes), .hear 1] ++ handling (.opening sid 1) ++
    handling (.entry sid 7 1) ++
    [.say 1 .close, .hear 1, .takeMessage 1, .failWrite 1, .closeSocket 1, .finishSocket 1]

-- In such a run the session is accepted in the ninth move, and there is only one client.
private def stays? (t : List (Gateway × Move)) (sid : UInt64) : Option Bool := do
  let p ← t[8]?
  let x ← p.1.verdict? p.2
  let c ← p.1.hub.conns.get? 1
  let last ← (t.drop 9).getLast?
  return decide
    (x.1.sid = sid ∧ x.2.cid = 1 ∧ x.2.code = ResultCode.ok ∧ c.status = .check ∧
      c.closed = false ∧ last.2 = .finishSocket 1 ∧
      ∀ p ∈ t.drop 9, p.1.hub.conns.next = 2 ∧ p.1.granted? 0 p.2 = none)

private theorem dismissed_staying (ht : Trail s t g) (h : stays? t sid = some true) :
    Dismissed t sid 1 := by
  obtain ⟨⟨b, m⟩, hb, h⟩ := Option.bind_eq_some_iff.1 h
  obtain ⟨⟨w, ack⟩, hv, h⟩ := Option.bind_eq_some_iff.1 h
  obtain ⟨c, hc, h⟩ := Option.bind_eq_some_iff.1 h
  obtain ⟨⟨k, n⟩, hk, h⟩ := Option.bind_eq_some_iff.1 h
  obtain ⟨rfl, hcid, hok, hcheck, hopen, rfl, hall⟩ := of_decide_eq_true (Option.some.inj h)
  obtain ⟨hlt, hb⟩ := List.getElem?_eq_some_iff.1 hb
  have hsplit : t.take 8 ++ (b, m) :: t.drop 9 = t := by
    rw [← hb, ← List.drop_eq_getElem_cons hlt, List.take_append_drop]
  simp only at hcid
  rw [← hcid] at hc hk ⊢
  rw [← hsplit]
  refine .mk hv hok hc hcheck hopen (List.mem_of_getLast? hk) ?_
  rintro ⟨e, n⟩ hp i hi
  obtain ⟨hnext, hzero⟩ := hall _ hp
  obtain ⟨u, v, -, -, hu, -⟩ := ht.split_of_mem (List.mem_of_mem_drop hp)
  have hnone : e.granted? i n = none := by
    by_cases h0 : i = 0
    · rw [h0]
      exact hzero
    · refine granted?_of_absent (Option.not_isSome_iff_eq_none.1 fun hsome ↦ ?_)
      have hlt := hu.sound.tables.numbered.lt_next i hsome (by rw [hnext]; decide)
      rw [hnext] at hlt
      rw [hcid] at hi
      grind
  rw [hnone]
  nofun

/-- Nothing is left of session 42. -/
theorem undone_staying :
    ∃ t g, Trail Takeover.settings t g ∧ t.map Prod.snd = Takeover.staying 42 ∧
      Dismissed t 42 1 ∧ (∃ p ∈ t, p.1.hub.rooms.Present 42) ∧
      Undone Takeover.settings t g 42 1 := by
  have hview : ((fresh Takeover.settings).trail? (Takeover.staying 42)).map (fun r ↦
      (stays? r.1 42, r.1.any fun p ↦ (p.1.hub.rooms.carrier? 42).isSome)) =
      some (some true, true) := by decide +kernel
  obtain ⟨⟨t, g⟩, hrun, hv⟩ := Option.map_eq_some_iff.1 hview
  obtain ⟨ht, hmoves⟩ := trail_of_trail? hrun
  obtain ⟨hstays, hany⟩ := Prod.mk.injEq .. ▸ hv
  have hd := dismissed_staying ht hstays
  obtain ⟨⟨b, m⟩, hb, hroom⟩ := List.any_eq_true.1 hany
  obtain ⟨u, v, -, -, hu, -⟩ := ht.split_of_mem hb
  exact ⟨t, g, ht, hmoves, hd,
    ⟨(b, m), hb, (hu.sound.tables.mirrored.present_iff 42).2 hroom⟩,
    (undone_iff ht hd).1.2 (by decide)⟩

/-- All is left of session 0: it stays routed and in its room, and the backend is not told. -/
theorem undone_fails_zero :
    ∃ t g, Trail Takeover.settings t g ∧ t.map Prod.snd = Takeover.staying 0 ∧
      Dismissed t 0 1 ∧ g.hub.router.lookup 0 = some 1 ∧ g.hub.rooms.Present 0 ∧
      endings t 1 = [] ∧ ¬ Undone Takeover.settings t g 0 1 := by
  have hview : ((fresh Takeover.settings).trail? (Takeover.staying 0)).map (fun r ↦
      (stays? r.1 0, r.2.hub.router.lookup 0, (r.2.hub.rooms.carrier? 0).isSome, endings r.1 1)) =
      some (some true, some 1, true, []) := by decide +kernel
  obtain ⟨⟨t, g⟩, hrun, hv⟩ := Option.map_eq_some_iff.1 hview
  obtain ⟨ht, hmoves⟩ := trail_of_trail? hrun
  simp only [Prod.mk.injEq] at hv
  obtain ⟨hstays, hl, hroom, hend⟩ := hv
  exact ⟨t, g, ht, hmoves, dismissed_staying ht hstays, hl,
    (ht.sound.tables.mirrored.present_iff 0).2 hroom, hend, fun h ↦ h.told hend⟩

end EdgeGateway.Gateway
