import EdgeGateway.Proofs.Gateway.Outbound

/-!
# What is said in whose name

What a client says is passed on only for a session that has been accepted, in the name of that
session and of the gateway's node, whatever the client wrote, and in the order in which the client
said it. `relays_in_name` puts this together for every run.
-/

namespace EdgeGateway.Gateway

variable {s : Settings} {t u v : List (Gateway × Move)} {g g' b b' : Gateway} {m : Move}
  {cid : UInt64} {e : SocketEvent} {c : Connection} {w : Message}

/-- A message that a listener hears is of no effect: its command is unknown, or no session has been
accepted that it could be about. -/
def Idles (c : Connection) (w : Message) : Prop :=
  uplinkCommands.lookup w.cmd = none ∨ w.cmd ≠ .online ∧ c.status ≠ .logon

/-- Nothing is done about such a message, but one that ends a session ends the listening. -/
theorem handle_of_idles (h : Hub) (hw : Idles c w) :
    Uplink.handle h c w = (h, if w.cmd = .offline then .disconnect else .proceed) := by
  have hoff : uplinkCommands.lookup .offline = some .offline := by decide
  rw [Uplink.handle]
  rcases hw with hl | ⟨hon, hs⟩
  · have hne : w.cmd ≠ .offline := by
      intro he
      rw [he, hoff] at hl
      cases hl
    rw [hl, if_neg hne]
  · split
    · next hl =>
      have hne : w.cmd ≠ .offline := by
        intro he
        rw [he, hoff] at hl
        cases hl
      rw [if_neg hne]
    · next hl => exact absurd ((Uplink.kind_iff hl).1.1 rfl) hon
    · next hl => rw [Uplink.offline, if_pos hs, if_pos ((Uplink.kind_iff hl).2.1 rfl)]
    · next hl =>
      rw [Uplink.transit, if_pos hs, if_neg fun he ↦ ?_]
      cases (Uplink.kind_iff hl).2.2 he
    · next hl =>
      rw [Uplink.quitRoom, if_pos hs, if_neg fun he ↦ ?_]
      cases (Uplink.kind_iff hl).2.2 he

private theorem get?_modifySocket_of_ne (g : Gateway) (f : Socket → Socket) {k : UInt64}
    (hk : k ≠ cid) : (g.modifySocket cid f).sockets.get? k = g.sockets.get? k :=
  (Table.get?_modify g.sockets cid k f).trans (if_neg hk)

/-- A message that a listener is about to handle can be heard. -/
theorem hear_of_heard (hh : b.heard? cid = some (e, c, w)) : ∃ b', b.hear cid = some b' := by
  obtain ⟨⟨k, d⟩, hs, hh⟩ := Option.bind_eq_some_iff.1 hh
  simp only at hh
  split at hh
  · next hl hi => exact exists_hear hs hl hi
  · cases hh

private theorem hear_of_idles (h : b.hear cid = some b') (hh : b.heard? cid = some (e, c, w))
    (hw : Idles c w) :
    b'.hub = b.hub ∧ b'.pool = b.pool ∧
      (∀ k, k ≠ cid → b'.sockets.get? k = b.sockets.get? k) ∧
      ∃ x, b'.ear? cid = some x ∧ (x.listener = .ended ↔ w.cmd = .offline) := by
  obtain ⟨s, c', e', inbox, g₁, hs, hl, hi, hg₁, ⟨hnone, -⟩ | ⟨w', -, hh', rfl⟩⟩ :=
    hear_eq h
  · cases hnone.symm.trans hh
  · cases hh.symm.trans hh'
    obtain ⟨hget, -, -⟩ := socket?_eq_some_iff.1 hs
    have hsockets : ∀ k, k ≠ cid → g₁.sockets.get? k = b.sockets.get? k := by
      intro k hk
      rw [hg₁, get?_modifySocket_of_ne b _ hk]
    have hear : g₁.ear? cid = some ⟨inbox, .listening, s.finished⟩ := by
      rw [hg₁, ear?_modifySocket, if_pos rfl, hget, Option.map_some, Socket.ear, hl]
    have hhub : g₁.hub = b.hub := by rw [hg₁]; rfl
    have hpool : g₁.pool = b.pool := by rw [hg₁]; rfl
    simp only [onMessage, handle_of_idles _ hw]
    by_cases hoff : w.cmd = .offline
    · simp only [if_pos hoff]
      refine ⟨hhub, hpool, fun k hk ↦ (get?_modifySocket_of_ne _ _ hk).trans (hsockets k hk),
        ?_⟩
      refine ⟨⟨inbox, .ended, s.finished⟩, ?_, iff_of_true rfl hoff⟩
      rw [ear?_setListener, show Gateway.ear? _ cid = _ from hear, Option.map_some, if_pos rfl]
    · simp only [if_neg hoff]
      exact ⟨hhub, hpool, hsockets, _, hear, iff_of_false (by rintro ⟨⟩) hoff⟩

/-! ### In whose name -/

private theorem logons_of_part {x : Standing} (ht : Trail s (u ++ v) g) (hu : Trail s u b)
    (hx : b.standing? cid = some x) (he : ¬ x.Early) (hc : x.status ≠ .close) :
    logons (u ++ v) cid = [x.sid] := by
  have hl : logons u cid = [x.sid] := by
    rcases (hu.logons_cases cid).2 x hx with ⟨-, he' | hc'⟩ | ⟨hl, -⟩
    · exact absurd he' he
    · exact absurd hc' hc
    · exact hl
  have happ : logons (u ++ v) cid = logons u cid ++ logons v cid := List.filterMap_append ..
  have hlen := ht.length_logons_le cid
  rw [happ, hl] at hlen ⊢
  rw [List.length_append, List.length_singleton] at hlen
  rw [List.length_eq_zero_iff.1 (by omega : (logons v cid).length = 0), List.append_nil]

/-- What is passed on for a connection, but its request, is in the name of its session. -/
theorem named_of_relayed (ht : Trail s t g) (hw : (e, w) ∈ relays t cid)
    (hon : w.cmd ≠ .online) :
    ∃ sid w₀, logons t cid = [sid] ∧ e.message? = some w₀ ∧
      w = w₀.readdress sid s.nid := by
  obtain ⟨⟨b, m⟩, hb, hr⟩ := List.mem_filterMap.1 hw
  have hr : b.relayed? cid m = some (e, w) := hr
  obtain ⟨u, v, b', rfl, hu, hc, hm⟩ := ht.split_of_mem hb
  rcases standing_of_move? hu.sound hc hm cid with ⟨x, hx, y, -, hstep⟩ | ⟨-, hr', -⟩
  · rw [hu.nid, hr] at hstep
    have done : ∀ {w₀}, x.status = .logon → e.message? = some w₀ →
        ∃ sid w₁, logons (u ++ (b, m) :: v) cid = [sid] ∧ e.message? = some w₁ ∧
          w₀.readdress x.sid s.nid = w₁.readdress sid s.nid := by
      intro w₀ hs he
      refine ⟨x.sid, w₀, logons_of_part ht hu hx ?_ (by rw [hs]; decide), he, rfl⟩
      rintro (h | h) <;> cases hs.symm.trans h
    generalize b.noticed? cid m = n at hstep
    cases hstep with
    | request _ _ hw => exact absurd hw hon
    | relay _ _ hs he | offline _ _ hs he | logOff _ _ hs he => exact done hs he
  · cases hr'.symm.trans hr

/-- The end of a session is told in the name of that session. -/
theorem named_of_noticed (ht : Trail s t g) (hw : w ∈ notices t cid) :
    ∃ sid, logons t cid = [sid] ∧ w = .make .offline s.nid sid [] := by
  obtain ⟨⟨b, m⟩, hb, hn⟩ := List.mem_filterMap.1 hw
  have hn : b.noticed? cid m = some w := hn
  obtain ⟨u, v, b', rfl, hu, hc, hm⟩ := ht.split_of_mem hb
  rcases standing_of_move? hu.sound hc hm cid with ⟨x, hx, y, -, hstep⟩ | ⟨-, -, hn', -⟩
  · rw [hu.nid, hn] at hstep
    have hfit := hu.fit hx
    have done : some w = x.parting? s.nid →
        ∃ sid, logons (u ++ (b, m) :: v) cid = [sid] ∧ w = .make .offline s.nid sid [] := by
      intro h
      obtain ⟨⟨ho, -⟩, h⟩ := Option.ite_none_right_eq_some.1 h.symm
      cases h
      have hopen : x.status ≠ .close := fun hc ↦ hfit.gone (hfit.finished_iff.2 hc) ho
      exact ⟨x.sid, logons_of_part ht hu hx (hfit.routed ho.2) hopen, rfl⟩
    generalize b.relayed? cid m = r, hp : some w = n at hstep
    cases hstep with
    | release | finish => exact done hp
    | _ => cases hp
  · cases hn'.symm.trans hn

/-- A message that comes before a session has been accepted, or whose command is unknown, is of no
effect, but one that ends a session ends the listening. Whatever else goes out for a connection, but
its request, is in the name of the one session that it has been given and of the gateway's node. All
that is sent is that and the reports, and what is passed on is sent in the order in which the client
sent it, once at most. -/
theorem relays_in_name (ht : Trail s t g) (cid : UInt64) :
    (∀ (b : Gateway) e c w, b.heard? cid = some (e, c, w) → Idles c w →
      ∃ b', b.move? (.hear cid) = some b' ∧ b'.hub = b.hub ∧ b'.pool = b.pool ∧
        (∀ k, k ≠ cid → b'.sockets.get? k = b.sockets.get? k) ∧
        ∃ x, b'.ear? cid = some x ∧ (x.listener = .ended ↔ w.cmd = .offline)) ∧
    (∀ e w, (e, w) ∈ relays t cid → w.cmd ≠ .online →
      ∃ sid w₀, logons t cid = [sid] ∧ e.message? = some w₀ ∧
        w = w₀.readdress sid s.nid) ∧
    (∀ w ∈ notices t cid, ∃ sid, logons t cid = [sid] ∧ w = .make .offline s.nid sid []) ∧
    (∀ f ∈ sent t, f.cmd = .livenessReport ∨
      ∃ k w, (w ∈ (relays t k).map Prod.snd ∨ w ∈ notices t k) ∧
        f = w.wrap s.link.nid) ∧
    ((relays t cid).map Prod.fst ++ g.inbox cid).Sublist (said t cid) ∧
    ((relays t cid).map fun p ↦ p.2.wrap s.link.nid).Sublist (sent t) ∧
    g.pool.outbound.contents <:+ sent t := by
  refine ⟨?_, fun e w ↦ named_of_relayed ht, fun w ↦ named_of_noticed ht,
    fun f ↦ sent_cases ht, relays_sublist_said ht cid, relays_sublist_sent ht cid,
    contents_suffix_sent ht⟩
  intro b e c w hh hw
  obtain ⟨b', h⟩ := hear_of_heard hh
  exact ⟨b', h, hear_of_idles h hh hw⟩

/-- The message with which a client speaks in the name of session 7 and of node 9. -/
def Takeover.forged : Message := .make .ping 9 7 []

/-- A client speaks in the name of others, before it has a session and afterwards. -/
def Takeover.forging : List Move :=
  [.start ⟨.four 127 0 0 1, 8080⟩, .link (.connect 0), .link (.transmit 0 1000)] ++
    [.connect, .say 1 (.binary forged.bytes), .hear 1, .say 1 (.binary request.bytes), .hear 1] ++
    handling (.opening 42 1) ++ [.say 1 (.binary forged.bytes), .hear 1]

/-- Then it is not heard at first, and heard in its own name afterwards. -/
theorem relays_in_name_forging :
    ∃ t g, Trail Takeover.settings t g ∧ t.map Prod.snd = Takeover.forging ∧
      (relays t 1).map (fun p ↦ (p.1.message?, p.2.cmd)) =
        [(some Takeover.request, .online), (some Takeover.forged, .ping)] ∧
      ∃ e, (e, Message.make .ping 1 42 []) ∈ relays t 1 ∧
        e.message? = some Takeover.forged := by
  have hview : ((fresh Takeover.settings).trail? Takeover.forging).map (fun r ↦
      ((relays r.1 1).map (fun p ↦ (p.1.message?, p.2.cmd)), logons r.1 1)) =
      some ([(some Takeover.request, .online), (some Takeover.forged, .ping)], [42]) := by
    decide +kernel
  obtain ⟨⟨t, g⟩, hrun, hv⟩ := Option.map_eq_some_iff.1 hview
  obtain ⟨ht, hmoves⟩ := trail_of_trail? hrun
  obtain ⟨hrelays, hlogons⟩ := Prod.mk.injEq .. ▸ hv
  have hlast : (some Takeover.forged, Command.ping) ∈
      (relays t 1).map fun p ↦ (p.1.message?, p.2.cmd) := by
    rw [hrelays]
    exact List.mem_cons_of_mem _ (List.mem_singleton_self _)
  obtain ⟨⟨e, w⟩, hmem, hlast⟩ := List.mem_map.1 hlast
  obtain ⟨he, hcmd⟩ := Prod.mk.injEq .. ▸ hlast
  obtain ⟨-, hnamed, -⟩ := relays_in_name ht 1
  obtain ⟨sid, w₀, hsid, he', rfl⟩ :=
    hnamed e w hmem (by rw [show w.cmd = .ping from hcmd]; decide)
  rw [hlogons, List.singleton_inj] at hsid
  rw [show e.message? = some Takeover.forged from he, Option.some.injEq] at he'
  rw [← hsid, ← he'] at hmem
  exact ⟨t, g, ht, hmoves, hrelays, e, hmem, he⟩

end EdgeGateway.Gateway
