import EdgeGateway.Proofs.Gateway.Attendance

/-!
# Every connection of a gateway is supervised

What a connection's own tasks and its supervisor do in a move can happen to it under supervision,
too (`run_deeds`), as can what others do. So every move is a part of a run of the supervised
connection (`run_events`), and a run of the gateway is, for every connection, a whole one
(`Trail.run_history`). The main statement is `connections_supervised`.
-/

namespace EdgeGateway

namespace Gateway

variable {g g' : Gateway} {m : Move} {cid k : UInt64} {s : Socket} {c : Connection}

/-! ### Moves of its own -/

private theorem stage_of_unfinished (hf : s.finished = false) (c : Connection) :
    (s.supervision c).stage = .serving := by
  rw [Socket.supervision, hf]
  rfl

private theorem run_singleton {x y : Supervision} {e : Supervision.Event} (h : x.step? e = some y) :
    x.run? [e] = some y := Option.bind_eq_some_iff.2 ⟨y, h, rfl⟩

private theorem attended?_modifySocket (hx : g.attended? cid = some (s, c))
    (f : Socket → Socket) : (g.modifySocket cid f).attended? cid = some (f s, c) := by
  obtain ⟨hs, hc⟩ := attended?_eq_some_iff.1 hx
  refine attended?_eq_some_iff.2 ⟨?_, hc⟩
  rw [get?_modifySocket, if_pos rfl, hs]
  rfl

private theorem attended?_of_socket? (h : g.socket? cid = some (s, c)) :
    g.attended? cid = some (s, c) ∧ s.finished = false := by
  obtain ⟨hs, hc, hf⟩ := socket?_eq_some_iff.1 h
  exact ⟨attended?_eq_some_iff.2 ⟨hs, hc⟩, hf⟩

private theorem unfinished_of_bind {f : Socket × Connection → Option Gateway}
    (hx : g.attended? cid = some (s, c)) (h : (g.socket? cid).bind f = some g') :
    s.finished = false ∧ f (s, c) = some g' := by
  obtain ⟨⟨s', c'⟩, hs, h⟩ := Option.bind_eq_some_iff.1 h
  obtain ⟨hx', hf⟩ := attended?_of_socket? hs
  rw [hx'] at hx
  cases hx
  exact ⟨hf, h⟩

private theorem run_hear (hn : g.hub.conns.Numbered) (hx : g.attended? cid = some (s, c))
    (h : g.hear cid = some g') :
    ∃ t d, g'.attended? cid = some (t, d) ∧
      (s.supervision c).run? (g.deeds cid s t c d (.hear cid)) = some (t.supervision d) := by
  obtain ⟨s, c, e, inbox, g₁, hs, hl, -, rfl, hcases⟩ := hear_eq h
  obtain ⟨hx', hf⟩ := attended?_of_socket? hs
  rw [hx'] at hx
  cases hx
  have hserving := stage_of_unfinished hf c
  have hlisten : (s.supervision c).reader = .listening := congrArg Listener.reader hl
  have hx₁ := attended?_modifySocket hx' fun s ↦ { s with inbox }
  rcases hcases with ⟨hnone, rfl | rfl⟩ | ⟨m, -, hm, rfl⟩
  · refine ⟨_, _, hx₁, ?_⟩
    simp only [deeds, hnone]
    rw [if_neg (by rw [hl]; rintro ⟨⟩)]
    rfl
  · refine ⟨_, _, attended?_modifySocket hx₁ fun s ↦ { s with listener := .ended }, ?_⟩
    simp only [deeds, hnone]
    exact run_singleton (if_pos ⟨hserving, hlisten⟩)
  · obtain ⟨hget, hc⟩ := attended?_eq_some_iff.1 hx₁
    have hmind := minds_onMessage (g := g.modifySocket cid fun s ↦ { s with inbox }) hn hget hc m
    obtain ⟨l, ht⟩ := hmind.own
    have hd := hmind.conns cid
    rw [hc] at hd
    generalize hy : (onMessage _ cid c m).hub.conns.find? cid = y at hd
    cases hd with
    | @some _ d hd =>
      refine ⟨_, d, attended?_eq_some_iff.2 ⟨ht, hy⟩, ?_⟩
      simp only [deeds, hm]
      have hcall : (s.supervision c).step? (.called m) =
        some { s.supervision c with reader := .handling } :=
        if_pos ⟨hserving, hlisten⟩
      have hrest := Supervision.run_trans
        (Supervision.run_befalls (s := { s.supervision c with reader := .handling }) rfl hd)
        (Supervision.run_verdict (l := l) rfl)
      exact Option.bind_eq_some_iff.2 ⟨_, hcall, hrest⟩

private theorem run_resumeListener (hx : g.attended? cid = some (s, c))
    (h : g.resumeListener cid = some g') : ∃ t d, g'.attended? cid = some (t, d) ∧
      (s.supervision c).run? (g.deeds cid s t c d (.resumeListener cid)) =
      some (t.supervision d) := by
  obtain ⟨s, c, hs, hl, hmind⟩ := minds_resumeListener h
  obtain ⟨hx', -⟩ := attended?_of_socket? hs
  rw [hx'] at hx
  cases hx
  obtain ⟨l, ht⟩ := hmind.own
  have hd := hmind.conns cid
  rw [(attended?_eq_some_iff.1 hx').2] at hd
  generalize hy : g'.hub.conns.find? cid = y at hd
  cases hd with
  | @some _ d hd =>
    refine ⟨_, d, attended?_eq_some_iff.2 ⟨ht, hy⟩, ?_⟩
    exact Supervision.run_trans (Supervision.run_befalls (s := s.supervision c) rfl hd)
      (Supervision.run_verdict (l := l) hl)

private theorem run_hand {o : Outgoing} {d : Connection} {w : Supervision.Writer}
    {speaker : Speaker} (hf : s.finished = false) (hi : s.speaker = .idle)
    (hg : (s.supervision c).give? o = some (d, w)) (hw : speaker.writer = w) :
    (s.supervision c).run? (((s.hand o speaker).handed.drop s.handed.length).map .handed) =
      some ((s.hand o speaker).supervision d) := by
  rw [Socket.hand, List.drop_left]
  refine run_singleton ?_
  have hidle : (s.supervision c).writer = .idle := congrArg Speaker.writer hi
  have hclosure : c.closure = d.closure := by
    rcases Supervision.give?_eq_some_iff.1 hg with ⟨m, -, -, hd, -⟩ | ⟨-, rfl, -⟩
      | ⟨-, -, -, rfl, -⟩
    · rw [hd]
      rfl
    · rfl
    · rfl
  rw [Supervision.step?, if_pos ⟨stage_of_unfinished hf c, hidle⟩, hg, ← hw,
    Socket.supervision, Socket.supervision, hclosure]
  rfl

private theorem run_takeMessage (hn : g.hub.conns.Numbered) (hx : g.attended? cid = some (s, c))
    (h : g.takeMessage cid = some g') :
    ∃ t d, g'.attended? cid = some (t, d) ∧
      (s.supervision c).run? (g.deeds cid s t c d (.takeMessage cid)) = some (t.supervision d) := by
  obtain ⟨hf, h⟩ := unfinished_of_bind hx h
  obtain ⟨hget, hc⟩ := attended?_eq_some_iff.1 hx
  simp only at h
  split at h
  · cases h
  · next hi =>
    obtain ⟨⟨m, d⟩, hp, h⟩ := Option.bind_eq_some_iff.1 h
    cases h
    have hcid : d.cid = cid := (Connection.keeps_of_pop hp).cid.trans (hn.cid_eq cid c hc)
    have hd : Gateway.attended? { g with hub := { g.hub with conns := g.hub.conns.store d } } cid =
        some (s, d) := by
      refine attended?_eq_some_iff.2 ⟨hget, ?_⟩
      rw [Connections.store, hcid]
      refine (Connections.find?_modify ..).trans ?_
      rw [if_pos rfl, hc]
      rfl
    refine ⟨_, d, attended?_modifySocket hd _, ?_⟩
    have hgive : (s.supervision c).give? (.message m) = some (d, .writing) := by
      simp only [Supervision.give?, Socket.supervision, hp, if_true]
    exact run_hand hf (not_not.1 hi) hgive rfl

private theorem run_endSpeaker (hx : g.attended? cid = some (s, c))
    (hw : s.speaker.writer = .writing ∨ s.speaker.writer = .closing) :
    ∃ t d, (g.endSpeaker cid).attended? cid = some (t, d) ∧ t.speaker = .ended ∧
      (s.supervision c).run? [.writerEnded] = some (t.supervision d) := by
  obtain ⟨hget, hc⟩ := attended?_eq_some_iff.1 hx
  have hd : Gateway.attended? { g with hub := g.hub.modifyConn cid .abandon } cid =
    some (s, c.abandon) := by
    refine attended?_eq_some_iff.2 ⟨hget, ?_⟩
    refine (Connections.find?_modify ..).trans ?_
    rw [if_pos rfl, hc]
    rfl
  refine ⟨_, _, attended?_modifySocket hd _, rfl, ?_⟩
  exact run_singleton (if_pos hw)

private theorem run_finishSocket (hx : g.attended? cid = some (s, c))
    (h : g.finishSocket cid = some g') : ∃ t d, g'.attended? cid = some (t, d) ∧
      (s.supervision c).run? (g.deeds cid s t c d (.finishSocket cid)) =
      some (t.supervision d) := by
  obtain ⟨hf, h⟩ := unfinished_of_bind hx h
  obtain ⟨hget, hc⟩ := attended?_eq_some_iff.1 hx
  simp only at h
  split at h <;> cases h
  next ha =>
  have hd : Gateway.attended? { g with hub := Closing.run g.hub cid } cid =
      some (s, c.setStatus .close) := by
    refine attended?_eq_some_iff.2 ⟨hget, ?_⟩
    refine (conns_run_closing g.hub cid cid).trans ?_
    rw [Connections.find?_modify, if_pos rfl, hc]
    rfl
  refine ⟨_, _, attended?_modifySocket hd _, ?_⟩
  have hdereg : (s.supervision c).step? .deregistered =
      some { s.supervision c with stage := .deregistered } :=
    if_pos
      ⟨stage_of_unfinished hf c, congrArg Listener.reader ha.1.1,
        congrArg Speaker.writer ha.1.2, ha.2⟩
  exact Option.bind_eq_some_iff.2 ⟨_, hdereg, rfl⟩

private theorem run_deeds (hn : g.hub.conns.Numbered) (hx : g.attended? cid = some (s, c))
    (hm : m.server? = some cid) (h : g.move? m = some g') :
    ∃ t d, g'.attended? cid = some (t, d) ∧
      (s.supervision c).run? (g.deeds cid s t c d m) = some (t.supervision d) := by
  have ended : s.speaker.writer = .writing ∨ s.speaker.writer = .closing →
      ∃ t d, (g.endSpeaker cid).attended? cid = some (t, d) ∧
        (s.supervision c).run? [.writerEnded] = some (t.supervision d) := by
    intro hw
    obtain ⟨t, d, ht, -, hrun⟩ := run_endSpeaker hx hw
    exact ⟨t, d, ht, hrun⟩
  cases m with
  | hear k =>
    cases hm
    exact run_hear hn hx h
  | resumeListener k =>
    cases hm
    exact run_resumeListener hx h
  | takeMessage k =>
    cases hm
    exact run_takeMessage hn hx h
  | finishSocket k =>
    cases hm
    exact run_finishSocket hx h
  | heed k =>
    cases hm
    obtain ⟨hf, h⟩ := unfinished_of_bind hx h
    simp only at h
    split at h <;> cases h
    next hl =>
    refine ⟨_, _, attended?_modifySocket hx _, ?_⟩
    exact run_singleton (if_pos ⟨stage_of_unfinished hf c, congrArg Listener.reader hl.1⟩)
  | ping k =>
    cases hm
    obtain ⟨hf, h⟩ := unfinished_of_bind hx h
    simp only at h
    split at h <;> cases h
    next hi =>
    refine ⟨_, _, attended?_modifySocket hx _, ?_⟩
    exact run_hand hf hi.1 rfl rfl
  | sayFarewell k =>
    cases hm
    obtain ⟨hf, h⟩ := unfinished_of_bind hx h
    simp only at h
    split at h <;> cases h
    next hi =>
    refine ⟨_, _, attended?_modifySocket hx _, ?_⟩
    have hsealed := c.sealed_closure_iff.2 hi.2.1
    exact run_hand hf hi.1 (if_pos ⟨hsealed, hi.2.2⟩) rfl
  | written k =>
    cases hm
    obtain ⟨hf, h⟩ := unfinished_of_bind hx h
    simp only at h
    split at h <;> cases h
    · next hw =>
      refine ⟨_, _, attended?_modifySocket hx _, ?_⟩
      exact run_singleton (if_pos (congrArg Speaker.writer hw))
    · next hw =>
      obtain ⟨t, d, ht, hended, hrun⟩ := run_endSpeaker hx (.inr (congrArg Speaker.writer hw))
      refine ⟨t, d, ht, ?_⟩
      simp only [deeds, hended]
      exact hrun
  | failWrite k =>
    cases hm
    obtain ⟨-, h⟩ := unfinished_of_bind hx h
    simp only at h
    split at h <;> cases h
    · next hw => exact ended (.inl (congrArg Speaker.writer hw))
    · next hw => exact ended (.inr (congrArg Speaker.writer hw))
  | giveUp k =>
    cases hm
    obtain ⟨-, h⟩ := unfinished_of_bind hx h
    simp only at h
    split at h
    · next hw =>
      split at h <;> cases h
      exact ended (.inl (congrArg Speaker.writer hw))
    · next hw =>
      split at h <;> cases h
      exact ended (.inr (congrArg Speaker.writer hw))
    · cases h
  | _ => cases hm

/-! ### Runs -/

private theorem Sound.absent_of_attended? (hg : g.Sound) (hx : g.attended? cid = none) :
    g.hub.bearing? cid = none ∧ g.ear? cid = none := by
  refine hg.absent ?_
  rw [standing?, Hub.bearing?, ear?]
  cases hc : g.hub.conns.find? cid with
  | none => rfl
  | some c =>
    cases hs : g.sockets.get? cid with
    | none => rfl
    | some s => cases hx.symm.trans (attended?_eq_some_iff.2 ⟨hs, hc⟩)

private theorem attended?_of_absent (hb : g.hub.bearing? cid = none) : g.attended? cid = none := by
  rw [attended?, Option.map_eq_none_iff.1 hb]
  cases g.sockets.get? cid <;> rfl

private theorem attended?_connect (h : g.open? = some (k, g')) (cid : UInt64) :
    g'.attended? cid = if cid = g.hub.conns.next then
        some ({ pingDue := g.now + g.settings.pingInterval }, .fresh cid g.settings.sendCapacity)
      else g.attended? cid := by
  simp only [open?] at h
  split at h <;> cases h
  have hf : (g.hub.conns.create g.settings.sendCapacity).2.find? cid = _ :=
    Connections.find?_create ..
  have hs :=
    Table.get?_insert g.sockets g.hub.conns.next cid { pingDue := g.now + g.settings.pingInterval }
  by_cases he : cid = g.hub.conns.next
  · subst he
    rw [if_pos rfl] at hf hs ⊢
    exact attended?_eq_some_iff.2 ⟨hs, hf⟩
  · rw [if_neg he] at hf hs ⊢
    simp only [attended?, ← hs, ← hf]
    rfl

/-- Every move is for every connection a part of a run under supervision, and where there was none
there is none or a new one. -/
theorem run_events (hg : g.Sound) (hc : m = .connect → g.hub.conns.next ≠ 0)
    (h : g.move? m = some g') (cid : UInt64) :
    (∃ v w, g.supervision? cid = some v ∧ g'.supervision? cid = some w ∧
      v.run? (g.events g' cid m) = some w) ∨
    g.supervision? cid = none ∧ (g'.supervision? cid = none ∧ g.events g' cid m = [] ∨
      ∃ w capacity, g'.supervision? cid = some w ∧
        (Supervision.start cid capacity).run? (g.events g' cid m) = some w) := by
  have hn := hg.tables.numbered
  by_cases hm : m = .connect
  · subst hm
    obtain ⟨⟨k, g'⟩, ho, rfl⟩ := Option.map_eq_some_iff.1 h
    have hx' := attended?_connect ho cid
    cases hx : g.attended? cid with
    | some x =>
      obtain ⟨s, c⟩ := x
      have hne : cid ≠ g.hub.conns.next := by
        rintro rfl
        cases (hn.find?_next (hc rfl)).symm.trans (attended?_eq_some_iff.1 hx).2
      rw [if_neg hne, hx] at hx'
      refine .inl ⟨_, _, by rw [supervision?, hx]; rfl, by rw [supervision?, hx']; rfl, ?_⟩
      simp only [events, hx, hx']
      exact Supervision.run_befalls (s := s.supervision c) rfl (.refl c)
    | none =>
      refine .inr ⟨by rw [supervision?, hx]; rfl, ?_⟩
      split at hx'
      · refine .inr ⟨_, g.settings.sendCapacity, by rw [supervision?, hx']; rfl, ?_⟩
        simp only [events, hx, hx']
        rfl
      · rw [hx] at hx'
        refine .inl ⟨by rw [supervision?, hx']; rfl, ?_⟩
        simp only [events, hx']
  · cases hx : g.attended? cid with
    | some x =>
      obtain ⟨s, c⟩ := x
      have hmove : ∃ t d, g'.attended? cid = some (t, d) ∧
          (s.supervision c).run? (g.events g' cid m) = some (t.supervision d) := by
        by_cases hown : m.server? = some cid
        · obtain ⟨t, d, ht, hrun⟩ := run_deeds hn hx hown h
          refine ⟨t, d, ht, ?_⟩
          simp only [events, hx, ht]
          rwa [if_pos hown]
        · obtain ⟨t, d, ht, hrun⟩ := run_of_undisturbed (undisturbed_of_move? hn hm hown h) hx
          refine ⟨t, d, ht, ?_⟩
          simp only [events, hx, ht]
          rwa [if_neg hown]
      obtain ⟨t, d, ht, hrun⟩ := hmove
      exact .inl ⟨_, _, by rw [supervision?, hx]; rfl, by rw [supervision?, ht]; rfl, hrun⟩
    | none =>
      obtain ⟨hb, he⟩ := hg.absent_of_attended? hx
      have hx' := attended?_of_absent (absent_of_turn hm (turn_of_move? hn hg.calls h) hb he).1
      refine .inr ⟨by rw [supervision?, hx]; rfl, .inl ⟨by rw [supervision?, hx']; rfl, ?_⟩⟩
      simp only [events, hx']

private theorem history_append (t : List (Gateway × Move)) (h : g.move? m = some g')
    (cid : UInt64) : history (t ++ [(g, m)]) cid = history t cid ++ g.events g' cid m := by
  simp [history, h]

/-- In a run of a gateway every connection has been under supervision from the start. -/
theorem Trail.run_history {s : Settings} {t : List (Gateway × Move)} (ht : Trail s t g)
    (cid : UInt64) : (g.supervision? cid = none → history t cid = []) ∧
      ∀ v, g.supervision? cid = some v →
      ∃ capacity, (Supervision.start cid capacity).run? (history t cid) = some v := by
  induction ht with
  | fresh => exact ⟨fun _ ↦ rfl, fun v hv ↦ by cases hv⟩
  | @move t g g' m ht hc hm ih =>
    rw [history_append t hm]
    rcases run_events ht.sound hc hm cid with ⟨v, w, hv, hw, hrun⟩
      | ⟨hnone, ⟨hw, he⟩ | ⟨w, n, hw, hrun⟩⟩
    · rw [hw]
      refine ⟨by rintro ⟨⟩, ?_⟩
      rintro _ ⟨⟩
      obtain ⟨n, hn⟩ := ih.2 v hv
      exact ⟨n, Supervision.run_trans hn hrun⟩
    · rw [hw, he, ih.1 hnone]
      exact ⟨fun _ ↦ rfl, by rintro _ ⟨⟩⟩
    · rw [hw, ih.1 hnone]
      refine ⟨by rintro ⟨⟩, ?_⟩
      rintro _ ⟨⟩
      exact ⟨n, hrun⟩

/-! ### Closing -/

private theorem again_not_mem_befalls (c d : Connection) : .closed false ∉ c.befalls d := by
  intro h
  rcases List.mem_append.1 h with h | h
  · rcases List.mem_append.1 h with h | h
    · obtain ⟨m, -, hm⟩ := List.mem_map.1 h
      cases hm
    · split at h
      · cases h
      · cases List.mem_singleton.1 h
  · split at h
    · cases h
    · simp at h

private theorem again_not_mem_verdict (l : Listener) : .closed false ∉ l.verdict := by
  cases l <;> simp [Listener.verdict]

private theorem again_not_mem_deeds {s t : Socket} {c d : Connection} :
    .closed false ∉ g.deeds cid s t c d m := by
  have said : .closed false ∉ c.befalls d ++ t.listener.verdict := fun h ↦
    (List.mem_append.1 h).elim (again_not_mem_befalls c d) (again_not_mem_verdict t.listener)
  cases m with
  | hear k =>
    simp only [deeds]
    split
    · simpa using said
    · split <;> simp
  | resumeListener k => exact said
  | heed k | failWrite k | giveUp k | finishSocket k => simp [deeds]
  | takeMessage k | ping k | sayFarewell k =>
    intro h
    obtain ⟨o, -, ho⟩ := List.mem_map.1 h
    cases ho
  | written k =>
    simp only [deeds]
    split <;> simp
  | _ => exact again_not_mem_befalls c d

-- Whoever closes a connection in a gateway does not wait in the middle of it, so that nobody
-- finds another there.
private theorem again_not_mem_history (t : List (Gateway × Move)) (cid : UInt64) :
    .closed false ∉ history t cid := by
  intro h
  obtain ⟨⟨g, m⟩, -, h⟩ := List.mem_flatMap.1 h
  simp only at h
  cases hm : g.move? m with
  | none =>
    rw [hm] at h
    cases h
  | some g' =>
    rw [hm] at h
    simp only [Option.elim, events] at h
    split at h
    · split at h
      · exact again_not_mem_deeds h
      · exact again_not_mem_befalls _ _ h
    · simp at h
    · cases h

/-- The connections that can be reached are those that are being served. -/
theorem Trail.isLive_iff {s : Settings} {t : List (Gateway × Move)} {v : Supervision}
    (ht : Trail s t g) (hv : g.supervision? cid = some v) :
    g.hub.conns.isLive cid = true ↔ v.stage = .serving := by
  obtain ⟨⟨x, c⟩, hx, rfl⟩ := Option.map_eq_some_iff.1 hv
  obtain ⟨hs, hc⟩ := attended?_eq_some_iff.1 hx
  have hst : g.standing? cid = some ⟨g.hub.bearingOf cid c, x.listener, x.finished⟩ := by
    rw [standing?, Hub.bearing?, ear?, hs, hc]
    rfl
  have hlive : g.hub.conns.isLive cid = !x.finished := (ht.fit hst).live_eq
  rw [hlive]
  show _ ↔ (if x.finished then Supervision.Stage.retired else .serving) = .serving
  cases x.finished <;> simp

/-- In a gateway a connection accepts nothing once any call that closes it has returned. -/
theorem Trail.not_acceptedLate {s : Settings} {t : List (Gateway × Move)} {v : Supervision}
    (ht : Trail s t g) (hv : g.supervision? cid = some v) :
    ¬ Supervision.AcceptedLate (history t cid) := by
  obtain ⟨capacity, hrun⟩ := (ht.run_history cid).2 v hv
  rw [Supervision.acceptedLate_iff hrun]
  rintro ⟨l, u, r, m, he, hagain, -⟩
  exact again_not_mem_history t cid (by simp [he, hagain])

/-- A supervised connection is created, registered, called, deregistered and let go in this order,
and what it accepts is handed to its socket in order and without loss. It accepts nothing once its
queue has been shut, and something after a call that closes it has returned just when that call was
not the first and the first one had not shut the queue by then. This goes for every connection of a
gateway whose tasks take turns where they wait; there nothing is accepted once any such call has
returned. -/
theorem connections_supervised (cid : UInt64) :
    (∀ (capacity : Nat) (es : List Supervision.Event) (v : Supervision),
      (Supervision.start cid capacity).run? es = some v → Supervision.Supervised es v) ∧
    ∀ (s : Settings) (t : List (Gateway × Move)) (g : Gateway) (v : Supervision),
      Trail s t g → g.supervision? cid = some v →
        (∃ capacity, (Supervision.start cid capacity).run? (history t cid) = some v) ∧
        (g.hub.conns.isLive cid = true ↔ v.stage = .serving) ∧
        ¬ Supervision.AcceptedLate (history t cid) :=
  ⟨fun _ _ _ h ↦ Supervision.supervised_of_run h,
    fun _ _ _ v ht hv ↦
      ⟨(ht.run_history cid).2 v hv, ht.isLive_iff hv, ht.not_acceptedLate hv⟩⟩

/-- The backend ends session 42. The connection is closed when its notice is due; the speaker says
what is queued and farewell, and the connection is let go. -/
def Takeover.flushing : List Move :=
  opened ++ handling expulsion ++
    [.takeMessage 1, .sweepTake, .wait 1000, .sweepExpire, .written 1, .ping 1, .heed 1, .written 1,
      .takeMessage 1, .written 1, .sayFarewell 1, .written 1, .finishSocket 1]

/-- Then the notice of the end comes before the farewell, which is the last. -/
theorem connections_supervised_flushing :
    ∃ t g v, Trail Takeover.settings t g ∧ t.map Prod.snd = Takeover.flushing ∧
      g.supervision? 1 = some v ∧ v.stage = .retired ∧
      Supervision.Supervised (history t 1) v ∧
      (Supervision.messages v.handed).map (·.cmd) = [.onlineAck, .kick] := by
  have hview : ((fresh Takeover.settings).trail? Takeover.flushing).bind (fun r ↦
      (r.2.supervision? 1).map fun v ↦ (v.stage, (Supervision.messages v.handed).map (·.cmd))) =
      some (.retired, [.onlineAck, .kick]) := by decide +kernel
  obtain ⟨⟨t, g⟩, hrun, hv⟩ := Option.bind_eq_some_iff.1 hview
  obtain ⟨ht, hmoves⟩ := trail_of_trail? hrun
  obtain ⟨v, hv, hview⟩ := Option.map_eq_some_iff.1 hv
  obtain ⟨hstage, hcmds⟩ := Prod.mk.injEq .. ▸ hview
  obtain ⟨hsupervised, htrail⟩ := connections_supervised 1
  obtain ⟨⟨capacity, hhist⟩, -⟩ := htrail _ t g v ht hv
  exact ⟨t, g, v, ht, hmoves, hv, hstage, hsupervised capacity _ v hhist, hcmds⟩

end Gateway

end EdgeGateway
