import EdgeGateway.Proofs.Gateway.Telling

/-!
# What moves come to

Most moves leave every connection where it is, or at most close it. `turn_of_move?` says what the
others come to: a client connects or says something, a listener hears, heeds or goes on, a worker
handles a message, a connection is let go, or the backend is told that a session has ended.
-/

namespace EdgeGateway

namespace Hub

/-- No connection comes any further, but some may be closed, and nobody is told that a session has
ended. -/
structure Idle (h h' : Hub) : Prop where
  nid : h'.nid = h.nid
  farewells : h'.farewells = h.farewells
  bearing : ∀ cid, ∃ closes : Bool,
    h'.bearing? cid = (h.bearing? cid).map fun b ↦ { b with closed := b.closed || closes }

variable {h h' : Hub}

/-- What is quiet closes nothing. -/
theorem Quiet.idle (hq : h.Quiet h') : h.Idle h' := by
  refine ⟨hq.nid, hq.farewells, fun cid ↦ ⟨false, ?_⟩⟩
  rw [hq.bearing]
  simp

/-- To do nothing is idle. -/
theorem Idle.refl (h : Hub) : h.Idle h := (Quiet.refl h).idle

/-- Idle changes one after the other are idle. -/
theorem Idle.trans {h'' : Hub} (hi : h.Idle h') (hi' : h'.Idle h'') : h.Idle h'' := by
  refine ⟨hi'.nid.trans hi.nid, hi'.farewells.trans hi.farewells, fun cid ↦ ?_⟩
  obtain ⟨x, hx⟩ := hi.bearing cid
  obtain ⟨y, hy⟩ := hi'.bearing cid
  refine ⟨x || y, ?_⟩
  rw [hy, hx, Option.map_map]
  cases h.bearing? cid with
  | none => rfl
  | some b => simp [Bool.or_assoc]

private theorem idle_close (h : Hub) (k : UInt64) : h.Idle (h.modifyConn k .close) := by
  refine ⟨rfl, rfl, fun cid ↦ ⟨cid == k, ?_⟩⟩
  rw [bearing?_modifyConn]
  split
  · next he =>
    rw [he, bearing?]
    cases h.conns.find? k <;> simp [bearingOf, Connection.close]
  · next he =>
    rw [beq_false_of_ne he]
    simp

private theorem idle_closeAll (h : Hub) : h.Idle { h with conns := h.conns.closeAll.2 } := by
  refine Connections.closeAll_induction (P := fun u ↦ h.Idle { h with conns := u }) (.refl h) ?_
  intro u cid hu
  exact hu.trans (idle_close { h with conns := u } cid)

end Hub

namespace Gateway

/-- A move by which no connection comes any further, whatever the state. -/
def Move.Idle : Move → Prop
  | .connect | .say .. | .hear _ | .heed _ | .resumeListener _ | .fetchCall .. | .resumeCall ..
  | .finishSocket _ | .sendFarewell _ => False
  | _ => True

/-- A move that moreover leaves the outbound queue alone. -/
def Move.Restful : Move → Prop
  | .report | .link _ => False
  | m => m.Idle

private theorem Move.Restful.idle {m : Move} (hm : m.Restful) : m.Idle := by
  cases m with
  | report | link => exact hm.elim
  | _ => exact hm

/-- No connection comes any further, no listener does anything, and nothing is sent to the backend.
-/
structure Rests (g g' : Gateway) : Prop where
  hub : g.hub.Idle g'.hub
  ear : ∀ k, g'.ear? k = g.ear? k
  outlet : g'.pool.outlet = g.pool.outlet

/-- The connection whose session a move releases. -/
def releasing? (g : Gateway) : Move → Option UInt64
  | .finishSocket cid => some cid
  | .resumeCall i w =>
    match g.pool.worker? i w with
    | some (.busy d) => d.released? g.hub
    | _ => none
  | _ => none

/-- What a move comes to for the connections and their listeners. -/
inductive Turn (g : Gateway) : Move → Gateway → Prop
  | idle {m : Move} {g' : Gateway} : m.Idle → g.hub.Idle g'.hub →
    (∀ k, g'.ear? k = g.ear? k) →
    Turn g m g'
  | connect {g' : Gateway} (capacity : Nat) :
    g'.hub = { g.hub with conns := (g.hub.conns.create capacity).2.register g.hub.conns.next } →
    (∀ k, g'.ear? k =
      if k = g.hub.conns.next then
        some ⟨[], .listening, false⟩
      else g.ear? k) → Turn g .connect g'
  | say {cid : UInt64} {e : SocketEvent} {g' : Gateway} : g'.hub = g.hub →
    (∀ k, g'.ear? k = (g.ear? k).map fun x ↦
      if k = cid then { x with inbox := x.inbox ++ [e] } else x) → Turn g (.say cid e) g'
  | hear {cid : UInt64} {e : SocketEvent} {inbox : List SocketEvent} {c : Connection} {l : Listener}
    {g' : Gateway} : g.ear? cid = some ⟨e :: inbox, .listening, false⟩ →
    g.hub.conns.find? cid = some c → g'.ear? cid = some ⟨inbox, l, false⟩ →
    (∀ k, k ≠ cid → g'.ear? k = g.ear? k) → g.Hears cid e c l g' → Turn g (.hear cid) g'
  | heed {cid : UInt64} {x : Ear} {g' : Gateway} : g.ear? cid = some x → x.finished = false →
    x.listener = .listening → g'.hub = g.hub → (∀ k, g'.ear? k = (g.ear? k).map fun x ↦
      if k = cid then { x with listener := .ended } else x) → Turn g (.heed cid) g'
  /-- A listener that has waited goes on. -/
  | resumeListener {cid : UInt64} {x : Ear} {l : Listener} {g' : Gateway} : g.ear? cid = some x →
    x.finished = false → ¬ l.LogsOut → (∀ k, g'.ear? k = (g.ear? k).map fun x ↦
      if k = cid then { x with listener := l } else x) →
    (¬ x.listener.LogsOut ∧ g'.hub = g.hub ∨ x.listener.LogsOut ∧
      (g.hub.modifyConn cid fun c ↦ c.setStatus .logout).Quiet g'.hub) →
    Turn g (.resumeListener cid) g'
  | fetchCall {i w : Nat} {g' : Gateway} : g.hub.Handled g'.hub →
    (∀ k, g'.ear? k = g.ear? k) → Turn g (.fetchCall i w) g'
  /-- A worker that has waited goes on. -/
  | resumeCall {i w : Nat} {g' : Gateway} :
    (match g.releasing? (.resumeCall i w) with
    | some cid => g'.hub = g.hub.released cid
    | none => g.hub.Quiet g'.hub) → (∀ k, g'.ear? k = g.ear? k) → Turn g (.resumeCall i w) g'
  | finishSocket {cid : UInt64} {c : Connection} {x : Ear} {g' : Gateway} : g.ear? cid = some x →
    x.finished = false → x.listener = .ended → g.hub.conns.find? cid = some c →
    c.closed = true → g'.hub = Closing.run g.hub cid →
    (∀ k, g'.ear? k = (g.ear? k).map fun x ↦
      if k = cid then { x with finished := true } else x) → Turn g (.finishSocket cid) g'
  | sendFarewell {k : Nat} {m : Message} {g' : Gateway} : g.hub.farewells[k]? = some m →
    g'.hub = { g.hub with farewells := g.hub.farewells.eraseIdx k } →
    (∀ k, g'.ear? k = g.ear? k) → Turn g (.sendFarewell k) g'

variable {g g' : Gateway} {cid : UInt64}

private theorem ear?_keep {k : UInt64} {f : Socket → Socket}
    (hf : ∀ s : Socket, (f s).ear = s.ear) (cid : UInt64) :
    (g.modifySocket k f).ear? cid = g.ear? cid := by
  rw [ear?_modifySocket]
  split
  · rw [ear?]
    simp only [hf]
  · rfl

private theorem rests_endSpeaker (g : Gateway) (cid : UInt64) : g.Rests (g.endSpeaker cid) :=
  ⟨(g.hub.quiet_modifyConn cid (f := Connection.abandon) fun _ ↦ rfl).idle,
    ear?_keep (g := { g with hub := _ }) fun _ ↦ rfl, rfl⟩

private theorem rests_takeMessage (hn : g.hub.conns.Numbered) (h : g.takeMessage cid = some g') :
    g.Rests g' := by
  obtain ⟨⟨s, c⟩, hs, h⟩ := Option.bind_eq_some_iff.1 h
  obtain ⟨_, hc, _⟩ := socket?_eq_some_iff.1 hs
  simp only at h
  split at h
  · cases h
  · obtain ⟨⟨m, d⟩, hp, h⟩ := Option.bind_eq_some_iff.1 h
    cases h
    refine ⟨(Hub.quiet_store hn hc ?_ ?_).idle,
      ear?_keep (g := { g with hub := _ }) fun _ ↦ rfl, rfl⟩
    all_goals
      rw [Connection.pop] at hp
      split at hp <;> cases hp
      rfl

private theorem rests_ping (h : g.ping cid = some g') :
    g.Rests g' := by
  obtain ⟨⟨s, c⟩, -, h⟩ := Option.bind_eq_some_iff.1 h
  simp only at h
  split at h <;> cases h
  exact ⟨.refl _, ear?_keep fun _ ↦ rfl, rfl⟩

private theorem rests_sayFarewell (h : g.sayFarewell cid = some g') :
    g.Rests g' := by
  obtain ⟨⟨s, c⟩, -, h⟩ := Option.bind_eq_some_iff.1 h
  simp only at h
  split at h <;> cases h
  exact ⟨.refl _, ear?_keep fun _ ↦ rfl, rfl⟩

private theorem rests_written (h : g.written cid = some g') :
    g.Rests g' := by
  obtain ⟨⟨s, c⟩, -, h⟩ := Option.bind_eq_some_iff.1 h
  simp only at h
  split at h <;> cases h
  · exact ⟨.refl _, ear?_keep fun _ ↦ rfl, rfl⟩
  · exact g.rests_endSpeaker cid

private theorem rests_failWrite (h : g.failWrite cid = some g') :
    g.Rests g' := by
  obtain ⟨⟨s, c⟩, -, h⟩ := Option.bind_eq_some_iff.1 h
  simp only at h
  split at h <;> cases h <;> exact g.rests_endSpeaker cid

private theorem rests_giveUp (h : g.giveUp cid = some g') :
    g.Rests g' := by
  obtain ⟨⟨s, c⟩, -, h⟩ := Option.bind_eq_some_iff.1 h
  simp only at h
  split at h
  · split at h <;> cases h
    exact g.rests_endSpeaker cid
  · split at h <;> cases h
    exact g.rests_endSpeaker cid
  · cases h

private theorem rests_closeSocket (h : g.closeSocket cid = some g') :
    g.Rests g' := by
  obtain ⟨⟨s, c⟩, -, h⟩ := Option.bind_eq_some_iff.1 h
  simp only at h
  split at h <;> cases h
  exact ⟨g.hub.idle_close cid, fun _ ↦ rfl, rfl⟩

private theorem rests_sweepTake (h : g.sweepTake = some g') :
    g.Rests g' := by
  obtain ⟨sweeper, -, rfl⟩ := Option.map_eq_some_iff.1 h
  exact ⟨(g.hub.quiet_rest _ _ sweeper).idle, fun _ ↦ rfl, rfl⟩

private theorem rests_sweepExpire (h : g.sweepExpire = some g') :
    g.Rests g' := by
  obtain ⟨⟨sweeper, conns⟩, hs, rfl⟩ := Option.map_eq_some_iff.1 h
  obtain ⟨e, -, he⟩ := Option.map_eq_some_iff.1 hs
  cases he
  have hclose : g.hub.Idle { g.hub with conns := (g.hub.conns.close e.cid).2 } := by
    rw [Connections.close]
    split
    · exact g.hub.idle_close e.cid
    · exact .refl _
  exact ⟨hclose.trans (Hub.quiet_rest _ _ _ _).idle, fun _ ↦ rfl, rfl⟩

private theorem rests_sweepFinish (h : g.sweepFinish = some g') :
    g.Rests g' := by
  obtain ⟨sweeper, -, rfl⟩ := Option.map_eq_some_iff.1 h
  exact ⟨(g.hub.quiet_rest _ _ sweeper).idle, fun _ ↦ rfl, rfl⟩

private theorem outlet_launch (p : Pool Downlink) (now : Nat) :
    (p.launch now).outlet = p.outlet := by
  rw [Pool.launch]
  split <;> rfl

private theorem outlet_signal (p : Pool Downlink) : p.signal.outlet = p.outlet := by
  rw [Pool.signal]
  split <;> rfl

private theorem rests_start (g : Gateway) (address : SocketAddress) :
    g.Rests (g.start address) := by
  rw [start]
  split
  · exact ⟨(g.hub.quiet_rest _ _ _).idle, fun _ ↦ rfl, outlet_launch _ _⟩
  · exact ⟨.refl _, fun _ ↦ rfl, rfl⟩

private theorem rests_shutdown (g : Gateway) :
    g.Rests g.shutdown := by
  rw [shutdown]
  split
  · exact ⟨g.hub.idle_closeAll.trans (Hub.quiet_rest _ _ _ _).idle, fun _ ↦ rfl, rfl⟩
  · exact ⟨.refl _, fun _ ↦ rfl, outlet_signal _⟩
  · exact ⟨.refl _, fun _ ↦ rfl, rfl⟩

private theorem rests_resumeReporter (h : g.resumeReporter = some g') : g.Rests g' := by
  rw [resumeReporter] at h
  split at h
  · split at h <;> cases h
    exact ⟨.refl _, fun _ ↦ rfl, rfl⟩
  · cases h

private theorem rests_stopReporter (h : g.stopReporter = some g') : g.Rests g' := by
  rw [stopReporter] at h
  split at h
  · split at h <;> cases h
    exact ⟨.refl _, fun _ ↦ rfl, rfl⟩
  · cases h

private theorem turn_open? {k : UInt64} (h : g.open? = some (k, g')) : Turn g .connect g' := by
  simp only [open?] at h
  split at h <;> cases h
  refine .connect g.settings.sendCapacity rfl ?_
  intro k
  refine (congrArg (Option.map Socket.ear) (Table.get?_insert g.sockets g.hub.conns.next k
    { pingDue := g.now + g.settings.pingInterval })).trans ?_
  split <;> rfl

private theorem turn_heed (h : g.heed cid = some g') : Turn g (.heed cid) g' := by
  obtain ⟨⟨s, c⟩, hs, h⟩ := Option.bind_eq_some_iff.1 h
  obtain ⟨hget, -, hf⟩ := socket?_eq_some_iff.1 hs
  simp only at h
  split at h <;> cases h
  next hl =>
  exact .heed (x := s.ear) (by rw [ear?, hget]; rfl) hf hl.1 rfl (g.ear?_setListener cid .ended)

private theorem turn_resumeListener (h : g.resumeListener cid = some g') :
    Turn g (.resumeListener cid) g' := by
  obtain ⟨⟨s, c⟩, hs, h⟩ := Option.bind_eq_some_iff.1 h
  obtain ⟨hget, -, hf⟩ := socket?_eq_some_iff.1 hs
  have he : g.ear? cid = some s.ear := by rw [ear?, hget]; rfl
  simp only at h
  split at h
  · next ticket after hlis =>
    split at h <;> cases h
    obtain ⟨l, hl, -, -, hears, hh⟩ := g.afterForward_cases cid after
    refine .resumeListener he hf hl hears ?_
    cases after with
    | proceed => exact .inl ⟨(by rw [Socket.ear, hlis]; rintro ⟨_, h⟩; cases h), hh⟩
    | logOut => exact .inr ⟨by rw [Socket.ear, hlis]; exact ⟨_, rfl⟩, hh⟩
  · next ticket hlis =>
    split at h <;> cases h
    exact .resumeListener he hf (by rintro ⟨_, h⟩; cases h) (g.ear?_setListener cid .listening)
      (.inl ⟨(by rw [Socket.ear, hlis]; rintro ⟨_, h⟩; cases h), rfl⟩)
  · cases h

private theorem turn_finishSocket (h : g.finishSocket cid = some g') :
    Turn g (.finishSocket cid) g' := by
  obtain ⟨⟨s, c⟩, hs, h⟩ := Option.bind_eq_some_iff.1 h
  obtain ⟨hget, hc, hf⟩ := socket?_eq_some_iff.1 hs
  simp only at h
  split at h <;> cases h
  next ha =>
  refine .finishSocket (x := s.ear) (by rw [ear?, hget]; rfl) hf ha.1.1 hc ha.2 rfl ?_
  intro k
  rw [ear?_modifySocket]
  split
  · rw [ear?, Option.map_map]
    rfl
  · rw [Option.map_id']
    rfl

private theorem turn_sendFarewell {k : Nat} (h : g.sendFarewell k = some g') :
    Turn g (.sendFarewell k) g' := by
  obtain ⟨m, hm, h⟩ := Option.bind_eq_some_iff.1 h
  cases h
  exact .sendFarewell hm rfl fun _ ↦ rfl

private theorem turn_fetchCall (hn : g.hub.conns.Numbered) {i w : Nat}
    (h : g.fetchCall i w = some g') : Turn g (.fetchCall i w) g' := by
  obtain ⟨⟨f, pool⟩, -, h⟩ := Option.bind_eq_some_iff.1 h
  simp only at h
  split at h
  · cases h
    exact .fetchCall (.quiet (.refl _)) fun _ ↦ rfl
  · next kind hk =>
    cases h
    have hh := Downlink.handled_run hn kind f.body
    refine .fetchCall ?_ ?_
    · rwa [hub_runCall]
    · intro k
      simp only [runCall]
      split <;> rfl

private theorem turn_resumeCall (hn : g.hub.conns.Numbered) (hw : g.pool.Calls Downlink.Waits)
    {i w : Nat} (h : g.resumeCall i w = some g') : Turn g (.resumeCall i w) g' := by
  obtain ⟨x, hx, h⟩ := Option.bind_eq_some_iff.1 h
  split at h
  · next d =>
    split at h <;> cases h
    have hrun := Downlink.run_waiting hn (hw.of_worker? hx)
    refine .resumeCall ?_ ?_
    · simp only [releasing?, hx]
      rwa [hub_runCall]
    · intro k
      simp only [runCall]
      split <;> rfl
  · cases h

/-- What the moves come to by which nothing much happens. -/
theorem rests_of_move? {m : Move} (hn : g.hub.conns.Numbered) (hm : m.Restful)
    (h : g.move? m = some g') : g.Rests g' := by
  cases m with
  | start address =>
    cases h
    exact g.rests_start address
  | wait ms =>
    cases h
    exact ⟨(g.hub.quiet_rest _ _ _).idle, fun _ ↦ rfl, rfl⟩
  | shutdown =>
    cases h
    exact g.rests_shutdown
  | backendSays wire b | backendEnds wire =>
    cases h
    exact ⟨.refl _, fun _ ↦ rfl, rfl⟩
  | takeMessage cid => exact rests_takeMessage hn h
  | ping cid => exact rests_ping h
  | sayFarewell cid => exact rests_sayFarewell h
  | written cid => exact rests_written h
  | failWrite cid => exact rests_failWrite h
  | giveUp cid => exact rests_giveUp h
  | closeSocket cid => exact rests_closeSocket h
  | sweepTake => exact rests_sweepTake h
  | sweepExpire => exact rests_sweepExpire h
  | sweepFinish => exact rests_sweepFinish h
  | resumeReporter => exact rests_resumeReporter h
  | stopReporter => exact rests_stopReporter h
  | drain =>
    rw [move?, drain] at h
    split at h <;> cases h
    exact ⟨.refl _, fun _ ↦ rfl, outlet_signal _⟩
  | complete =>
    rw [move?, complete] at h
    split at h <;> cases h
    exact ⟨.refl _, fun _ ↦ rfl, rfl⟩
  | _ => exact hm.elim

/-- What a move comes to. -/
theorem turn_of_move? {m : Move} (hn : g.hub.conns.Numbered) (hw : g.pool.Calls Downlink.Waits)
    (h : g.move? m = some g') : Turn g m g' := by
  by_cases hm : m.Restful
  · have hr := rests_of_move? hn hm h
    exact .idle hm.idle hr.hub hr.ear
  · cases m with
    | connect =>
      obtain ⟨⟨k, g'⟩, ho, rfl⟩ := Option.map_eq_some_iff.1 h
      exact turn_open? ho
    | say cid e =>
      cases h
      refine .say rfl ?_
      intro k
      rw [arrive, ear?_modifySocket]
      split
      · rw [ear?, Option.map_map]
        rfl
      · rw [Option.map_id']
    | link m =>
      obtain ⟨pool, -, rfl⟩ := Option.map_eq_some_iff.1 h
      exact .idle trivial (.refl _) fun _ ↦ rfl
    | report =>
      rw [move?, report] at h
      split at h
      · split at h <;> cases h
        exact .idle trivial (.refl _) fun _ ↦ rfl
      · cases h
    | fetchCall i w => exact turn_fetchCall hn h
    | resumeCall i w => exact turn_resumeCall hn hw h
    | hear cid =>
      obtain ⟨e, inbox, c, l, he, hc, he', hk, hh⟩ := hear_cases hn h
      exact .hear he hc he' hk hh
    | heed cid => exact turn_heed h
    | resumeListener cid => exact turn_resumeListener h
    | finishSocket cid => exact turn_finishSocket h
    | sendFarewell k => exact turn_sendFarewell h
    | _ => exact absurd trivial hm

end Gateway

end EdgeGateway
