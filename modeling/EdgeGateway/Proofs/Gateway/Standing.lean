import EdgeGateway.Proofs.Gateway.Turns

/-!
# Where connections stand

A connection stands where the tables say it stands, and where its listener is. `steps_of_turn` says
what a move can do to this: it is the only place at which the moves are looked at, and what is said
about runs below follows from the steps of one connection.
-/

namespace EdgeGateway

/-- How far a connection has come, what its listener is doing, and whether its end has been dealt
with. -/
structure Standing extends Bearing where
  listener : Listener
  finished : Bool
  deriving Repr, DecidableEq

namespace Standing

/-- No session has been accepted yet. -/
def Early (x : Standing) : Prop := x.status = .ready ∨ x.status = .check

/-- The session is routed to the connection, so it is the connection's to end. -/
def Owner (x : Standing) : Prop := x.sid ≠ 0 ∧ x.routed = true

/-- Whether a connection owns its session shows in where it stands. -/
instance (x : Standing) : Decidable x.Owner := inferInstanceAs (Decidable (_ ∧ _))

/-- The message by which a release tells the backend that the session has ended, unless there is
nothing to tell. -/
def parting? (nid : UInt32) (x : Standing) : Option Message :=
  if x.Owner ∧ x.status ≠ .logout then some (.make .offline nid x.sid []) else none

/-- Where a connection stands whose session has been released. -/
def released (x : Standing) : Standing := { x with routed := x.routed && x.sid == 0 }

/-- A new connection. -/
def fresh : Standing where
  sid := 0
  status := .ready
  closed := false
  live := true
  routed := false
  listener := .listening
  finished := false

/-- What a move can do to the connection with a given number: what is passed on for it, with the
event in which that came, the message by which the end of its session is told, and where it stands
then. -/
inductive Step (nid : UInt32) (cid : UInt64) (x : Standing) :
    Gateway.Move → Option (SocketEvent × Message) → Option Message → Standing → Prop
  | close {m : Gateway.Move} (closes : Bool) :
    Step nid cid x m none none { x with closed := x.closed || closes }
  /-- The listener goes on, but not from where a session is being ended. -/
  | listen {m : Gateway.Move} {l : Listener} : x.finished = false → ¬ x.listener.LogsOut →
    ¬ l.LogsOut → Step nid cid x m none none { x with listener := l }
  /-- A session is asked for. -/
  | request {e : SocketEvent} {w : Message} {l : Listener} : x.finished = false → x.Early →
    w.cmd = .online → ¬ l.LogsOut →
    Step nid cid x (.hear cid) (some (e, w)) none { x with status := .check, listener := l }
  /-- Something is passed on for the session. -/
  | relay {e : SocketEvent} {w : Message} {l : Listener} : x.finished = false →
    ¬ x.listener.LogsOut → x.status = .logon → e.message? = some w → w.cmd ≠ .online →
    w.cmd ≠ .offline → ¬ l.LogsOut →
    Step nid cid x (.hear cid) (some (e, w.readdress x.sid nid)) none { x with listener := l }
  /-- The end of the session waits to be passed on. -/
  | offline {e : SocketEvent} {w : Message} {l : Listener} : x.finished = false →
    ¬ x.listener.LogsOut → x.status = .logon → e.message? = some w → w.cmd = .offline →
    l.LogsOut →
    Step nid cid x (.hear cid) (some (e, w.readdress x.sid nid)) none { x with listener := l }
  /-- The end of the session is passed on at once. -/
  | logOff {e : SocketEvent} {w : Message} {l : Listener} : x.finished = false →
    ¬ x.listener.LogsOut → x.status = .logon → e.message? = some w → w.cmd = .offline →
    ¬ l.LogsOut → Step nid cid x (.hear cid) (some (e, w.readdress x.sid nid)) none
      { x with status := .logout, listener := l }
  /-- The end of the session has been passed on, after it had waited. -/
  | logOut {l : Listener} : x.finished = false → x.listener.LogsOut → ¬ l.LogsOut →
    Step nid cid x (.resumeListener cid) none none { x with status := .logout, listener := l }
  /-- The connection is given a session. -/
  | accept {m : Gateway.Move} (sid : UInt64) : x.status = .check → x.closed = false →
    Step nid cid x m none none { x with sid, status := .logon, routed := true }
  /-- The session may have gone to another connection. -/
  | lose {m : Gateway.Move} (keeps : Bool) :
    Step nid cid x m none none { x with routed := x.routed && keeps }
  /-- The session is ended by the backend or by another connection, to which it may have gone. -/
  | kick {m : Gateway.Move} (keeps : Bool) : x.live = true → ¬ x.Early →
    Step nid cid x m none none { x with status := .kick, routed := x.routed && keeps }
  | release (i w : Nat) : Step nid cid x (.resumeCall i w) none (x.parting? nid) x.released
  /-- The connection is let go. -/
  | finish : x.closed = true → x.finished = false → x.listener = .ended →
    Step nid cid x (.finishSocket cid) none (x.parting? nid)
      { x.released with status := .close, live := false, finished := true }

/-- A connection can stay where it is. -/
theorem Step.refl (nid : UInt32) (cid : UInt64) (x : Standing) (m : Gateway.Move) :
    Step nid cid x m none none x := by
  have h : Step nid cid x m none none _ := .close false
  rwa [Bool.or_false] at h

/-- How the parts of a standing go together. -/
structure Fit (x : Standing) : Prop where
  finished_iff : x.finished = true ↔ x.status = .close
  live_eq : x.live = !x.finished
  routed : x.routed = true → ¬ x.Early
  logsOut : x.listener.LogsOut → x.finished = false ∧ (x.status = .logon ∨ x.status = .kick)
  gone : x.finished = true → ¬ x.Owner

/-- The parts of a new connection go together. -/
theorem fit_fresh : fresh.Fit := by
  refine ⟨by decide, rfl, by rintro ⟨⟩, ?_, by rintro ⟨⟩⟩
  exact fun h ↦ absurd h Listener.not_logsOut_listening

private theorem fit_of_unfinished {x : Standing} (hf : x.finished = false)
    (hs : x.status ≠ .close) (hv : x.live = true) (hr : x.routed = true → ¬ x.Early)
    (hl : x.listener.LogsOut → x.status = .logon ∨ x.status = .kick) : x.Fit := by
  refine ⟨?_, by rw [hv, hf]; rfl, hr, fun h ↦ ⟨hf, hl h⟩, ?_⟩
  · rw [hf]
    exact ⟨by rintro ⟨⟩, fun h ↦ absurd h hs⟩
  · rw [hf]
    rintro ⟨⟩

private theorem Fit.lose {x : Standing} (hx : x.Fit) (keeps : Bool) :
    Fit { x with routed := x.routed && keeps } := by
  refine ⟨hx.finished_iff, hx.live_eq, ?_, hx.logsOut, ?_⟩
  · intro hr
    exact hx.routed (Bool.and_eq_true_iff.1 hr).1
  · intro hf ho
    exact hx.gone hf ⟨ho.1, (Bool.and_eq_true_iff.1 ho.2).1⟩

private theorem fit_finish {x : Standing} (hl : x.listener = .ended) :
    Fit { x.released with status := .close, live := false, finished := true } := by
  refine ⟨⟨fun _ ↦ rfl, fun _ ↦ rfl⟩, rfl, ?_, ?_, ?_⟩
  · rintro - (h | h) <;> cases h
  · rintro ⟨ticket, h⟩
    cases hl.symm.trans h
  · rintro - ⟨h0, hr⟩
    exact h0 (eq_of_beq (Bool.and_eq_true_iff.1 hr).2)

/-- Whatever a move does, the parts go together. -/
theorem Fit.step {nid : UInt32} {cid : UInt64} {x y : Standing} {m : Gateway.Move}
    {said : Option (SocketEvent × Message)} {noticed : Option Message} (hx : x.Fit)
    (h : x.Step nid cid m said noticed y) : y.Fit := by
  have hlive : x.finished = false → x.live = true := by
    intro hf
    rw [hx.live_eq, hf]
    rfl
  cases h with
  | close closes => exact ⟨hx.finished_iff, hx.live_eq, hx.routed, hx.logsOut, hx.gone⟩
  | listen hf _ hl =>
    exact ⟨hx.finished_iff, hx.live_eq, hx.routed, fun h ↦ absurd h hl, hx.gone⟩
  | request hf he _ hl =>
    exact fit_of_unfinished hf (by rintro ⟨⟩) (hlive hf) (fun hr ↦ absurd he (hx.routed hr))
      fun h ↦ absurd h hl
  | relay hf _ hs _ _ _ hl =>
    exact fit_of_unfinished hf (hs.trans_ne (by decide)) (hlive hf) hx.routed fun h ↦ absurd h hl
  | offline hf _ hs =>
    exact fit_of_unfinished hf (hs.trans_ne (by decide)) (hlive hf) hx.routed fun _ ↦ .inl hs
  | logOff hf _ _ _ _ hl =>
    exact fit_of_unfinished hf (by rintro ⟨⟩) (hlive hf) (by rintro - (h | h) <;> cases h)
      fun h ↦ absurd h hl
  | logOut hf _ hl =>
    exact fit_of_unfinished hf (by rintro ⟨⟩) (hlive hf) (by rintro - (h | h) <;> cases h)
      fun h ↦ absurd h hl
  | accept sid hs =>
    have hf : x.finished = false := by
      rw [← Bool.not_eq_true, hx.finished_iff, hs]
      decide
    exact fit_of_unfinished hf (by rintro ⟨⟩) (hlive hf)
      (by rintro - (h | h) <;> cases h) fun _ ↦ .inl rfl
  | lose keeps => exact hx.lose keeps
  | kick keeps hv =>
    have hf : x.finished = false := by simpa [hx.live_eq] using hv
    exact fit_of_unfinished hf (by rintro ⟨⟩) hv (by rintro - (h | h) <;> cases h) fun _ ↦
      .inr rfl
  | release i w => exact hx.lose (x.sid == 0)
  | finish _ _ hl => exact fit_finish hl

/-- A connection is given a session when it has asked for one, and keeps it; one that has asked for
none has none. -/
theorem Step.session {nid : UInt32} {cid : UInt64} {x y : Standing} {m : Gateway.Move}
    {said : Option (SocketEvent × Message)} {noticed : Option Message} (hx : x.Fit)
    (h : x.Step nid cid m said noticed y) :
    (x.status = .check ∧ y.status = .logon) ∨
      (y.sid = x.sid ∧ (y.status = .logon → x.status = .logon) ∧
        (x.Early → y.Early ∨ y.status = .close) ∧ (¬ x.Early → ¬ y.Early) ∧
        (x.status = .close → y.status = .close)) := by
  have open_of : x.finished = false → x.status ≠ .close := by
    intro hf hs
    rw [hx.finished_iff.2 hs] at hf
    cases hf
  cases h with
  | close | listen | relay | offline | lose | release => exact .inr ⟨rfl, id, .inl, id, id⟩
  | request hf he =>
    exact .inr ⟨rfl, by rintro ⟨⟩, fun _ ↦ .inl (.inr rfl), absurd he,
      fun hs ↦ absurd hs (open_of hf)⟩
  | logOff hf _ hs =>
    refine .inr ⟨rfl, by rintro ⟨⟩, ?_, fun _ ↦ ?_, fun hs ↦ absurd hs (open_of hf)⟩
    · rintro (he | he) <;> cases hs.symm.trans he
    · rintro (he | he) <;> cases he
  | logOut hf hl =>
    refine .inr ⟨rfl, by rintro ⟨⟩, ?_, fun _ ↦ ?_, fun hs ↦ absurd hs (open_of hf)⟩
    · rcases (hx.logsOut hl).2 with hs | hs
      all_goals rintro (he | he) <;> cases hs.symm.trans he
    · rintro (he | he) <;> cases he
  | accept _ hs => exact .inl ⟨hs, rfl⟩
  | kick _ hv hne =>
    refine .inr ⟨rfl, by rintro ⟨⟩, fun he ↦ absurd he hne, fun _ ↦ ?_, fun hs ↦ ?_⟩
    · rintro (he | he) <;> cases he
    · rw [hx.live_eq, hx.finished_iff.2 hs] at hv
      cases hv
  | finish =>
    refine .inr ⟨rfl, by rintro ⟨⟩, fun _ ↦ .inr rfl, fun _ ↦ ?_, fun _ ↦ rfl⟩
    rintro (he | he) <;> cases he

end Standing

/-! ### From moves to steps -/

namespace Gateway

variable {g g' : Gateway} {m : Move} {cid : UInt64} {x : Standing}

/-- Where the connection with a given number stands, if there is one. -/
def standing? (g : Gateway) (cid : UInt64) : Option Standing :=
  (g.hub.bearing? cid).bind fun b ↦ (g.ear? cid).map fun e ↦ ⟨b, e.listener, e.finished⟩

/-- What the listener of a connection passes on in a move, with the event in which it came. -/
def relayed? (g : Gateway) (cid : UInt64) : Move → Option (SocketEvent × Message)
  | .hear k => if k = cid then (g.passing? cid).map fun p ↦ (p.1, p.2.1) else none
  | _ => none

/-- The message by which a move has the backend told that the session of a connection has ended. -/
def noticed? (g : Gateway) (cid : UInt64) (m : Move) : Option Message :=
  if g.releasing? m = some cid then g.hub.parting? cid else none

/-- Where a connection stands is told by its bearing and its listener. -/
theorem standing?_eq_some_iff : g.standing? cid = some x ↔
    g.hub.bearing? cid = some x.toBearing ∧
      ∃ inbox, g.ear? cid = some ⟨inbox, x.listener, x.finished⟩ := by
  constructor
  · intro h
    obtain ⟨b, hb, h⟩ := Option.bind_eq_some_iff.1 h
    obtain ⟨e, he, rfl⟩ := Option.map_eq_some_iff.1 h
    exact ⟨hb, e.inbox, he⟩
  · rintro ⟨hb, inbox, he⟩
    rw [standing?, hb, he]
    rfl

/-- What a release has to tell is what the standing of the connection says. -/
theorem parting?_eq (hx : g.standing? cid = some x) :
    g.hub.parting? cid = x.parting? g.hub.nid := by
  obtain ⟨hb, -⟩ := standing?_eq_some_iff.1 hx
  obtain ⟨c, hc, hb⟩ := Option.map_eq_some_iff.1 hb
  obtain ⟨b, l, f⟩ := x
  cases hb
  simp only [Hub.parting?, hc, Option.bind_eq_bind, Option.bind_some, Standing.parting?,
    Standing.Owner, beq_iff_eq, and_assoc]
  rfl

/-- The connection takes a step in a move. -/
def Steps (g : Gateway) (cid : UInt64) (x : Standing) (m : Move) (g' : Gateway) : Prop :=
  ∃ y, g'.standing? cid = some y ∧
    x.Step g.hub.nid cid m (g.relayed? cid m) (g.noticed? cid m) y

private theorem steps_of {y : Standing} {inbox : List SocketEvent}
    (hb : g'.hub.bearing? cid = some y.toBearing)
    (he : g'.ear? cid = some ⟨inbox, y.listener, y.finished⟩)
    (hs : x.Step g.hub.nid cid m (g.relayed? cid m) (g.noticed? cid m) y) : g.Steps cid x m g' :=
  ⟨y, standing?_eq_some_iff.2 ⟨hb, inbox, he⟩, hs⟩

/-- Nothing is told by a move that releases nobody. -/
theorem noticed?_eq_none (h : g.releasing? m = none) : g.noticed? cid m = none := by
  rw [noticed?, h, if_neg]
  rintro ⟨⟩

/-- Nothing is told by a move that nothing comes of. -/
theorem Move.Idle.silent (hm : m.Idle) (g : Gateway) (cid : UInt64) :
    g.relayed? cid m = none ∧ g.noticed? cid m = none := by
  cases m <;> first | exact hm.elim | exact ⟨rfl, noticed?_eq_none rfl⟩

private theorem steps_idle (hm : m.Idle) (hh : g.hub.Idle g'.hub) (he : ∀ k, g'.ear? k = g.ear? k)
    (hx : g.standing? cid = some x) : g.Steps cid x m g' := by
  obtain ⟨hb, inbox, hi⟩ := standing?_eq_some_iff.1 hx
  obtain ⟨closes, hb'⟩ := hh.bearing cid
  obtain ⟨hr, hn⟩ := hm.silent g cid
  refine steps_of (y := { x with closed := x.closed || closes }) ?_ ((he cid).trans hi) ?_
  · rw [hb', hb]
    rfl
  · rw [hr, hn]
    exact .close closes

private theorem step_of_admitted {h : Hub} (nid : UInt32) (l : Listener) (f : Bool)
    {k sid uid : UInt64} {c d e : Connection} (hc : h.conns.find? cid = some c)
    (he : h.conns.find? k = some e) (hlog : e.logon sid uid = some d) :
    ∃ b, (h.admitted k d).bearing? cid = some b ∧
      Standing.Step nid cid ⟨h.bearingOf cid c, l, f⟩ m none none ⟨b, l, f⟩ := by
  rw [Hub.bearing?_admitted he, Hub.bearing?, hc]
  split
  · next hk =>
    subst hk
    rw [hc] at he
    cases he
    obtain ⟨hcheck, hopen, rfl⟩ := Connection.logon_eq_some_iff.1 hlog
    exact ⟨_, rfl, .accept (x := ⟨h.bearingOf cid c, l, f⟩) sid hcheck hopen⟩
  · exact ⟨_, rfl, .lose (x := ⟨h.bearingOf cid c, l, f⟩) (c.sid != d.sid)⟩

private theorem step_of_handled {h h' : Hub} {nid : UInt32} (hs : Crew.Sound { hub := h })
    (hh : h.Handled h') (hb : h.bearing? cid = some x.toBearing) :
    ∃ b, h'.bearing? cid = some b ∧ x.Step nid cid m none none { x with toBearing := b } := by
  obtain ⟨c, hc, hbc⟩ := Option.map_eq_some_iff.1 hb
  obtain ⟨b, l, f⟩ := x
  cases hbc
  cases hh with
  | quiet hq => exact ⟨_, (hq.bearing cid).trans hb, .refl nid cid _ m⟩
  | @kicked sid k d h' hl hget hq =>
    obtain ⟨hlive, hd⟩ := Connections.get?_eq_some_iff.1 hget
    have hb' := (hq.bearing cid).trans (Hub.bearing?_setStatus h k .kick cid)
    rw [hb, Option.map_some] at hb'
    refine ⟨_, hb', ?_⟩
    split
    · next he =>
      subst he
      obtain ⟨c', hc', -, hne⟩ := hs.owner sid cid hl
      rw [hc] at hc'
      cases hc'
      have hk : Standing.Step nid cid ⟨h.bearingOf cid c, l, f⟩ m none none _ :=
        .kick true hlive hne
      rwa [Bool.and_true] at hk
    · exact .refl nid cid _ m
  | admitted he hlog hq =>
    obtain ⟨b, hb', hstep⟩ := step_of_admitted nid l f hc he hlog
    exact ⟨b, (hq.bearing cid).trans hb', hstep⟩
  | @tookOver sid k uid old e d e' h' he hlog hl hne hget hq =>
    have hb' := (hq.bearing cid).trans (Hub.bearing?_setStatus (h.admitted k d) old .kick cid)
    by_cases hold : cid = old
    · subst hold
      obtain ⟨hlive, -⟩ := Connections.get?_eq_some_iff.1 hget
      obtain ⟨c', hc', -, hnear⟩ := hs.owner sid cid hl
      rw [hc] at hc'
      cases hc'
      rw [Hub.bearing?_admitted he, if_neg hne, hb, Option.map_some, Option.map_some,
        if_pos rfl] at hb'
      exact ⟨_, hb', .kick (c.sid != d.sid) hlive hnear⟩
    · obtain ⟨b, hb₁, hstep⟩ := step_of_admitted nid l f hc he hlog
      rw [hb₁, Option.map_some, if_neg hold] at hb'
      exact ⟨b, hb', hstep⟩

private theorem bearing?_of_hears {k : UInt64} {e : SocketEvent} {c : Connection} {l : Listener}
    (hh : g.Hears k e c l g') (hne : cid ≠ k) : g'.hub.bearing? cid = g.hub.bearing? cid := by
  have set : ∀ (h : Hub) s, (h.modifyConn k fun c ↦ c.setStatus s).bearing? cid =
    h.bearing? cid := by
    intro h s
    rw [Hub.bearing?_setStatus]
    simp only [if_neg hne, Option.map_id']
  cases hh with
  | nothing _ _ hq => exact hq.bearing cid
  | passes _ _ hu _ hafter =>
    cases hu with
    | request =>
      rw [hafter.2]
      exact set _ _
    | relay _ _ _ hq =>
      rw [hafter.2]
      exact hq.bearing cid
    | offline =>
      rcases hafter with ⟨-, hh⟩ | ⟨-, hq⟩
      · rw [hh]
      · rw [hq.bearing, set]

private theorem steps_hear {e : SocketEvent} {inbox : List SocketEvent} {c : Connection}
    {l : Listener} (he : g.ear? cid = some ⟨e :: inbox, .listening, false⟩)
    (hc : g.hub.conns.find? cid = some c) (he' : g'.ear? cid = some ⟨inbox, l, false⟩)
    (hh : g.Hears cid e c l g') (hx : g.standing? cid = some x) : g.Steps cid x (.hear cid) g' := by
  obtain ⟨hb, inbox', hi⟩ := standing?_eq_some_iff.1 hx
  rw [he, Option.some.injEq, Ear.mk.injEq] at hi
  obtain ⟨-, hl, hf⟩ := hi
  have hn : g.noticed? cid (.hear cid) = none := noticed?_eq_none rfl
  have hr : g.relayed? cid (.hear cid) = (g.passing? cid).map fun p ↦ (p.1, p.2.1) := if_pos rfl
  have hbear : g.hub.bearing? cid = some (g.hub.bearingOf cid c) := by rw [Hub.bearing?, hc]; rfl
  have set : ∀ {h' : Hub} {s}, (g.hub.modifyConn cid fun c ↦ c.setStatus s).Quiet h' →
      h'.bearing? cid = some { g.hub.bearingOf cid c with status := s } := by
    intro h' s hq
    rw [hq.bearing, Hub.bearing?_setStatus, hbear, Option.map_some, if_pos rfl]
  obtain ⟨b, l', f⟩ := x
  rw [hbear, Option.some.injEq] at hb
  subst hb hl hf
  cases hh with
  | nothing hp hl hq _ =>
    refine steps_of (y := ⟨g.hub.bearingOf cid c, l, false⟩)
      ((hq.bearing cid).trans hbear) he' ?_
    rw [hr, hn, hp]
    exact .listen rfl Listener.not_logsOut_listening hl
  | passes hp hm hu _ hafter =>
    cases hu with
    | request hearly =>
      obtain ⟨hl, hh⟩ := hafter
      refine steps_of (y := ⟨{ g.hub.bearingOf cid c with status := .check }, l, false⟩)
        ?_ he' ?_
      · rw [hh]
        exact set (.refl _)
      · rw [hr, hn, hp]
        exact .request rfl hearly rfl hl
    | relay hs hon hoff hq =>
      obtain ⟨hl, hh⟩ := hafter
      refine steps_of (y := ⟨g.hub.bearingOf cid c, l, false⟩) ?_ he' ?_
      · rw [hh, hq.bearing, hbear]
      · rw [hr, hn, hp]
        exact .relay rfl Listener.not_logsOut_listening hs hm hon hoff hl
    | offline hs hoff =>
      rcases hafter with ⟨hl, hh⟩ | ⟨hl, hq⟩
      · refine steps_of (y := ⟨g.hub.bearingOf cid c, l, false⟩) (by rw [hh, hbear]) he' ?_
        rw [hr, hn, hp]
        exact .offline rfl Listener.not_logsOut_listening hs hm hoff hl
      · refine steps_of (y := ⟨{ g.hub.bearingOf cid c with status := .logout }, l, false⟩)
          (set hq) he' ?_
        rw [hr, hn, hp]
        exact .logOff rfl Listener.not_logsOut_listening hs hm hoff hl

private theorem steps_still (hr : g.relayed? cid m = none) (hn : g.noticed? cid m = none)
    (hb : g'.hub.bearing? cid = g.hub.bearing? cid) (he : g'.ear? cid = g.ear? cid)
    (hx : g.standing? cid = some x) : g.Steps cid x m g' := by
  refine ⟨x, ?_, ?_⟩
  · rw [standing?, hb, he]
    exact hx
  · rw [hr, hn]
    exact .refl _ _ _ _

private theorem steps_listener {l : Listener} (hm : x.listener.LogsOut → m = .resumeListener cid)
    (hr : g.relayed? cid m = none) (hn : g.noticed? cid m = none)
    (he : g'.ear? cid = (g.ear? cid).map fun e ↦ { e with listener := l }) (hl : ¬ l.LogsOut)
    (hf : x.finished = false)
    (hh : ¬ x.listener.LogsOut ∧ g'.hub = g.hub ∨
      x.listener.LogsOut ∧ (g.hub.modifyConn cid fun c ↦ c.setStatus .logout).Quiet g'.hub)
    (hx : g.standing? cid = some x) : g.Steps cid x m g' := by
  obtain ⟨hb, inbox, hi⟩ := standing?_eq_some_iff.1 hx
  rw [hi, Option.map_some] at he
  rcases hh with ⟨hlis, hh⟩ | ⟨hlis, hq⟩
  · refine steps_of (y := { x with listener := l }) ?_ he ?_
    · rw [hh]
      exact hb
    · rw [hr, hn]
      exact .listen hf hlis hl
  · refine steps_of (y := { x with status := .logout, listener := l }) ?_ he ?_
    · rw [hq.bearing, Hub.bearing?_setStatus, hb, Option.map_some, if_pos rfl]
    · rw [hr, hn, hm hlis]
      exact .logOut hf hlis hl

private theorem steps_resumeCall {i w : Nat}
    (hh : match g.releasing? (.resumeCall i w) with
      | some k => g'.hub = g.hub.released k
      | none => g.hub.Quiet g'.hub) (he : ∀ k, g'.ear? k = g.ear? k)
    (hx : g.standing? cid = some x) : g.Steps cid x (.resumeCall i w) g' := by
  obtain ⟨hb, inbox, hi⟩ := standing?_eq_some_iff.1 hx
  have hn : g.noticed? cid (.resumeCall i w) =
    if g.releasing? (.resumeCall i w) = some cid then g.hub.parting? cid else none := rfl
  split at hh
  · next k hk =>
    by_cases hkc : cid = k
    · subst hkc
      refine steps_of (y := x.released) ?_ ((he cid).trans hi) ?_
      · rw [hh, Hub.bearing?_released, hb, Option.map_some]
        obtain ⟨⟨sid, status, closed, live, routed⟩, l, f⟩ := x
        by_cases h0 : sid = 0 <;> simp [Standing.released, h0]
      · rw [hn, if_pos hk, parting?_eq hx]
        exact .release i w
    · refine steps_still rfl ?_ ?_ (he cid) hx
      · rw [hn, hk]
        exact if_neg fun h ↦ hkc (Option.some.inj h).symm
      · rw [hh, Hub.bearing?_released]
        simp only [hkc, false_and, if_false, Option.map_id']
  · next hk =>
    refine steps_still rfl ?_ (hh.bearing cid) (he cid) hx
    exact noticed?_eq_none hk

private theorem bearing?_deregister (h : Hub) (k cid : UInt64) :
    ({ h with conns := h.conns.deregister k } : Hub).bearing? cid =
      (h.bearing? cid).map fun b ↦ { b with live := decide (cid ≠ k) && b.live } := by
  rw [Hub.bearing?, Hub.bearing?, Option.map_map]
  congr 1
  funext c
  rw [Function.comp_apply, Hub.bearingOf, Connections.isLive_deregister]
  rfl

private theorem steps_finishSocket {k : UInt64} {c : Connection} {e : Ear} (hk : g.ear? k = some e)
    (hf : e.finished = false) (hl : e.listener = .ended) (hc : g.hub.conns.find? k = some c)
    (hcl : c.closed = true) (hh : g'.hub = Closing.run g.hub k)
    (he : g'.ear? cid =
      (g.ear? cid).map fun e ↦ if cid = k then { e with finished := true } else e)
    (hx : g.standing? cid = some x) : g.Steps cid x (.finishSocket k) g' := by
  obtain ⟨hb, inbox, hi⟩ := standing?_eq_some_iff.1 hx
  have hn : g.noticed? cid (.finishSocket k) =
    if some k = some cid then g.hub.parting? cid else none := rfl
  have hrun := congrArg (Hub.bearing? · cid) (Closing.run_eq g.hub k)
  simp only [Hub.bearing?_setStatus, Hub.bearing?_released, bearing?_deregister, hb,
    Option.map_some]
    at hrun
  rw [← hh] at hrun
  by_cases hkc : cid = k
  · subst hkc
    rw [hi, Option.some.injEq] at hk
    subst hk
    rw [hi, Option.map_some, if_pos rfl] at he
    obtain ⟨d, hd, hbd⟩ := Option.map_eq_some_iff.1 hb
    rw [hc] at hd
    cases hd
    refine steps_of (y := { x.released with status := .close, live := false, finished := true })
      ?_ he ?_
    · rw [hrun]
      by_cases h0 : x.sid = 0 <;> simp [Standing.released, h0]
    · rw [hn, if_pos rfl, parting?_eq hx]
      exact .finish ((congrArg Bearing.closed hbd).symm.trans hcl) hf hl
  · refine steps_still rfl ?_ ?_ ?_ hx
    · rw [hn]
      exact if_neg fun h ↦ hkc (Option.some.inj h).symm
    · rw [hrun, hb]
      simp [hkc]
    · rw [he]
      simp only [if_neg hkc, Option.map_id']

/-- Every connection takes a step in a move that is not the opening of one. -/
theorem steps_of_turn (hs : Crew.Sound { hub := g.hub }) (hm : m ≠ .connect)
    (ht : Turn g m g') (hx : g.standing? cid = some x) : g.Steps cid x m g' := by
  obtain ⟨hb, inbox, hi⟩ := standing?_eq_some_iff.1 hx
  cases ht with
  | idle hm hh he => exact steps_idle hm hh he hx
  | connect => exact absurd rfl hm
  | @say k e g' hh he =>
    have he' := he cid
    rw [hi, Option.map_some] at he'
    split at he'
    · refine steps_of (by rw [hh, hb]) he' ?_
      rw [show g.noticed? cid (.say k e) = none from noticed?_eq_none rfl]
      exact .refl _ _ _ _
    · exact steps_still rfl (noticed?_eq_none rfl) (by rw [hh]) (he'.trans hi.symm) hx
  | @hear k e inbox c l g' hk hc hk' hoth hh =>
    by_cases hkc : k = cid
    · subst hkc
      exact steps_hear hk hc hk' hh hx
    · exact steps_still (if_neg hkc) (noticed?_eq_none rfl) (bearing?_of_hears hh (Ne.symm hkc))
        (hoth cid (Ne.symm hkc)) hx
  | @heed k e g' hk hf hl hh he =>
    have he' := he cid
    by_cases hkc : cid = k
    · subst hkc
      rw [hi, Option.some.injEq] at hk
      subst hk
      simp only [if_true] at he'
      have hlis : ¬ x.listener.LogsOut := by
        rw [show x.listener = .listening from hl]
        exact Listener.not_logsOut_listening
      exact steps_listener (absurd · hlis) rfl (noticed?_eq_none rfl) he'
        (by rintro ⟨t, ⟨⟩⟩) hf
        (.inl ⟨hlis, hh⟩) hx
    · simp only [if_neg hkc, Option.map_id'] at he'
      exact steps_still rfl (noticed?_eq_none rfl) (by rw [hh]) he' hx
  | @resumeListener k e l g' hk hf hl he hh =>
    have he' := he cid
    by_cases hkc : cid = k
    · subst hkc
      rw [hi, Option.some.injEq] at hk
      subst hk
      simp only [if_true] at he'
      exact steps_listener (fun _ ↦ rfl) rfl (noticed?_eq_none rfl) he' hl hf hh hx
    · simp only [if_neg hkc, Option.map_id'] at he'
      refine steps_still rfl (noticed?_eq_none rfl) ?_ he' hx
      rcases hh with ⟨-, hh⟩ | ⟨-, hq⟩
      · rw [hh]
      · rw [hq.bearing, Hub.bearing?_setStatus]
        simp only [if_neg hkc, Option.map_id']
  | @fetchCall i w g' hh he =>
    obtain ⟨b, hb', hstep⟩ := step_of_handled hs hh hb
    refine steps_of (y := { x with toBearing := b }) hb' ((he cid).trans hi) ?_
    rw [show g.noticed? cid (.fetchCall i w) = none from noticed?_eq_none rfl]
    exact hstep
  | resumeCall hh he => exact steps_resumeCall hh he hx
  | finishSocket hk hf hl hc hcl hh he => exact steps_finishSocket hk hf hl hc hcl hh (he cid) hx
  | sendFarewell _ hh he =>
    exact steps_still rfl (noticed?_eq_none rfl) (by rw [hh]; rfl) (he cid) hx

/-- Where there is no connection there is none after a move, unless a client connects. -/
theorem absent_of_turn (hm : m ≠ .connect) (ht : Turn g m g')
    (hb : g.hub.bearing? cid = none) (hi : g.ear? cid = none) :
    g'.hub.bearing? cid = none ∧ g'.ear? cid = none ∧ g.relayed? cid m = none ∧
      g.noticed? cid m = none := by
  have hc : g.hub.conns.find? cid = none := by simpa [Hub.bearing?] using hb
  have set : ∀ {h' : Hub} {k s}, (g.hub.modifyConn k fun c ↦ c.setStatus s).Quiet h' →
      h'.bearing? cid = none := by
    intro h' k s hq
    rw [hq.bearing, Hub.bearing?_setStatus, hb, Option.map_none]
  have bears : ∀ {k : UInt64} {c d : Connection}, g.hub.conns.find? k = some c →
      (g.hub.admitted k d).bearing? cid = none := by
    intro k c d hk
    have hne : cid ≠ k := by
      rintro rfl
      cases hc.symm.trans hk
    rw [Hub.bearing?_admitted hk, if_neg hne, hb, Option.map_none]
  cases ht with
  | idle hm hh he =>
    obtain ⟨closes, hb'⟩ := hh.bearing cid
    obtain ⟨hr, hn⟩ := hm.silent g cid
    exact ⟨by rw [hb', hb, Option.map_none], (he cid).trans hi, hr, hn⟩
  | connect => exact absurd rfl hm
  | say hh he =>
    exact ⟨by rw [hh, hb], by rw [he, hi, Option.map_none], rfl, noticed?_eq_none rfl⟩
  | @hear k e inbox c l g' hk hc hk' hoth hh =>
    have hne : cid ≠ k := by
      rintro rfl
      cases hi.symm.trans hk
    exact ⟨(bearing?_of_hears hh hne).trans hb, (hoth cid hne).trans hi, if_neg hne.symm,
      noticed?_eq_none rfl⟩
  | heed _ _ _ hh he =>
    exact ⟨by rw [hh, hb], by rw [he, hi, Option.map_none], rfl, noticed?_eq_none rfl⟩
  | resumeListener _ _ _ he hh =>
    refine ⟨?_, by rw [he, hi, Option.map_none], rfl, noticed?_eq_none rfl⟩
    rcases hh with ⟨-, hh⟩ | ⟨-, hq⟩
    · rw [hh, hb]
    · exact set hq
  | fetchCall hh he =>
    refine ⟨?_, (he cid).trans hi, rfl, noticed?_eq_none rfl⟩
    cases hh with
    | quiet hq => rw [hq.bearing, hb]
    | kicked _ _ hq => exact set hq
    | admitted hf _ hq => rw [hq.bearing, bears hf]
    | tookOver hf _ _ _ _ hq => rw [hq.bearing, Hub.bearing?_setStatus, bears hf, Option.map_none]
  | resumeCall hh he =>
    refine ⟨?_, (he cid).trans hi, rfl, ?_⟩
    · split at hh
      · rw [hh, Hub.bearing?_released, hb, Option.map_none]
      · rw [hh.bearing, hb]
    · simp [noticed?, Hub.parting?, hc]
  | finishSocket _ _ _ _ _ hh he =>
    refine ⟨?_, by rw [he, hi, Option.map_none], rfl, by simp [noticed?, Hub.parting?, hc]⟩
    rw [hh, Closing.run_eq, Hub.bearing?_setStatus, Hub.bearing?_released, bearing?_deregister, hb]
    rfl
  | sendFarewell _ hh he =>
    exact ⟨by rw [hh]; exact hb, (he cid).trans hi, rfl, noticed?_eq_none rfl⟩

end Gateway

end EdgeGateway
