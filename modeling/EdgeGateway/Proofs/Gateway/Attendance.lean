import EdgeGateway.Proofs.Gateway.Supervision
import EdgeGateway.Proofs.Gateway.Tending
import EdgeGateway.Proofs.Gateway.Trail

/-!
# The connections of a gateway under supervision

A gateway with its listeners, speakers and workers does to each of its connections what supervision
allows and nothing else. `supervision?` is a connection of a gateway as its supervisor sees it,
`events` reads off a move what happens to the connection in it, and `history` is what happened to it
in a run. `run_events` says that a move is a part of a run of the supervised connection, so that
every run of the gateway is, for every connection, a whole one (`run_history`). The tasks of a
gateway take turns where they wait, and nobody waits while closing a connection, so that here the
steps of the closing come one right after the other.
-/

namespace EdgeGateway

/-- What the reader of a connection is doing whose listener is doing this. -/
def Listener.reader : Listener → Supervision.Reader
  | listening => .listening
  | forwarding .. | evicting _ => .handling
  | ended => .ended

/-- What the writer of a connection is doing whose speaker is doing this. -/
def Speaker.writer : Speaker → Supervision.Writer
  | idle => .idle
  | writing _ => .writing
  | closing _ => .closing
  | ended => .ended

/-- What a listener that has handled a message as far as it could says about it. -/
def Listener.verdict : Listener → List Supervision.Event
  | listening => [.returned .goOn]
  | ended => [.returned .disconnect]
  | forwarding .. | evicting _ => []

/-- How far the closing of a connection has come which nobody is in the middle of closing. -/
def Connection.closure (c : Connection) : Supervision.Closure :=
  if c.closed then .done else .unmarked

/-- It has been shut if the connection is closed. -/
theorem Connection.sealed_closure_iff (c : Connection) : c.closure.Sealed ↔ c.closed = true := by
  rw [closure]
  cases c.closed <;> decide

/-- A connection and its socket as the supervisor sees them. -/
def Socket.supervision (s : Socket) (c : Connection) : Supervision where
  conn := c
  closure := c.closure
  stage := if s.finished then .retired else .serving
  reader := s.listener.reader
  writer := s.speaker.writer
  handed := s.handed

/-- What happens to a connection that others make into `d`. -/
def Connection.befalls (c d : Connection) : List Supervision.Event :=
  (d.queue.drop c.queue.length).map .accepted ++
    (if d.sid = c.sid ∧ d.uid = c.uid ∧ d.status = c.status then []
    else [.session d.sid d.uid d.status]) ++
    if d.closed = c.closed then [] else [.marked, .sealed, .signalled, .closed true]

namespace Supervision

variable {s t : Supervision}

/-- Two runs of which the second begins where the first ends are one. -/
theorem run_trans {u : Supervision} {l r : List Event} (h : s.run? l = some t)
    (k : t.run? r = some u) : s.run? (l ++ r) = some u := by
  rw [run?_append, h]
  exact k

private theorem run_accepted {ms : List Message} (hs : ¬ s.closure.Sealed)
    (ha : s.conn.abandoned = false) (hl : (s.conn.queue ++ ms).length ≤ s.conn.capacity) :
    s.run? (ms.map .accepted) =
      some { s with conn := { s.conn with queue := s.conn.queue ++ ms } } := by
  induction ms generalizing s with
  | nil =>
    rw [List.append_nil]
    rfl
  | cons m ms ih =>
    have hroom : s.conn.queue.length < s.conn.capacity := by
      rw [List.length_append, List.length_cons] at hl
      omega
    have hsend : s.send m = .ok { s with conn := { s.conn with queue := s.conn.queue ++ [m] } } :=
      send_eq_ok_iff.2 ⟨hs, ha, hroom, rfl⟩
    have hstep : s.step? (.accepted m) =
        some { s with conn := { s.conn with queue := s.conn.queue ++ [m] } } := by
      simp only [step?, hsend]
    have hrest := ih (s := { s with conn := { s.conn with queue := s.conn.queue ++ [m] } }) hs ha
      (by rwa [List.append_assoc])
    rw [List.append_assoc] at hrest
    exact Option.bind_eq_some_iff.2 ⟨_, hstep, hrest⟩

private theorem run_session (s : Supervision) (sid uid : UInt64) (status : Status) :
    s.run? (if sid = s.conn.sid ∧ uid = s.conn.uid ∧ status = s.conn.status then []
      else [.session sid uid status]) =
        some { s with conn := { s.conn with sid, uid, status } } := by
  split
  · next h =>
    obtain ⟨rfl, rfl, rfl⟩ := h
    rfl
  · rfl

private theorem run_closed {d : Connection} (hs : s.closure = s.conn.closure)
    (hc : s.conn.closed = true → d.closed = true) :
    s.run? (if d.closed = s.conn.closed then [] else [.marked, .sealed, .signalled, .closed true]) =
      some { s with conn := { s.conn with closed := d.closed }, closure := d.closure } := by
  split
  · next h =>
    rw [Connection.closure, h, ← Connection.closure, ← hs]
    rfl
  · next h =>
    have hopen : s.conn.closed = false := by
      cases hx : s.conn.closed with
      | true => exact absurd ((hc hx).trans hx.symm) h
      | false => rfl
    have hclosed : d.closed = true := by simpa [hopen] using h
    have hmark : s.step? .marked = some { s with conn := s.conn.close, closure := .marked } :=
      if_neg (by rw [hopen]; rintro ⟨⟩)
    rw [Connection.closure, hclosed]
    exact Option.bind_eq_some_iff.2 ⟨_, hmark, rfl⟩

/-- What others do to a connection can happen to it under supervision. -/
theorem run_befalls {d : Connection} (hs : s.closure = s.conn.closure) (hd : s.conn.Gains d) :
    s.run? (s.conn.befalls d) = some { s with conn := d, closure := d.closure } := by
  obtain ⟨hcid, hcap, ha, hclosed, ms, hq, hroom⟩ := hd
  have hacc : s.run? (ms.map .accepted) =
      some { s with conn := { s.conn with queue := s.conn.queue ++ ms } } := by
    by_cases hms : ms = []
    · rw [hms, List.append_nil]
      rfl
    · obtain ⟨hopen, hab, hl⟩ := hroom hms
      have hunsealed : ¬ s.closure.Sealed := by
        rw [hs, Connection.sealed_closure_iff, hopen]
        rintro ⟨⟩
      exact run_accepted hunsealed hab (hq ▸ hl)
  have hd : { s.conn with
      queue := s.conn.queue ++ ms, sid := d.sid, uid := d.uid, status := d.status,
      closed := d.closed } = d := by
    simp only [← hq, ← hcid, ← hcap, ← ha]
  have hall := run_trans (run_trans hacc (run_session _ d.sid d.uid d.status))
    (run_closed (d := d) hs hclosed)
  rw [← hd] at hall ⊢
  rw [Connection.befalls, List.drop_left]
  exact hall

/-- What a listener says about the message that it was handling can happen under supervision. -/
theorem run_verdict {l : Listener} (hr : s.reader = .handling) :
    s.run? l.verdict = some { s with reader := l.reader } := by
  cases l with
  | listening | ended => exact Option.bind_eq_some_iff.2 ⟨_, if_pos hr, rfl⟩
  | forwarding ticket after | evicting ticket =>
    rw [Listener.reader, ← hr]
    rfl

end Supervision

namespace Gateway

variable {g g' : Gateway} {m : Move} {cid : UInt64} {s : Socket} {c : Connection}

/-! ### What happens in a move -/

/-- A connection, whether it has been dealt with or not, and its socket. -/
def attended? (g : Gateway) (cid : UInt64) : Option (Socket × Connection) := do
  let s ← g.sockets.get? cid
  let c ← g.hub.conns.find? cid
  return (s, c)

/-- A connection as its supervisor sees it. -/
def supervision? (g : Gateway) (cid : UInt64) : Option Supervision :=
  (g.attended? cid).map fun (s, c) ↦ s.supervision c

/-- The connection whose listener, speaker or supervisor makes a move. A supervisor that closes a
connection does what others do, too. -/
def Move.server? : Move → Option UInt64
  | .hear cid | .heed cid | .resumeListener cid | .takeMessage cid | .ping cid | .sayFarewell cid
  | .written cid | .failWrite cid | .giveUp cid | .finishSocket cid => some cid
  | _ => none

/-- What happens to a connection in a move of its listener, of its speaker or of its supervisor, by
which its socket becomes `t` and it becomes `d`. -/
def deeds (g : Gateway) (cid : UInt64) (s t : Socket) (c d : Connection) :
    Move → List Supervision.Event
  | .hear _ =>
    match g.heard? cid with
    | some (_, _, m) => .called m :: (c.befalls d ++ t.listener.verdict)
    | none => if t.listener = .ended then [.readerEnded] else []
  | .heed _ => [.readerEnded]
  | .resumeListener _ => c.befalls d ++ t.listener.verdict
  | .takeMessage _ | .ping _ | .sayFarewell _ => (t.handed.drop s.handed.length).map .handed
  | .written _ => if t.speaker = .idle then [.written] else [.writerEnded]
  | .failWrite _ | .giveUp _ => [.writerEnded]
  | .finishSocket _ => [.deregistered, .notified, .retired]
  | _ => c.befalls d

/-- What happens to a connection in a move. -/
def events (g g' : Gateway) (cid : UInt64) (m : Move) : List Supervision.Event :=
  match g.attended? cid, g'.attended? cid with
  | some (s, c), some (t, d) => if m.server? = some cid then g.deeds cid s t c d m else c.befalls d
  | none, some _ => [.created, .registered]
  | _, none => []

/-- What happened to a connection in a sequence of moves, each with the state in which it was made.
-/
def history (t : List (Gateway × Move)) (cid : UInt64) : List Supervision.Event :=
  t.flatMap fun p ↦ (p.1.move? p.2).elim [] fun g' ↦ p.1.events g' cid p.2

/-- A connection is attended to by the socket and with the state that the tables have for it. -/
theorem attended?_eq_some_iff :
    g.attended? cid = some (s, c) ↔
      g.sockets.get? cid = some s ∧ g.hub.conns.find? cid = some c := by
  constructor
  · intro h
    obtain ⟨s', hs, h⟩ := Option.bind_eq_some_iff.1 h
    obtain ⟨c', hc, h⟩ := Option.bind_eq_some_iff.1 h
    cases h
    exact ⟨hs, hc⟩
  · rintro ⟨hs, hc⟩
    simp [attended?, hs, hc]

/-! ### Moves of others -/

/-- Others do to a connection what they can do to it, and leave its tasks alone. -/
structure Undisturbed (g g' : Gateway) (cid : UInt64) : Prop where
  socket : ∀ s, g.sockets.get? cid = some s → ∃ t, g'.sockets.get? cid = some t ∧
    t.listener = s.listener ∧ t.speaker = s.speaker ∧ t.handed = s.handed ∧
    t.finished = s.finished
  conn : Option.Rel Connection.Gains (g.hub.conns.find? cid) (g'.hub.conns.find? cid)

private theorem Undisturbed.of_sockets_eq (hs : g'.sockets = g.sockets)
    (hc : g.hub.conns.Tends g'.hub.conns) : g.Undisturbed g' cid := by
  refine ⟨fun s h ↦ ⟨s, ?_, rfl, rfl, rfl, rfl⟩, hc cid⟩
  rw [hs, h]

private theorem Undisturbed.of_eq (hs : g'.sockets = g.sockets) (hc : g'.hub.conns = g.hub.conns) :
    g.Undisturbed g' cid := by
  refine .of_sockets_eq hs ?_
  rw [hc]
  exact .refl _

/-- To change one socket leaves all others alone. -/
theorem get?_modifySocket (g : Gateway) (k : UInt64) (f : Socket → Socket) (cid : UInt64) :
    (g.modifySocket k f).sockets.get? cid =
      if cid = k then (g.sockets.get? k).map f else g.sockets.get? cid := Table.get?_modify ..

private theorem Undisturbed.modifySocket {k : UInt64} (h : g.Undisturbed g' cid) (hk : k ≠ cid)
    (f : Socket → Socket) : g.Undisturbed (g'.modifySocket k f) cid := by
  refine ⟨?_, h.conn⟩
  intro s hs
  rw [get?_modifySocket, if_neg hk.symm]
  exact h.socket s hs

/-- A listener does to connections what others can do, and changes nothing at sockets but what it
does itself. -/
structure Minds (g g' : Gateway) (k : UInt64) (s : Socket) : Prop where
  conns : g.hub.conns.Tends g'.hub.conns
  own : ∃ l, g'.sockets.get? k = some { s with listener := l }
  rest : ∀ i, i ≠ k → g'.sockets.get? i = g.sockets.get? i

variable {k : UInt64}

private theorem Minds.of_setListener (hs : g.sockets.get? k = some s)
    (hc : g.hub.conns.Tends g'.hub.conns) (l : Listener)
    (h : g'.sockets = g.sockets.modify k fun s ↦ { s with listener := l }) :
    g.Minds g' k s := by
  refine ⟨hc, ⟨l, ?_⟩, fun i hi ↦ ?_⟩
  · rw [h, Table.get?_modify, if_pos rfl, hs]
    rfl
  · rw [h, Table.get?_modify, if_neg hi]

private theorem minds_afterForward (hs : g.sockets.get? k = some s) (after : AfterForward) :
    g.Minds (g.afterForward k after) k s := by
  cases after with
  | proceed => exact .of_setListener hs (.refl _) .listening rfl
  | logOut =>
    exact .of_setListener hs (g.hub.conns.tends_modify k fun c ↦ c.gains_setStatus .logout) _ rfl

private theorem minds_forward (hs : g.sockets.get? k = some s) (m : Message)
    (after : AfterForward) : g.Minds (g.forward k m after) k s := by
  simp only [forward]
  split
  · obtain ⟨hc, hl, hr⟩ :=
      minds_afterForward (g := { g with pool := (g.pool.send _).2 }) hs after
    exact ⟨hc, hl, hr⟩
  · exact .of_setListener hs (.refl _) _ rfl

/-- Handling a message, a listener does no more than that. -/
theorem minds_onMessage (hn : g.hub.conns.Numbered) (hs : g.sockets.get? k = some s)
    (hf : g.hub.conns.find? k = some c) (m : Message) : g.Minds (g.onMessage k c m) k s := by
  have hc := Uplink.tends_handle hn hf m
  simp only [onMessage]
  split
  · next hu =>
    rw [hu] at hc
    exact ⟨hc, ⟨s.listener, hs⟩, fun _ _ ↦ rfl⟩
  · next hu =>
    rw [hu] at hc
    exact ⟨hc, ⟨s.listener, hs⟩, fun _ _ ↦ rfl⟩
  · next hu =>
    rw [hu] at hc
    exact .of_setListener hs hc .ended rfl
  · next h m after hu =>
    rw [hu] at hc
    obtain ⟨hc', hl, hr⟩ := minds_forward (g := { g with hub := h }) hs m after
    exact ⟨hc.trans hc', hl, hr⟩

private theorem Minds.undisturbed (h : g.Minds g' k s) (hk : k ≠ cid) : g.Undisturbed g' cid := by
  refine ⟨fun t ht ↦ ⟨t, ?_, rfl, rfl, rfl, rfl⟩, h.conns cid⟩
  rw [h.rest cid hk.symm, ht]

private theorem Undisturbed.of_modifyConn (hs : g'.sockets = g.sockets) (hk : k ≠ cid)
    {f : Connection → Connection}
    (hc : g'.hub.conns.find? cid = (g.hub.conns.modify k f).find? cid) : g.Undisturbed g' cid := by
  refine ⟨fun s h ↦ ⟨s, ?_, rfl, rfl, rfl, rfl⟩, ?_⟩
  · rw [hs, h]
  · rw [hc, Connections.find?_modify, if_neg hk.symm]
    exact Connections.Tends.refl _ cid

private theorem undisturbed_hear (hn : g.hub.conns.Numbered) (hk : k ≠ cid)
    (h : g.hear k = some g') : g.Undisturbed g' cid := by
  obtain ⟨s, c, e, inbox, g₁, hs, -, -, rfl, hcases⟩ := hear_eq h
  obtain ⟨hget, hc, -⟩ := socket?_eq_some_iff.1 hs
  have h₁ : g.Undisturbed (g.modifySocket k fun s ↦ { s with inbox }) cid :=
    (Undisturbed.of_eq rfl rfl).modifySocket hk _
  rcases hcases with ⟨-, rfl | rfl⟩ | ⟨m, -, -, rfl⟩
  · exact h₁
  · exact h₁.modifySocket hk _
  · have hget₁ : (g.modifySocket k fun s ↦ { s with inbox }).sockets.get? k =
      some { s with inbox } := by
      rw [get?_modifySocket, if_pos rfl, hget]
      rfl
    have hm := minds_onMessage (g := g.modifySocket k fun s ↦ { s with inbox }) hn hget₁ hc m
    refine ⟨fun t ht ↦ ⟨t, ?_, rfl, rfl, rfl, rfl⟩, hm.conns cid⟩
    rw [hm.rest cid hk.symm, get?_modifySocket, if_neg hk.symm, ht]

private theorem undisturbed_heed (hk : k ≠ cid) (h : g.heed k = some g') :
    g.Undisturbed g' cid := by
  obtain ⟨⟨s, c⟩, -, h⟩ := Option.bind_eq_some_iff.1 h
  simp only at h
  split at h <;> cases h
  exact (Undisturbed.of_eq rfl rfl).modifySocket hk _

/-- A listener that goes on was handling a message, and does no more than that. -/
theorem minds_resumeListener (h : g.resumeListener k = some g') :
    ∃ s c, g.socket? k = some (s, c) ∧ s.listener.reader = .handling ∧ g.Minds g' k s := by
  obtain ⟨⟨s, c⟩, hs, h⟩ := Option.bind_eq_some_iff.1 h
  obtain ⟨hget, -⟩ := socket?_eq_some_iff.1 hs
  refine ⟨s, c, hs, ?_⟩
  simp only at h
  split at h
  · next hl =>
    split at h <;> cases h
    exact ⟨by rw [hl]; rfl, minds_afterForward hget _⟩
  · next hl =>
    split at h <;> cases h
    exact ⟨by rw [hl]; rfl, .of_setListener hget (.refl _) .listening rfl⟩
  · cases h

private theorem undisturbed_takeMessage (hn : g.hub.conns.Numbered) (hk : k ≠ cid)
    (h : g.takeMessage k = some g') : g.Undisturbed g' cid := by
  obtain ⟨⟨s, c⟩, hs, h⟩ := Option.bind_eq_some_iff.1 h
  obtain ⟨-, hc, -⟩ := socket?_eq_some_iff.1 hs
  simp only at h
  split at h
  · cases h
  · obtain ⟨⟨m, d⟩, hp, h⟩ := Option.bind_eq_some_iff.1 h
    cases h
    have hcid : d.cid = k := (Connection.keeps_of_pop hp).cid.trans (hn.cid_eq k c hc)
    have hd : g.Undisturbed { g with hub := { g.hub with conns := g.hub.conns.store d } } cid :=
      .of_modifyConn rfl hk (f := fun _ ↦ d) (by rw [← hcid]; rfl)
    exact hd.modifySocket hk _

private theorem undisturbed_endSpeaker (g : Gateway) (hk : k ≠ cid) :
    g.Undisturbed (g.endSpeaker k) cid := by
  have ha : g.Undisturbed { g with hub := g.hub.modifyConn k .abandon } cid :=
    .of_modifyConn rfl hk (f := .abandon) rfl
  exact ha.modifySocket hk _

/-- The end of a connection changes its status and nothing else about connections. -/
theorem conns_run_closing (h : Hub) (k cid : UInt64) :
    (Closing.run h k).conns.find? cid =
      (h.conns.modify k fun c ↦ c.setStatus .close).find? cid := by
  rw [Closing.run_eq, Hub.modifyConn, Connections.find?_modify, Connections.find?_modify,
    Hub.conns_released]
  rfl

private theorem undisturbed_finishSocket (hk : k ≠ cid) (h : g.finishSocket k = some g') :
    g.Undisturbed g' cid := by
  obtain ⟨⟨s, c⟩, -, h⟩ := Option.bind_eq_some_iff.1 h
  simp only at h
  split at h <;> cases h
  have hc : g.Undisturbed { g with hub := Closing.run g.hub k } cid :=
    .of_modifyConn rfl hk (conns_run_closing g.hub k cid)
  exact hc.modifySocket hk _

private theorem undisturbed_arrive (g : Gateway) (k : UInt64) (e : SocketEvent) :
    g.Undisturbed (g.arrive k e) cid := by
  by_cases hk : k = cid
  · subst hk
    have hc : Option.Rel Connection.Gains (g.hub.conns.find? k) (g.hub.conns.find? k) :=
      Connections.Tends.refl _ k
    refine ⟨fun s hs ↦ ⟨{ s with inbox := s.inbox ++ [e] }, ?_, rfl, rfl, rfl, rfl⟩, hc⟩
    rw [arrive, get?_modifySocket, if_pos rfl, hs]
    rfl
  · exact (Undisturbed.of_eq rfl rfl).modifySocket hk _

private theorem undisturbed_runCall (g : Gateway) (hn : g.hub.conns.Numbered) (i w : Nat)
    (d : Downlink) (cid : UInt64) : g.Undisturbed (g.runCall i w d) cid := by
  refine .of_sockets_eq ?_ ?_
  · simp only [runCall]
    split <;> rfl
  · rw [hub_runCall]
    exact Downlink.tends_run hn d

/-- A move that is made neither by the tasks of a connection nor by its supervisor is one of others.
-/
theorem undisturbed_of_move? (hn : g.hub.conns.Numbered) (hm : m ≠ .connect)
    (hc : m.server? ≠ some cid) (h : g.move? m = some g') : g.Undisturbed g' cid := by
  have other : ∀ {k}, m.server? = some k → k ≠ cid :=
    fun hk he ↦ hc (hk.trans (congrArg some he))
  cases m with
  | connect => exact absurd rfl hm
  | start address =>
    cases h
    rw [start]
    split <;> exact .of_eq rfl rfl
  | wait ms | backendSays wire b | backendEnds wire =>
    cases h
    exact .of_eq rfl rfl
  | say k e =>
    cases h
    exact g.undisturbed_arrive k e
  | shutdown =>
    cases h
    rw [shutdown]
    split
    · exact .of_sockets_eq rfl g.hub.conns.tends_closeAll
    · exact .of_eq rfl rfl
    · exact .of_eq rfl rfl
  | link m =>
    obtain ⟨pool, -, rfl⟩ := Option.map_eq_some_iff.1 h
    exact .of_eq rfl rfl
  | fetchCall i w =>
    obtain ⟨⟨f, pool⟩, -, h⟩ := Option.bind_eq_some_iff.1 h
    simp only at h
    split at h <;> cases h
    · exact .of_eq rfl rfl
    · next kind _ =>
      have hr := undisturbed_runCall { g with pool } hn i w (.received kind f.body) cid
      exact ⟨hr.socket, hr.conn⟩
  | resumeCall i w =>
    obtain ⟨x, -, h⟩ := Option.bind_eq_some_iff.1 h
    split at h
    · split at h <;> cases h
      exact undisturbed_runCall g hn i w _ cid
    · cases h
  | hear k => exact undisturbed_hear hn (other rfl) h
  | heed k => exact undisturbed_heed (other rfl) h
  | resumeListener k =>
    obtain ⟨s, c, -, -, hm⟩ := minds_resumeListener h
    exact hm.undisturbed (other rfl)
  | takeMessage k => exact undisturbed_takeMessage hn (other rfl) h
  | ping k | sayFarewell k =>
    obtain ⟨⟨s, c⟩, -, h⟩ := Option.bind_eq_some_iff.1 h
    simp only at h
    split at h <;> cases h
    exact (Undisturbed.of_eq rfl rfl).modifySocket (other rfl) _
  | written k =>
    obtain ⟨⟨s, c⟩, -, h⟩ := Option.bind_eq_some_iff.1 h
    simp only at h
    split at h <;> cases h
    · exact (Undisturbed.of_eq rfl rfl).modifySocket (other rfl) _
    · exact g.undisturbed_endSpeaker (other rfl)
  | failWrite k =>
    obtain ⟨⟨s, c⟩, -, h⟩ := Option.bind_eq_some_iff.1 h
    simp only at h
    split at h <;> cases h <;> exact g.undisturbed_endSpeaker (other rfl)
  | giveUp k =>
    obtain ⟨⟨s, c⟩, -, h⟩ := Option.bind_eq_some_iff.1 h
    simp only at h
    split at h
    · split at h <;> cases h
      exact g.undisturbed_endSpeaker (other rfl)
    · split at h <;> cases h
      exact g.undisturbed_endSpeaker (other rfl)
    · cases h
  | closeSocket k =>
    obtain ⟨⟨s, c⟩, -, h⟩ := Option.bind_eq_some_iff.1 h
    simp only at h
    split at h <;> cases h
    exact .of_sockets_eq rfl (g.hub.conns.tends_modify k Connection.gains_close)
  | finishSocket k => exact undisturbed_finishSocket (other rfl) h
  | sendFarewell k =>
    obtain ⟨m, -, h⟩ := Option.bind_eq_some_iff.1 h
    cases h
    exact .of_eq rfl rfl
  | sweepTake | sweepFinish =>
    obtain ⟨sweeper, -, rfl⟩ := Option.map_eq_some_iff.1 h
    exact .of_eq rfl rfl
  | sweepExpire =>
    obtain ⟨⟨sweeper, conns⟩, hs, rfl⟩ := Option.map_eq_some_iff.1 h
    obtain ⟨e, -, he⟩ := Option.map_eq_some_iff.1 hs
    cases he
    exact .of_sockets_eq rfl (g.hub.conns.tends_close e.cid)
  | report =>
    simp only [move?, report] at h
    split at h
    · split at h <;> cases h
      exact .of_eq rfl rfl
    · cases h
  | resumeReporter | stopReporter =>
    simp only [move?, resumeReporter, stopReporter] at h
    split at h
    · split at h <;> cases h
      exact .of_eq rfl rfl
    · cases h
  | drain | complete =>
    obtain ⟨-, h⟩ := Option.ite_none_right_eq_some.1 h
    cases h
    exact .of_eq rfl rfl

/-- What others do in a move can happen to a connection under supervision. -/
theorem run_of_undisturbed (h : g.Undisturbed g' cid) (hx : g.attended? cid = some (s, c)) :
    ∃ t d, g'.attended? cid = some (t, d) ∧
      (s.supervision c).run? (c.befalls d) = some (t.supervision d) := by
  obtain ⟨hs, hc⟩ := attended?_eq_some_iff.1 hx
  obtain ⟨t, ht, hl, hsp, hh, hf⟩ := h.socket s hs
  have hd := h.conn
  rw [hc] at hd
  generalize hy : g'.hub.conns.find? cid = y at hd
  cases hd with
  | some hd =>
    refine ⟨t, _, attended?_eq_some_iff.2 ⟨ht, hy⟩, ?_⟩
    rw [Socket.supervision, Socket.supervision, hl, hsp, hh, hf]
    exact Supervision.run_befalls (s := s.supervision c) rfl hd

end Gateway

end EdgeGateway
