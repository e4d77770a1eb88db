import EdgeGateway.Gateway.Run
import EdgeGateway.Proofs.Connection.Registry
import EdgeGateway.Proofs.Link.Calls
import Mathlib.Logic.Relation

/-!
# What a move does to the shared tables

Only two kinds of moves matter to the routes: the handling of a message of the backend, and the end
of a connection. All others come down to a few kinds of operations on single connections, on the
rooms and on the queue of evictions. `effect_of_move?` says so once and for all moves; what holds of
the tables in every run is shown for these kinds alone.
-/

namespace EdgeGateway

/-- What happens to a connection, apart from its being given a session and being let go. -/
inductive Connection.Act (c : Connection) : Connection → Prop
  /-- A message is queued for the client, if it can be. -/
  | post (m : Message) : Act c (c.post m)
  /-- The speaker takes a message off the queue. -/
  | pop {m : Message} {d : Connection} : c.pop = some (m, d) → Act c d
  | close : Act c c.close
  /-- The speaker ends. -/
  | abandon : Act c c.abandon
  /-- The client asks for a session. -/
  | request {d : Connection} : c.transition [.ready, .check] .check = some d → Act c d
  /-- The client has ended its session. -/
  | logout : Act c (c.setStatus .logout)
  /-- The backend or a newer connection has ended the session. -/
  | kick : Act c (c.setStatus .kick)

/-- Sending is one of the things that may happen to a connection at any time. -/
theorem Connection.Act.send {c d : Connection} {m : Message} (h : c.send m = .ok d) : c.Act d := by
  have hd : c.post m = d := by rw [Connection.post, h]
  rw [← hd]
  exact .post m

private theorem Connection.Act.keeps {c d : Connection} (h : c.Act d) : c.Keeps d := by
  cases h with
  | post m => exact keeps_post c m
  | pop h => exact keeps_of_pop h
  | close => exact keeps_close c
  | abandon => exact keeps_abandon c
  | request h => exact keeps_of_request h
  | logout => exact keeps_logout c
  | kick => exact keeps_kick c

namespace Hub

/-- What happens to the tables, apart from routes, new members of rooms and the connections that are
given a session or let go. -/
inductive Change (h : Hub) : Hub → Prop
  | conn {cid : UInt64} {c d : Connection} :
    h.conns.find? cid = some c → Connection.Act c d → Change h (h.modifyConn cid fun _ ↦ d)
  /-- A client connects, and gets a number that nobody had. -/
  | connect (capacity : Nat) : h.conns.next ≠ 0 →
    Change h { h with conns := (h.conns.create capacity).2.register h.conns.next }
  /-- A session leaves a room. -/
  | leaveRoom (rid sid : UInt64) : Change h { h with rooms := (h.rooms.quit rid sid).2 }
  /-- Time passes, evictions are queued and served, and the ends of sessions are passed on. A queue
  of evictions that is closed stays so. -/
  | rest (now : Nat) (sweeper : Sweeper) (farewells : List Message) :
    (h.sweeper.queue.closed = true → sweeper.queue.closed = true) →
    Change h { h with now, sweeper, farewells }

/-- Another task leaves the routes alone. -/
theorem Change.router {h h' : Hub} (hc : h.Change h') : h'.router = h.router := by
  cases hc <;> rfl

/-- Another task keeps connections under their numbers. -/
theorem Change.numbered {h h' : Hub} (hn : h.conns.Numbered) (hc : h.Change h') :
    h'.conns.Numbered := by
  cases hc with
  | conn hf ha => exact hn.modify hf ha.keeps.grows
  | connect capacity hx => exact hn.connect hx capacity
  | leaveRoom rid sid => exact hn
  | rest now sweeper farewells hq => exact hn

/-- Connections keep what they have, and new ones have nothing. -/
theorem Change.evolves {h h' : Hub} (hn : h.conns.Numbered) (hc : h.Change h') :
    h.conns.Evolves Connection.Keeps h'.conns := by
  cases hc with
  | conn hf ha => exact Connections.evolves_modify .refl hf ha.keeps
  | connect capacity hx => exact Connections.evolves_connect .refl hn hx capacity
  | leaveRoom rid sid => exact .refl .refl _
  | rest now sweeper farewells hq => exact .refl .refl _

/-- What can be reached still can. -/
theorem Change.isLive {h h' : Hub} (hc : h.Change h') {cid : UInt64}
    (hl : h.conns.isLive cid = true) : h'.conns.isLive cid = true := by
  cases hc with
  | connect capacity hx =>
    show ((h.conns.create capacity).2.register h.conns.next).isLive cid = true
    rw [Connections.isLive_register, Bool.or_eq_true]
    exact .inr hl
  | conn hf ha => exact hl
  | leaveRoom rid sid => exact hl
  | rest now sweeper farewells hq => exact hl

/-- Any number of changes, one after the other. -/
abbrev Changes : Hub → Hub → Prop := Relation.ReflTransGen Change

private theorem Changes.conn {h : Hub} {cid : UInt64} {c d : Connection}
    (hc : h.conns.find? cid = some c) (ha : Connection.Act c d) :
    h.Changes (h.modifyConn cid fun _ ↦ d) := .single (.conn hc ha)

/-- What is done to a connection with a given number, if there is one. -/
theorem changes_modifyConn (h : Hub) (cid : UInt64) {f : Connection → Connection}
    (hf : ∀ c : Connection, c.Act (f c)) : h.Changes (h.modifyConn cid f) := by
  cases hc : h.conns.find? cid with
  | none =>
    rw [modifyConn, Connections.modify_of_find?_eq_none hc]
  | some c =>
    rw [modifyConn, Connections.modify_of_find?_eq_some hc]
    exact .conn hc (hf c)

/-- What is done to a connection at hand, which is then put back. -/
theorem changes_store {h : Hub} (hn : h.conns.Numbered) {cid : UInt64} {c d : Connection}
    (hc : h.conns.find? cid = some c) (ha : c.Act d) :
    h.Changes { h with conns := h.conns.store d } := by
  have hd : d.cid = cid := ha.keeps.cid.trans (hn.cid_eq cid c hc)
  rw [Connections.store, hd]
  exact .conn hc ha

private theorem changes_rest (h : Hub) (now : Nat) (sweeper : Sweeper) (farewells : List Message)
    (hq : h.sweeper.queue.closed = true → sweeper.queue.closed = true) :
    h.Changes { h with now, sweeper, farewells } := .single (.rest now sweeper farewells hq)

/-- Queuing a message is something that any task does. -/
theorem changes_post (h : Hub) (cid : UInt64) (m : Message) : h.Changes (h.post cid m) :=
  h.changes_modifyConn cid fun _ ↦ .post m

private theorem changes_closeAll (h : Hub) : h.Changes { h with conns := h.conns.closeAll.2 } := by
  refine Connections.closeAll_induction (P := fun u ↦ h.Changes { h with conns := u }) .refl ?_
  intro u cid hu
  exact hu.trans (changes_modifyConn { h with conns := u } cid fun _ ↦ .close)

/-- Giving notice to a connection is something that any task does. -/
theorem changes_evict (h : Hub) (cid : UInt64) : h.Changes (h.evict cid).2 := by
  refine h.changes_rest h.now (h.evict cid).2.sweeper h.farewells ?_
  intro hq
  simp only [evict, Sweeper.push, Sweeper.pushAt, Channel.send]
  split <;> exact hq

end Hub

namespace Gateway

/-- The tables change in none of the ways that matter to the routes, and no worker gets a call. -/
structure Routine (g g' : Gateway) : Prop where
  tables : g.hub.Changes g'.hub
  calls : ∀ P, g.pool.Calls P → g'.pool.Calls P

/-- What a move can come to. -/
inductive Effect (g : Gateway) : Move → Gateway → Prop
  | routine {m : Move} {g' : Gateway} : g.Routine g' → Effect g m g'
  /-- A worker handles a frame that it has just taken. -/
  | fetch {i w : Nat} {f : Frame} {pool : Pool Downlink} {kind : DownlinkKind} :
    g.pool.fetchInbound i w = some (f, pool) → downlinkCommands.lookup f.cmd = some kind →
    Effect g (.fetchCall i w) ({ g with pool }.runCall i w (.received kind f.body))
  /-- A worker that had to wait goes on. -/
  | resume {i w : Nat} {d : Downlink} : g.pool.worker? i w = some (.busy d) →
    Effect g (.resumeCall i w) (g.runCall i w d)
  /-- A connection that is closed is let go. -/
  | finish {cid : UInt64} {c : Connection} {g' : Gateway} :
    g.hub.conns.find? cid = some c → c.closed = true → g'.hub = Closing.run g.hub cid →
    g'.pool = g.pool → Effect g (.finishSocket cid) g'

variable {g g' : Gateway}

private theorem Routine.of_links (hh : g.hub.Changes g'.hub) (hl : g'.pool.links = g.pool.links) :
    g.Routine g' := by
  refine ⟨hh, ?_⟩
  intro P hp
  rw [Pool.Calls, hl]
  exact hp

private theorem Routine.of_eq (hh : g'.hub = g.hub)
    (hl : g'.pool.links = g.pool.links) : g.Routine g' := by
  apply Routine.of_links _ hl
  rw [hh]

/-- Doing nothing is routine. -/
theorem Routine.refl (g : Gateway) : g.Routine g := .of_eq rfl rfl

/-- Routine after routine is routine. -/
theorem Routine.trans {g'' : Gateway} (h : g.Routine g') (k : g'.Routine g'') : g.Routine g'' :=
  ⟨h.tables.trans k.tables, fun P hp ↦ k.calls P (h.calls P hp)⟩

/-- The socket of a connection that is not finished, and the connection. -/
theorem socket?_eq_some_iff {cid : UInt64} {s : Socket} {c : Connection} :
    g.socket? cid = some (s, c) ↔
      g.sockets.get? cid = some s ∧ g.hub.conns.find? cid = some c ∧ s.finished = false := by
  constructor
  · intro h
    obtain ⟨s', hs, h⟩ := Option.bind_eq_some_iff.1 h
    obtain ⟨c', hc, h⟩ := Option.bind_eq_some_iff.1 h
    split at h
    · cases h
    · next hf =>
      cases h
      exact ⟨hs, hc, Bool.eq_false_iff.2 hf⟩
  · rintro ⟨hs, hc, hf⟩
    simp [socket?, hs, hc, hf]

/-! ### The listener -/

private theorem routine_afterForward (g : Gateway) (cid : UInt64) (after : AfterForward) :
    g.Routine (g.afterForward cid after) := by
  cases after with
  | proceed => exact .of_eq rfl rfl
  | logOut =>
    refine .of_links ?_ rfl
    exact (g.hub.changes_modifyConn cid fun _ ↦ .logout).trans
      ((g.hub.modifyConn cid fun c ↦ c.setStatus .logout).changes_evict cid)

private theorem routine_forward (g : Gateway) (cid : UInt64) (m : Message) (after : AfterForward) :
    g.Routine (g.forward cid m after) := by
  have hs : g.Routine { g with pool := (g.pool.send (g.pool.frame m.cmd m.bytes)).2 } :=
    .of_eq rfl rfl
  simp only [forward]
  split
  · exact hs.trans (routine_afterForward _ cid after)
  · exact hs.trans (.of_eq rfl rfl)

/-- Handling a message of a client does nothing to the tables that matters to the routes. -/
theorem changes_handle {h : Hub} (hn : h.conns.Numbered) {cid : UInt64} {c : Connection}
    (hc : h.conns.find? cid = some c) (m : Message) : h.Changes (Uplink.handle h c m).1 := by
  have reject : ∀ sid reason, h.Changes (Uplink.reject h c sid reason).1 := by
    intro sid reason
    simp only [Uplink.reject]
    split
    · next hs => exact Hub.changes_store hn hc (.send hs)
    · exact .refl
  simp only [Uplink.handle]
  split
  · exact .refl
  · simp only [Uplink.online]
    split
    · exact .refl
    · split
      · exact reject _ _
      · split
        · exact reject _ _
        · split
          · exact .refl
          · next hr => exact Hub.changes_store hn hc (.request hr)
  · simp only [Uplink.offline]
    split <;> exact .refl
  · simp only [Uplink.transit]
    split <;> exact .refl
  · simp only [Uplink.quitRoom]
    split
    · exact .refl
    · split
      · exact .refl
      · exact .single (.leaveRoom _ _)

private theorem routine_onMessage {g : Gateway} (hn : g.hub.conns.Numbered) {cid : UInt64}
    {c : Connection} (hc : g.hub.conns.find? cid = some c) (m : Message) :
    g.Routine (g.onMessage cid c m) := by
  have hh : g.Routine { g with hub := (Uplink.handle g.hub c m).1 } :=
    .of_links (changes_handle hn hc m) rfl
  simp only [onMessage]
  split
  · next hu =>
    rw [hu] at hh
    exact hh
  · next hu =>
    rw [hu] at hh
    exact hh
  · next hu =>
    rw [hu] at hh
    exact hh.trans (.of_eq rfl rfl)
  · next hu =>
    rw [hu] at hh
    exact hh.trans (routine_forward { g with hub := _ } cid _ _)

private theorem routine_hear (hn : g.hub.conns.Numbered) {cid : UInt64} (h : g.hear cid = some g') :
    g.Routine g' := by
  obtain ⟨⟨s, c⟩, hs, h⟩ := Option.bind_eq_some_iff.1 h
  obtain ⟨_, hc, _⟩ := socket?_eq_some_iff.1 hs
  simp only at h
  split at h
  · next e inbox _ _ =>
    have hi : g.Routine (g.modifySocket cid fun s ↦ { s with inbox }) := .of_eq rfl rfl
    split at h
    · cases h
      exact hi
    · split at h
      · cases h
        exact hi.trans (routine_onMessage (g := g.modifySocket cid _) hn hc _)
      · cases h
        exact hi.trans (.of_eq rfl rfl)
    · cases h
      exact hi.trans (.of_eq rfl rfl)
    · cases h
      exact hi.trans (.of_eq rfl rfl)
  · cases h

private theorem routine_heed {cid : UInt64} (h : g.heed cid = some g') : g.Routine g' := by
  obtain ⟨⟨s, c⟩, -, h⟩ := Option.bind_eq_some_iff.1 h
  simp only at h
  split at h <;> cases h
  exact .of_eq rfl rfl

private theorem routine_resumeListener {cid : UInt64} (h : g.resumeListener cid = some g') :
    g.Routine g' := by
  obtain ⟨⟨s, c⟩, -, h⟩ := Option.bind_eq_some_iff.1 h
  simp only at h
  split at h
  · split at h <;> cases h
    exact routine_afterForward g cid _
  · split at h <;> cases h
    exact .of_eq rfl rfl
  · cases h

/-! ### The speaker -/

private theorem routine_endSpeaker (g : Gateway) (cid : UInt64) : g.Routine (g.endSpeaker cid) :=
  .of_links (g.hub.changes_modifyConn cid fun _ ↦ .abandon) rfl

private theorem routine_takeMessage (hn : g.hub.conns.Numbered) {cid : UInt64}
    (h : g.takeMessage cid = some g') : g.Routine g' := by
  obtain ⟨⟨s, c⟩, hs, h⟩ := Option.bind_eq_some_iff.1 h
  obtain ⟨_, hc, _⟩ := socket?_eq_some_iff.1 hs
  simp only at h
  split at h
  · cases h
  · obtain ⟨⟨m, d⟩, hp, h⟩ := Option.bind_eq_some_iff.1 h
    cases h
    exact .of_links (Hub.changes_store hn hc (.pop hp)) rfl

private theorem routine_ping {cid : UInt64} (h : g.ping cid = some g') : g.Routine g' := by
  obtain ⟨⟨s, c⟩, -, h⟩ := Option.bind_eq_some_iff.1 h
  simp only at h
  split at h <;> cases h
  exact .of_eq rfl rfl

private theorem routine_sayFarewell {cid : UInt64}
    (h : g.sayFarewell cid = some g') : g.Routine g' := by
  obtain ⟨⟨s, c⟩, -, h⟩ := Option.bind_eq_some_iff.1 h
  simp only at h
  split at h <;> cases h
  exact .of_eq rfl rfl

private theorem routine_written {cid : UInt64} (h : g.written cid = some g') : g.Routine g' := by
  obtain ⟨⟨s, c⟩, -, h⟩ := Option.bind_eq_some_iff.1 h
  simp only at h
  split at h <;> cases h
  · exact .of_eq rfl rfl
  · exact routine_endSpeaker g cid

private theorem routine_failWrite {cid : UInt64}
    (h : g.failWrite cid = some g') : g.Routine g' := by
  obtain ⟨⟨s, c⟩, -, h⟩ := Option.bind_eq_some_iff.1 h
  simp only at h
  split at h <;> cases h <;> exact routine_endSpeaker g cid

private theorem routine_giveUp {cid : UInt64} (h : g.giveUp cid = some g') : g.Routine g' := by
  obtain ⟨⟨s, c⟩, -, h⟩ := Option.bind_eq_some_iff.1 h
  simp only at h
  split at h
  · split at h <;> cases h
    exact routine_endSpeaker g cid
  · split at h <;> cases h
    exact routine_endSpeaker g cid
  · cases h

/-! ### Connections come and go -/

private theorem routine_open? {cid : UInt64} (hn : g.hub.conns.next ≠ 0)
    (h : g.open? = some (cid, g')) : g.Routine g' := by
  simp only [open?] at h
  split at h <;> cases h
  exact .of_links (.single (.connect g.settings.sendCapacity hn)) rfl

private theorem routine_closeSocket {cid : UInt64}
    (h : g.closeSocket cid = some g') : g.Routine g' := by
  obtain ⟨⟨s, c⟩, -, h⟩ := Option.bind_eq_some_iff.1 h
  simp only at h
  split at h <;> cases h
  exact .of_links (g.hub.changes_modifyConn cid fun _ ↦ .close) rfl

private theorem effect_of_finishSocket {cid : UInt64} (h : g.finishSocket cid = some g') :
    Effect g (.finishSocket cid) g' := by
  obtain ⟨⟨s, c⟩, hs, h⟩ := Option.bind_eq_some_iff.1 h
  obtain ⟨_, hc, _⟩ := socket?_eq_some_iff.1 hs
  simp only at h
  split at h <;> cases h
  next ha => exact .finish hc ha.2 rfl rfl

private theorem routine_start (g : Gateway) (address : SocketAddress) :
    g.Routine (g.start address) := by
  rw [start]
  split
  · refine ⟨g.hub.changes_rest _ g.hub.sweeper.start _ ?_,
      fun P hp ↦ Pool.calls_launch hp g.now⟩
    intro hq
    rw [Sweeper.start]
    split <;> exact hq
  · exact .refl g

private theorem links_signal (p : Pool Downlink) : p.signal.links = p.links := by
  rw [Pool.signal]
  split <;> rfl

private theorem routine_shutdown (g : Gateway) : g.Routine g.shutdown := by
  simp only [shutdown]
  split
  · refine .of_links (g.hub.changes_closeAll.trans (Hub.changes_rest _ _ _ _ ?_)) rfl
    intro hq
    rw [Sweeper.signal]
    split <;> exact hq
  · exact .of_eq rfl (links_signal _)
  · exact .refl g

/-! ### Evictions -/

private theorem routine_sweepTake (h : g.sweepTake = some g') : g.Routine g' := by
  obtain ⟨sweeper, hs, rfl⟩ := Option.map_eq_some_iff.1 h
  refine .of_links (g.hub.changes_rest _ sweeper _ ?_) rfl
  intro hq
  simp only [Sweeper.take?] at hs
  split at hs
  · obtain ⟨⟨e, q⟩, hr, rfl⟩ := Option.map_eq_some_iff.1 hs
    exact (Channel.closed_of_receive hr).trans hq
  · cases hs

private theorem routine_sweepExpire (h : g.sweepExpire = some g') : g.Routine g' := by
  obtain ⟨⟨sweeper, conns⟩, hs, rfl⟩ := Option.map_eq_some_iff.1 h
  obtain ⟨e, -, he⟩ := Option.map_eq_some_iff.1 hs
  cases he
  have hclose : g.hub.Changes { g.hub with conns := (g.hub.conns.close e.cid).2 } := by
    rw [Connections.close]
    split
    · exact g.hub.changes_modifyConn e.cid fun _ ↦ .close
    · exact .refl
  exact .of_links (hclose.trans (Hub.changes_rest _ _ _ _ id)) rfl

private theorem routine_sweepFinish (h : g.sweepFinish = some g') : g.Routine g' := by
  obtain ⟨sweeper, hs, rfl⟩ := Option.map_eq_some_iff.1 h
  refine .of_links (g.hub.changes_rest _ sweeper _ ?_) rfl
  intro _
  simp only [Sweeper.finish?] at hs
  split at hs <;> cases hs
  rfl

/-! ### The other tasks of the gateway -/

private theorem routine_sendFarewell {k : Nat} (h : g.sendFarewell k = some g') : g.Routine g' := by
  obtain ⟨m, -, h⟩ := Option.bind_eq_some_iff.1 h
  cases h
  exact .of_links (g.hub.changes_rest _ _ _ id) rfl

private theorem routine_report (h : g.report = some g') : g.Routine g' := by
  rw [report] at h
  split at h
  · split at h <;> cases h
    exact .of_eq rfl rfl
  · cases h

private theorem routine_resumeReporter (h : g.resumeReporter = some g') : g.Routine g' := by
  rw [resumeReporter] at h
  split at h
  · split at h <;> cases h
    exact .of_eq rfl rfl
  · cases h

private theorem routine_stopReporter (h : g.stopReporter = some g') : g.Routine g' := by
  rw [stopReporter] at h
  split at h
  · split at h <;> cases h
    exact .of_eq rfl rfl
  · cases h

private theorem routine_drain (h : g.drain = some g') : g.Routine g' := by
  rw [drain] at h
  split at h <;> cases h
  exact .of_eq rfl (links_signal _)

private theorem routine_complete (h : g.complete = some g') : g.Routine g' := by
  rw [complete] at h
  split at h <;> cases h
  exact .of_eq rfl rfl

/-! ### The workers -/

/-- The tables are left as the handling leaves them. -/
theorem hub_runCall (g : Gateway) (i w : Nat) (d : Downlink) :
    (g.runCall i w d).hub = (d.run g.hub).1 := by
  rw [runCall]
  split <;> next hr => rw [hr]

private theorem effect_of_fetchCall {i w : Nat} (h : g.fetchCall i w = some g') :
    Effect g (.fetchCall i w) g' := by
  obtain ⟨⟨f, pool⟩, hf, h⟩ := Option.bind_eq_some_iff.1 h
  simp only at h
  split at h
  · cases h
    exact .routine ⟨.refl, fun P hp ↦ Pool.Calls.fetchInbound hp hf⟩
  · next kind hk =>
    cases h
    exact .fetch hf hk

private theorem effect_of_resumeCall {i w : Nat} (h : g.resumeCall i w = some g') :
    Effect g (.resumeCall i w) g' := by
  obtain ⟨x, hx, h⟩ := Option.bind_eq_some_iff.1 h
  split at h
  · split at h <;> cases h
    exact .resume hx
  · cases h

/-- What a move comes to, if numbers are left for the connections that it opens. -/
theorem effect_of_move? {m : Move} (hn : g.hub.conns.Numbered)
    (hc : m = .connect → g.hub.conns.next ≠ 0) (h : g.move? m = some g') : Effect g m g' := by
  cases m with
  | start address =>
    cases h
    exact .routine (g.routine_start address)
  | wait ms =>
    cases h
    exact .routine (.of_links (g.hub.changes_rest _ _ _ id) rfl)
  | connect =>
    obtain ⟨⟨cid, k⟩, ho, rfl⟩ := Option.map_eq_some_iff.1 h
    exact .routine (routine_open? (hc rfl) ho)
  | say cid e =>
    cases h
    exact .routine (.of_eq rfl rfl)
  | shutdown =>
    cases h
    exact .routine g.routine_shutdown
  | backendSays wire b =>
    cases h
    exact .routine (.of_eq rfl rfl)
  | backendEnds wire =>
    cases h
    exact .routine (.of_eq rfl rfl)
  | link m =>
    obtain ⟨pool, hp, rfl⟩ := Option.map_eq_some_iff.1 h
    exact .routine ⟨.refl, fun P hc ↦ Pool.Calls.move hc hp⟩
  | fetchCall i w => exact effect_of_fetchCall h
  | resumeCall i w => exact effect_of_resumeCall h
  | hear cid => exact .routine (routine_hear hn h)
  | heed cid => exact .routine (routine_heed h)
  | resumeListener cid => exact .routine (routine_resumeListener h)
  | takeMessage cid => exact .routine (routine_takeMessage hn h)
  | ping cid => exact .routine (routine_ping h)
  | sayFarewell cid => exact .routine (routine_sayFarewell h)
  | written cid => exact .routine (routine_written h)
  | failWrite cid => exact .routine (routine_failWrite h)
  | giveUp cid => exact .routine (routine_giveUp h)
  | closeSocket cid => exact .routine (routine_closeSocket h)
  | finishSocket cid => exact effect_of_finishSocket h
  | sendFarewell k => exact .routine (routine_sendFarewell h)
  | sweepTake => exact .routine (routine_sweepTake h)
  | sweepExpire => exact .routine (routine_sweepExpire h)
  | sweepFinish => exact .routine (routine_sweepFinish h)
  | report => exact .routine (routine_report h)
  | resumeReporter => exact .routine (routine_resumeReporter h)
  | stopReporter => exact .routine (routine_stopReporter h)
  | drain => exact .routine (routine_drain h)
  | complete => exact .routine (routine_complete h)

end Gateway

end EdgeGateway
