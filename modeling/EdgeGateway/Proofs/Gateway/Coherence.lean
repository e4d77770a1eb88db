import EdgeGateway.Proofs.Gateway.Handling
import EdgeGateway.Proofs.Session.Membership

/-!
# Coherent tables

Who carries a session is written down in three places: the routes, the connections themselves, and
the records of the sessions that are in rooms. The tables are coherent if the three agree. A task
that works on them may leave one thing at a time out of step; `Slack` names what, and each operation
is shown to set right what the one before it left.
-/

namespace EdgeGateway.Hub

/-- What is out of step while a task is at work. -/
structure Slack where
  /-- A connection that may be logged on without being routed. -/
  loose : Option UInt64 := none
  /-- A session whose record may name another connection than its route. -/
  astray : Option UInt64 := none
  /-- A connection that may be routed without being registered. -/
  gone : Option UInt64 := none

/-- Routes, connections and records agree on who carries which session, but for a given slack. -/
structure CoherentBut (h : Hub) (s : Slack) : Prop where
  numbered : h.conns.Numbered
  mirrored : h.rooms.Mirrored
  owner : ∀ sid cid, h.router.lookup sid = some cid →
    sid ≠ 0 ∧ ∃ c, h.conns.find? cid = some c ∧ c.sid = sid ∧ c.MayOwn
  reachable : ∀ sid cid, h.router.lookup sid = some cid → s.gone ≠ some cid →
    h.conns.isLive cid = true
  routed : ∀ cid c, h.conns.find? cid = some c → c.closed = false → c.status = .logon →
    s.loose ≠ some cid → h.router.lookup c.sid = some cid
  carried : ∀ sid cid, h.rooms.carrier? sid = some cid → s.astray ≠ some sid →
    h.router.lookup sid = some cid

/-- Routes, connections and records agree on who carries which session. -/
abbrev Coherent (h : Hub) : Prop := h.CoherentBut {}

/-- Empty tables are coherent. -/
theorem coherent_empty (nid : UInt32) (shards evictionCapacity evictionDelay : Nat) :
    (empty nid shards evictionCapacity evictionDelay).Coherent := by
  have hr : ∀ sid, (empty nid shards evictionCapacity evictionDelay).router.lookup sid = none :=
    fun sid ↦ Router.lookup_empty shards sid
  refine ⟨Connections.numbered_empty shards, Rooms.mirrored_empty, ?_, ?_, ?_, ?_⟩
  · intro sid cid hl
    rw [hr] at hl
    cases hl
  · intro sid cid hl
    rw [hr] at hl
    cases hl
  · intro cid c hc
    cases hc
  · intro sid cid hc
    cases hc

variable {h h' : Hub} {s : Slack} {cid sid : UInt64}

/-- Coherent tables are so whatever may be out of step. -/
theorem CoherentBut.slacken (hc : h.Coherent) (s : Slack) : h.CoherentBut s :=
  ⟨hc.numbered, hc.mirrored, hc.owner, fun sid cid hl _ ↦ hc.reachable sid cid hl nofun,
    fun cid c hf ho hs _ ↦ hc.routed cid c hf ho hs nofun,
    fun sid cid hl _ ↦ hc.carried sid cid hl nofun⟩

/-- A connection carries no session but its own. -/
theorem CoherentBut.sid_of_lookup (hc : h.CoherentBut s) {c : Connection}
    (hf : h.conns.find? cid = some c) (hl : h.router.lookup sid = some cid) : c.sid = sid := by
  obtain ⟨-, d, hd, hs, -⟩ := hc.owner sid cid hl
  rw [hf] at hd
  cases hd
  exact hs

/-! ### What other tasks do -/

/-- Nobody else makes the two sides of membership differ. -/
theorem Change.mirrored (hm : h.rooms.Mirrored) (hc : h.Change h') : h'.rooms.Mirrored := by
  cases hc with
  | leaveRoom rid sid => exact hm.quit rid sid
  | conn hf ha => exact hm
  | connect capacity hn => exact hm
  | rest now sweeper farewells hq => exact hm

/-- Nobody else lets a session into a room or has another connection carry it. -/
theorem Change.carrier? (hm : h.rooms.Mirrored) (hc : h.Change h')
    (hs : h'.rooms.carrier? sid = some cid) : h.rooms.carrier? sid = some cid := by
  cases hc with
  | leaveRoom rid sid' => exact Rooms.carrier?_of_quit hm hs
  | conn hf ha => exact hs
  | connect capacity hn => exact hs
  | rest now sweeper farewells hq => exact hs

/-- What another task does puts nothing out of step. -/
theorem CoherentBut.change (hc : h.CoherentBut s) (hch : h.Change h') : h'.CoherentBut s := by
  have hr := hch.router
  have he := hch.evolves hc.numbered
  refine ⟨hch.numbered hc.numbered, hch.mirrored hc.mirrored, ?_, ?_, ?_, ?_⟩
  · intro sid cid hl
    rw [hr] at hl
    obtain ⟨h0, c, hf, hs, ho⟩ := hc.owner sid cid hl
    obtain ⟨d, hd, hk⟩ := he.old cid c hf
    exact ⟨h0, d, hd, hk.sid.trans hs, hk.mayOwn ho⟩
  · intro sid cid hl hg
    rw [hr] at hl
    exact hch.isLive (hc.reachable sid cid hl hg)
  · intro cid d hd ho hs hl
    rcases he.new cid d hd with ⟨c, hf, hk⟩ | ⟨-, n, rfl⟩
    · have hopen : c.closed = false := by
        rw [Bool.eq_false_iff]
        intro hcl
        rw [hk.closed hcl] at ho
        cases ho
      rw [hr, hk.sid]
      exact hc.routed cid c hf hopen (hk.logon hs) hl
    · cases hs
  · intro sid cid hs ha
    rw [hr]
    exact hc.carried sid cid (hch.carrier? hc.mirrored hs) ha

/-- Whatever other tasks do puts nothing out of step. -/
theorem CoherentBut.changes (hc : h.CoherentBut s) (hch : h.Changes h') : h'.CoherentBut s := by
  induction hch with
  | refl => exact hc
  | tail _ hch ih => exact ih.change hch

/-! ### Opening a session -/

/-- A connection that has just been given its session. -/
structure Fledgling (h : Hub) (cid sid : UInt64) : Prop where
  coherent : h.CoherentBut { loose := some cid }
  nonzero : sid ≠ 0
  conn : ∃ c, h.conns.find? cid = some c ∧ c.sid = sid ∧ c.MayOwn ∧ c.closed = false
  unrouted : ∀ sid, h.router.lookup sid ≠ some cid

/-- A connection that has just been given its session is all that is out of step. -/
theorem Coherent.logon (hc : h.Coherent) {c d : Connection} {uid : UInt64}
    (hf : h.conns.find? cid = some c) (hl : c.logon sid uid = some d) (h0 : sid ≠ 0) :
    Fledgling { h with conns := h.conns.store d } cid sid := by
  obtain ⟨hs, ho, hd⟩ := Connection.logon_eq_some_iff.1 hl
  have hcid : d.cid = cid := by
    rw [hd]
    exact hc.numbered.cid_eq cid c hf
  have hfree : ∀ sid, h.router.lookup sid ≠ some cid := by
    intro sid' hr
    obtain ⟨-, e, he, -, hm⟩ := hc.owner sid' cid hr
    rw [hf] at he
    cases he
    exact hm.not_early (.inr hs)
  have hfind : ∀ k, (h.conns.store d).find? k = if k = cid then some d else h.conns.find? k := by
    intro k
    rw [Connections.store, hcid, Connections.find?_modify, hf]
    rfl
  have hn : (h.conns.store d).Numbered := by
    rw [Connections.store, hcid]
    exact hc.numbered.modify hf (Connection.grows_of_logon hl)
  refine ⟨⟨hn, hc.mirrored, ?_, hc.reachable, ?_, hc.carried⟩, h0,
    ⟨d, ?_, ?_, ?_, ?_⟩, hfree⟩
  · intro sid' k hr
    have hk : k ≠ cid := by
      rintro rfl
      exact hfree sid' hr
    simp only [hfind, if_neg hk]
    exact hc.owner sid' k hr
  · intro k e he hopen hlog hk
    rw [hfind, if_neg (by rintro rfl; exact hk rfl)] at he
    exact hc.routed k e he hopen hlog (Option.some_ne_none k).symm
  · simp only [hfind, if_true]
  · rw [hd]
  · rw [hd]
    exact .inl rfl
  · rw [hd]
    exact ho

/-- The session is routed to its new connection; the one that it leaves is loose, and the record of
the session is still to follow. -/
theorem Fledgling.bind (hc : Fledgling h cid sid) :
    CoherentBut { h with router := (h.router.bind sid cid).2 }
      { loose := (h.router.bind sid cid).1.filter (· ≠ cid), astray := some sid } := by
  obtain ⟨hc, h0, ⟨c, hf, hs, hm, ho⟩, hfree⟩ := hc
  refine ⟨hc.numbered, hc.mirrored, ?_, ?_, ?_, ?_⟩
  · intro sid' k hl
    rw [Router.lookup_bind] at hl
    split at hl
    · next he =>
      cases hl
      subst he
      exact ⟨h0, c, hf, hs, hm⟩
    · exact hc.owner sid' k hl
  · intro sid' k hl _
    rw [Router.lookup_bind] at hl
    split at hl
    · cases hl
      exact hc.numbered.isLive_of_open cid c hf ho
    · exact hc.reachable sid' k hl nofun
  · intro k e he hopen hlog hk
    rw [Router.lookup_bind]
    by_cases hke : k = cid
    · subst hke
      rw [show h.conns.find? k = some e from he] at hf
      cases hf
      rw [if_pos hs]
    · have hr := hc.routed k e he hopen hlog (by rintro ⟨⟩; exact hke rfl)
      split
      · next hsid =>
        refine absurd ?_ hk
        rw [hsid] at hr
        simp only [Router.bind, hr, Option.filter_some, hke, ne_eq, not_false_eq_true, decide_true,
          if_true]
      · exact hr
  · intro sid' k hcar ha
    rw [Router.lookup_bind, if_neg (by rintro rfl; exact ha rfl)]
    exact hc.carried sid' k hcar nofun

/-- The record of a session follows its route. -/
theorem CoherentBut.rebind {loose : Option UInt64}
    (hc : h.CoherentBut { loose, astray := some sid }) (hl : h.router.lookup sid = some cid) :
    CoherentBut { h with rooms := (h.rooms.rebind sid cid).2 } { loose } := by
  refine ⟨hc.numbered, hc.mirrored.rebind sid cid, hc.owner, hc.reachable, hc.routed, ?_⟩
  intro sid' k hcar _
  rw [Rooms.carrier?_rebind] at hcar
  split at hcar
  · next he =>
    obtain ⟨_, -, rfl⟩ := Option.map_eq_some_iff.1 hcar
    rw [he]
    exact hl
  · next hne => exact hc.carried sid' k hcar (by rintro ⟨⟩; exact hne rfl)

/-- Once the connection that lost its session is no longer logged on, all is well. -/
theorem CoherentBut.settle {old : UInt64} (hc : h.CoherentBut { loose := some old })
    (hk : ∀ c, h.conns.find? old = some c → c.closed = false →
      c.status ≠ .logon) : h.Coherent := by
  refine ⟨hc.numbered, hc.mirrored, hc.owner, hc.reachable, ?_, hc.carried⟩
  intro cid c hf ho hs _
  by_cases he : old = cid
  · subst he
    exact absurd hs (hk c hf ho)
  · exact hc.routed cid c hf ho hs (by rintro ⟨⟩; exact he rfl)

/-! ### Entering a room -/

/-- Letting a session into a room by its route keeps the tables coherent. -/
theorem Coherent.join (hc : h.Coherent) (rid : UInt64) (gid : UInt32)
    (hl : h.router.lookup sid = some cid) :
    Coherent { h with rooms := h.rooms.join rid gid sid cid } := by
  refine ⟨hc.numbered, hc.mirrored.join rid gid sid cid, hc.owner, hc.reachable, hc.routed, ?_⟩
  intro sid' k hcar _
  rw [Rooms.carrier?_join] at hcar
  split at hcar
  · next he =>
    cases hcar
    rw [he]
    exact hl
  · exact hc.carried sid' k hcar nofun

/-! ### Letting go of a session -/

/-- A connection that is closed becomes unreachable. -/
theorem Coherent.deregister (hc : h.Coherent) {c : Connection}
    (hf : h.conns.find? cid = some c) (hcl : c.closed = true) :
    CoherentBut { h with conns := h.conns.deregister cid } { gone := some cid } := by
  refine ⟨hc.numbered.deregister hf hcl, hc.mirrored, hc.owner, ?_, hc.routed, hc.carried⟩
  intro sid k hl hg
  rw [Connections.isLive_deregister, Bool.and_eq_true, decide_eq_true_eq]
  refine ⟨?_, hc.reachable sid k hl nofun⟩
  rintro rfl
  exact hg rfl

/-- A route that has been taken away from a closed connection leaves no other to it. -/
theorem CoherentBut.unbind (hc : h.CoherentBut { gone := some cid }) {c : Connection}
    (hf : h.conns.find? cid = some c) (hcl : c.closed = true) (hs : c.sid = sid) :
    CoherentBut { h with router := (h.router.unbind sid cid).2 } { astray := some sid } ∧
      ∀ sid', (h.router.unbind sid cid).2.lookup sid' ≠ some cid := by
  have hfree : ∀ sid', (h.router.unbind sid cid).2.lookup sid' ≠ some cid := by
    intro sid' hl
    rw [Router.lookup_unbind] at hl
    split at hl
    · cases hl
    · next hne =>
      have he := hc.sid_of_lookup hf hl
      rw [hs] at he
      exact hne ⟨he.symm, he ▸ hl⟩
  have hsub : ∀ sid' k, (h.router.unbind sid cid).2.lookup sid' = some k →
      h.router.lookup sid' = some k := by
    intro sid' k hl
    rw [Router.lookup_unbind] at hl
    split at hl
    · cases hl
    · exact hl
  refine ⟨⟨hc.numbered, hc.mirrored, ?_, ?_, ?_, ?_⟩, hfree⟩
  · intro sid' k hl
    exact hc.owner sid' k (hsub sid' k hl)
  · intro sid' k hl _
    refine hc.reachable sid' k (hsub sid' k hl) ?_
    rintro ⟨⟩
    exact hfree sid' hl
  · intro k e he ho hlog _
    have hl := hc.routed k e he ho hlog nofun
    rw [Router.lookup_unbind, if_neg]
    · exact hl
    · rintro ⟨hse, hr⟩
      rw [hse, hr] at hl
      cases hl
      rw [show h.conns.find? cid = some e from he] at hf
      cases hf
      rw [ho] at hcl
      cases hcl
  · intro sid' k hcar ha
    rw [Router.lookup_unbind, if_neg (by rintro ⟨rfl, -⟩; exact ha rfl)]
    exact hc.carried sid' k hcar nofun

/-- A session that has left every room has no record that could be out of step. -/
theorem CoherentBut.removeSession (hc : h.CoherentBut { astray := some sid }) :
    Coherent { h with rooms := (h.rooms.removeSession sid).2 } := by
  refine ⟨hc.numbered, hc.mirrored.removeSession sid, hc.owner, hc.reachable, hc.routed, ?_⟩
  intro sid' k hcar _
  rw [Rooms.carrier?_removeSession hc.mirrored] at hcar
  split at hcar
  · cases hcar
  · next hne => exact hc.carried sid' k hcar (by rintro ⟨⟩; exact hne rfl)

/-- A connection to which no route leads need not be registered. -/
theorem CoherentBut.forget (hc : h.CoherentBut { gone := some cid })
    (hfree : ∀ sid, h.router.lookup sid ≠ some cid) : h.Coherent := by
  refine ⟨hc.numbered, hc.mirrored, hc.owner, ?_, hc.routed, hc.carried⟩
  intro sid k hl _
  refine hc.reachable sid k hl ?_
  rintro ⟨⟩
  exact hfree sid hl

/-- A connection to which no route leads may be marked as gone. -/
theorem Coherent.retire (hc : h.Coherent) (hfree : ∀ sid, h.router.lookup sid ≠ some cid) :
    Coherent (h.modifyConn cid fun c ↦ c.setStatus .close) := by
  cases hf : h.conns.find? cid with
  | none =>
    rw [modifyConn, Connections.modify_of_find?_eq_none hf]
    exact hc
  | some c =>
    have hfind : ∀ k, (h.modifyConn cid fun c ↦ c.setStatus .close).conns.find? k =
        if k = cid then some (c.setStatus .close) else h.conns.find? k := by
      intro k
      rw [modifyConn, Connections.find?_modify, hf]
      rfl
    refine ⟨?_, hc.mirrored, ?_, hc.reachable, ?_, hc.carried⟩
    · rw [modifyConn, Connections.modify_of_find?_eq_some hf]
      exact hc.numbered.modify hf (Connection.follows_retire c).grows
    · intro sid k hl
      have hk : k ≠ cid := by
        rintro rfl
        exact hfree sid hl
      simp only [hfind, if_neg hk]
      exact hc.owner sid k hl
    · intro k e he ho hs _
      rw [hfind] at he
      split at he
      · cases he
        cases hs
      · exact hc.routed k e he ho hs (Option.some_ne_none k).symm

end EdgeGateway.Hub
