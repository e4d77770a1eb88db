import EdgeGateway.Proofs.Gateway.Sweeping

/-!
# Nobody is forgotten

A session that its client, the backend or another connection ends leaves a connection behind that
has to be closed. Its status changes first, and notice is given next; from then on the notice is
queued, waits for room or is pending until the sweeper closes the connection. `Sweeper.Accounts`
says so of the tables, with the one connection that a handler has marked and not given notice yet,
and every operation keeps it as long as the gateway is not shut down; so between the moves nobody is
owed a notice (`ended_noticed`).
-/

namespace EdgeGateway

/-- The session was ended, by the client, by the backend or by another connection. -/
def Connection.Ended (c : Connection) : Prop := c.status = .logout ∨ c.status = .kick

/-- A change by which no session ends and nothing is opened again. -/
structure Connection.Tame (c d : Connection) : Prop where
  cid : d.cid = c.cid
  ended : d.Ended → c.Ended
  closed : c.closed = true → d.closed = true

namespace Connection

variable {c d : Connection}

/-- To queue a message ends no session and opens nothing again. -/
theorem tame_send {m : Message} (h : c.send m = .ok d) : c.Tame d := by
  obtain ⟨-, -, -, rfl⟩ := send_eq_ok_iff.1 h
  exact ⟨rfl, id, id⟩

/-- To try to queue a message ends no session and opens nothing again. -/
theorem tame_post (c : Connection) (m : Message) : c.Tame (c.post m) := by
  rw [post]
  split
  · next h => exact tame_send h
  · exact ⟨rfl, id, id⟩

/-- To take a message off the queue ends no session and opens nothing again. -/
theorem tame_pop {m : Message} (h : c.pop = some (m, d)) : c.Tame d := by
  rw [pop] at h
  split at h <;> cases h
  exact ⟨rfl, id, id⟩

/-- To close a connection ends no session. -/
theorem tame_close (c : Connection) : c.Tame c.close := ⟨rfl, id, fun _ ↦ rfl⟩

/-- To give up the queue ends no session and opens nothing again. -/
theorem tame_abandon (c : Connection) : c.Tame c.abandon := ⟨rfl, id, id⟩

/-- To let a connection go ends no session that has not ended. -/
theorem tame_retire (c : Connection) : c.Tame (c.setStatus .close) := by
  refine ⟨rfl, ?_, id⟩
  rintro (h | h) <;> cases h

/-- To ask for a session ends none. -/
theorem tame_request (h : c.transition [.ready, .check] .check = some d) : c.Tame d := by
  obtain ⟨-, h⟩ := Option.ite_none_right_eq_some.1 h
  cases h
  refine ⟨rfl, ?_, id⟩
  rintro (h | h) <;> cases h

/-- To be given a session ends none. -/
theorem tame_logon {sid uid : UInt64} (h : c.logon sid uid = some d) : c.Tame d := by
  obtain ⟨-, hc, rfl⟩ := logon_eq_some_iff.1 h
  refine ⟨rfl, ?_, id⟩
  rintro (h | h) <;> cases h

end Connection

namespace Sweeper

/-- A notice is queued, waits for room in the queue, or is pending. -/
def Holds (s : Sweeper) (e : Eviction) : Prop :=
  e ∈ s.queue.items ∨ e ∈ s.pending ∨ ∃ ticket, (ticket, e) ∈ s.queue.waiting

/-- A sweeper has the notices in its queue, let in or not, and those that are pending. -/
theorem holds_iff {s : Sweeper} {e : Eviction} :
    s.Holds e ↔ e ∈ s.queue.contents ∨ e ∈ s.pending := by
  simp only [Holds, Channel.contents, List.mem_append, List.mem_map, Prod.exists, exists_eq_right]
  tauto

/-- The sweeper is in a given phase and nobody has told it to end; every notice that it has is due
in time; and every connection that can be reached and whose session was ended is closed or has been
given notice, but for one that is owed a notice. -/
structure Accounts (s : Sweeper) (phase : SweeperPhase) (t : Connections) (now : Nat)
    (owed : Option UInt64) : Prop where
  phase : s.phase = phase
  attended : s.attended = true
  stopping : s.stopping = false
  taking : s.queue.closed = false
  due : ∀ e, s.Holds e → e.deadline ≤ now + s.delay
  cid_eq : ∀ cid c, t.find? cid = some c → c.cid = cid
  noticed : ∀ cid c, t.get? cid = some c → c.Ended →
    c.closed = true ∨ owed = some cid ∨ ∃ e, s.Holds e ∧ e.cid = cid

variable {s s' : Sweeper} {p : SweeperPhase} {t t' : Connections} {now : Nat} {owed : Option UInt64}
  {cid : UInt64}

private theorem accounts_empty (capacity delay shards : Nat) :
    (empty capacity delay).Accounts .unstarted (.empty shards) 0 none where
  phase := rfl
  attended := rfl
  stopping := rfl
  taking := rfl
  due := by
    intro e he
    rw [holds_iff] at he
    rcases he with he | he <;> cases he
  cid_eq := by rintro cid c ⟨⟩
  noticed cid c hc := by
    obtain ⟨-, hc⟩ := Connections.get?_eq_some_iff.1 hc
    cases hc

namespace Accounts

/-- Somebody may be owed a notice though nobody need be. -/
theorem owing (h : s.Accounts p t now none) (owed : Option UInt64) : s.Accounts p t now owed :=
  { h with noticed := fun cid c hc he ↦ (h.noticed cid c hc he).imp_right fun
      | .inl hn => by cases hn
      | .inr he => .inr he }

private theorem of_conns (h : s.Accounts p t now owed)
    (hcid : ∀ cid c, t'.find? cid = some c → c.cid = cid)
    (hget : ∀ cid d, t'.get? cid = some d → d.Ended → d.closed = true ∨ owed = some cid ∨
      ∃ c, t.get? cid = some c ∧ c.Ended ∧ (c.closed = true → d.closed = true)) :
    s.Accounts p t' now owed := by
  refine { h with cid_eq := hcid, noticed := fun cid d hd he ↦ ?_ }
  obtain hc | ho | ⟨c, hc, hec, hcl⟩ := hget cid d hd he
  · exact .inl hc
  · exact .inr (.inl ho)
  · exact (h.noticed cid c hc hec).imp_left hcl

private theorem modify_of (h : s.Accounts p t now owed) {k : UInt64} {f : Connection → Connection}
    (hcid : ∀ c, t.find? k = some c → (f c).cid = c.cid)
    (hf : ∀ c, t.find? k = some c → (f c).Ended →
      owed = some k ∨ c.Ended ∧ (c.closed = true → (f c).closed = true)) :
    s.Accounts p (t.modify k f) now owed := by
  refine h.of_conns ?_ ?_
  · intro cid d hd
    rw [Connections.find?_modify] at hd
    split at hd
    · next hk =>
      obtain ⟨c, hc, rfl⟩ := Option.map_eq_some_iff.1 hd
      rw [hcid c hc, h.cid_eq k c hc, hk]
    · exact h.cid_eq cid d hd
  · intro cid d hd he
    obtain ⟨hl, hd⟩ := Connections.get?_eq_some_iff.1 hd
    rw [Connections.find?_modify] at hd
    split at hd
    · next hk =>
      obtain ⟨c, hc, rfl⟩ := Option.map_eq_some_iff.1 hd
      rw [hk]
      exact .inr ((hf c hc he).imp_right fun hx ↦
        ⟨c, Connections.get?_eq_some_iff.2 ⟨hk ▸ hl, hc⟩, hx⟩)
    · exact .inr (.inr ⟨d, Connections.get?_eq_some_iff.2 ⟨hl, hd⟩, he, id⟩)

/-- A tame change of one connection keeps the account. -/
theorem modify (h : s.Accounts p t now owed) (k : UInt64) {f : Connection → Connection}
    (hf : ∀ c : Connection, c.Tame (f c)) : s.Accounts p (t.modify k f) now owed :=
  h.modify_of (fun c _ ↦ (hf c).cid) fun c _ he ↦ .inr ⟨(hf c).ended he, (hf c).closed⟩

/-- To store a connection that has changed tamely keeps the account. -/
theorem store (h : s.Accounts p t now owed) {k : UInt64} {c d : Connection}
    (hc : t.find? k = some c) (hd : c.Tame d) : s.Accounts p (t.store d) now owed := by
  rw [Connections.store, hd.cid, h.cid_eq k c hc]
  refine h.modify_of ?_ ?_ <;> intro c' hc' <;> rw [hc] at hc' <;> cases hc'
  · exact hd.cid
  · exact fun he ↦ .inr ⟨hd.ended he, hd.closed⟩

/-- Whoever's session is ended is owed a notice. -/
theorem setStatus (h : s.Accounts p t now none) (k : UInt64) (status : Status) :
    s.Accounts p (t.modify k fun c ↦ c.setStatus status) now (some k) :=
  (h.owing (some k)).modify_of (fun _ _ ↦ rfl) fun _ _ _ ↦ .inl rfl

/-- To close a connection keeps the account. -/
theorem close (h : s.Accounts p t now owed) (k : UInt64) : s.Accounts p (t.close k).2 now owed := by
  rw [Connections.close]
  split
  · exact h.modify k Connection.tame_close
  · exact h

/-- A connection that nobody can reach any more need not be given notice. -/
theorem deregister (h : s.Accounts p t now owed) (k : UInt64) :
    s.Accounts p (t.deregister k) now owed := by
  refine h.of_conns h.cid_eq fun cid d hd he ↦ ?_
  obtain ⟨hl, hd⟩ := Connections.get?_eq_some_iff.1 hd
  rw [Connections.isLive_deregister, Bool.and_eq_true] at hl
  exact .inr (.inr ⟨d, Connections.get?_eq_some_iff.2 ⟨hl.2, hd⟩, he, id⟩)

/-- A new connection has no session that could have been ended. -/
theorem connect (h : s.Accounts p t now owed) (capacity : Nat) :
    s.Accounts p ((t.create capacity).2.register t.next) now owed := by
  have hf : ∀ cid, ((t.create capacity).2.register t.next).find? cid =
      if cid = t.next then some (.fresh t.next capacity) else t.find? cid :=
    fun cid ↦ Table.get?_insert t.all t.next cid _
  refine h.of_conns ?_ ?_
  · intro cid c hc
    rw [hf] at hc
    split at hc
    · next hk =>
      cases hc
      exact hk.symm
    · exact h.cid_eq cid c hc
  · intro cid d hd he
    obtain ⟨hl, hd⟩ := Connections.get?_eq_some_iff.1 hd
    rw [hf] at hd
    split at hd
    · cases hd
      rcases he with he | he <;> cases he
    · next hk =>
      rw [Connections.isLive_register, Bool.or_eq_true, decide_eq_true_eq] at hl
      exact .inr (.inr ⟨d, Connections.get?_eq_some_iff.2 ⟨hl.resolve_left hk, hd⟩, he, id⟩)

/-- Time makes nothing late that was not. -/
theorem wait (h : s.Accounts p t now owed) (ms : Nat) : s.Accounts p t (now + ms) owed :=
  { h with due := fun e he ↦ Nat.le_trans (h.due e he) (by omega) }

/-- Whoever is owed a notice is given it. -/
theorem push (h : s.Accounts p t now (some cid)) : (s.push now cid).2.Accounts p t now none := by
  have hq : ∀ e, (s.push now cid).2.Holds e ↔ s.Holds e ∨ e = ⟨cid, now + s.delay⟩ := by
    intro e
    have hm : e ∈ (s.push now cid).2.queue.contents ↔ _ :=
      s.queue.mem_contents_send_iff ⟨cid, now + s.delay⟩ e
    rw [holds_iff, holds_iff, hm]
    exact or_right_comm
  refine { h with taking := (s.queue.closed_send _).trans h.taking, due := ?_, noticed := ?_ }
  · intro e he
    obtain he | rfl := (hq e).1 he
    · exact h.due e he
    · exact Nat.le_refl _
  · intro k c hc he
    obtain hcl | ho | ⟨e, hs, hk⟩ := h.noticed k c hc he
    · exact .inl hcl
    · cases ho
      exact .inr (.inr ⟨_, (hq _).2 (.inr rfl), rfl⟩)
    · exact .inr (.inr ⟨e, (hq e).2 (.inl hs), hk⟩)

/-- A notice that is taken off the queue is pending. -/
theorem take (h : s.Accounts p t now owed) (ht : s.take? = some s') : s'.Accounts p t now owed := by
  obtain ⟨-, ht⟩ := Option.ite_none_right_eq_some.1 ht
  obtain ⟨⟨a, q⟩, hr, rfl⟩ := Option.map_eq_some_iff.1 ht
  have hq : ∀ e, ({ s with queue := q, pending := s.pending ++ [a] } : Sweeper).Holds e ↔
    s.Holds e := by
    intro e
    rw [holds_iff, holds_iff, Channel.contents_of_receive hr]
    simp only [List.mem_append, List.mem_cons, List.not_mem_nil, or_false]
    tauto
  refine { h with
    taking := (Channel.closed_of_receive hr).trans h.taking, due := ?_, noticed := ?_ }
  · exact fun e he ↦ h.due e ((hq e).1 he)
  · intro k c hc he
    exact (h.noticed k c hc he).imp_right
      (·.imp_right fun ⟨e, hs, hk⟩ ↦ ⟨e, (hq e).2 hs, hk⟩)

/-- Whoever's notice is served is closed. -/
theorem expire (h : s.Accounts p t now none) {time : Nat} (he : s.expire? time t = some (s', t')) :
    s'.Accounts p t' now none := by
  obtain ⟨d, -, he⟩ := Option.map_eq_some_iff.1 he
  cases he
  have hq : ∀ e, e ≠ d → s.Holds e →
    ({ s with pending := s.pending.erase d } : Sweeper).Holds e := by
    intro e hne he
    rw [holds_iff] at he ⊢
    exact he.imp_right (List.mem_erase_of_ne hne).2
  refine { h.close d.cid with due := ?_, noticed := ?_ }
  · intro e he
    rw [holds_iff] at he
    exact h.due e (holds_iff.2 (he.imp_right List.mem_of_mem_erase))
  · intro k c hc hec
    obtain hcl | ho | ⟨e, hs, rfl⟩ := (h.close d.cid).noticed k c hc hec
    · exact .inl hcl
    · cases ho
    · by_cases hne : e = d
      · subst hne
        refine .inl ?_
        obtain ⟨hl, hc⟩ := Connections.get?_eq_some_iff.1 hc
        rw [Connections.close] at hl hc
        split at hc
        · rw [Connections.find?_modify, if_pos rfl] at hc
          obtain ⟨c, -, rfl⟩ := Option.map_eq_some_iff.1 hc
          rfl
        · next hdead =>
          rw [if_neg hdead] at hl
          exact absurd hl hdead
      · exact .inr (.inr ⟨e, hq e hne hs, rfl⟩)

/-- A sweeper that nobody has told to end does not end. -/
theorem finish?_eq_none (h : s.Accounts p t now owed) : s.finish? = none := by
  rw [finish?, if_neg]
  rintro ⟨-, hs | hx⟩
  · rw [h.stopping] at hs
    cases hs
  · rw [Exhausted, h.attended] at hx
    cases hx.1

/-- A sweeper that starts keeps the account. -/
theorem start (h : s.Accounts .unstarted t now owed) : s.start.Accounts .running t now owed := by
  rw [Sweeper.start, if_pos ⟨h.phase, h.taking⟩]
  exact { h with phase := rfl }

end Accounts

end Sweeper

/-! ### Handling -/

/-- What `Sweeper.Accounts` says of the tables. -/
def Hub.Accounted (h : Hub) (p : SweeperPhase) (owed : Option UInt64) : Prop :=
  h.sweeper.Accounts p h.conns h.now owed

namespace Downlink

/-- The connection that is marked already and about to be given notice. -/
def owed : Downlink → Option UInt64
  | evict cid _ => some cid
  | _ => none

/-- The connection that is still to be given notice after a step. -/
def Outcome.owed : Outcome → Option UInt64
  | next d => d.owed
  | done _ => none

variable {h h' : Hub} {d : Downlink} {o : Outcome} {p : SweeperPhase}

private theorem accounted_release {r : Release} {o : Option Release} (hh : h.Accounted p none)
    (hs : r.step h = (h', o)) : h'.Accounted p none := by
  cases r <;> simp only [Release.step] at hs
  all_goals repeat' split at hs
  all_goals cases hs
  all_goals exact hh

/-- A step gives the notice that is owed, or leads on to where it is given. -/
theorem accounted_step (hh : h.Accounted p d.owed) (hs : d.step h = some (h', o)) :
    h'.Accounted p o.owed := by
  cases d with
  | refuse m k =>
    cases hs
    exact (hh.modify k fun c ↦ c.tame_post m).owing _
  | logon m k uid =>
    simp only [step] at hs
    split at hs <;> cases hs
    · next hl =>
      obtain ⟨c, hc, hl⟩ := Option.bind_eq_some_iff.1 hl
      exact hh.store hc (Connection.tame_logon hl)
    · exact hh
  | displace m k old =>
    simp only [step] at hs
    split at hs <;> cases hs
    · exact (hh.modify old fun c ↦ c.tame_post _).setStatus old .kick
    · exact hh.owing _
  | expel m k =>
    cases hs
    exact (hh.setStatus k .kick).modify k fun c ↦ c.tame_post m
  | evict k after =>
    cases hs
    exact hh.push
  | release r =>
    simp only [step] at hs
    split at hs <;> cases hs <;> next hr => exact accounted_release hh hr
  | received kind body =>
    obtain ⟨rfl, ⟨e, rfl⟩ | ⟨m, d, -, -, rfl, hb⟩⟩ := begins_of_received hs
    · exact hh
    · cases hb <;> exact hh
  | fanOut m members =>
    cases members with
    | nil =>
      cases hs
      exact hh
    | cons x members =>
      simp only [step] at hs
      split at hs <;> cases hs
      · exact hh.modify x.2 fun c ↦ c.tame_post _
      · exact hh
  | hand m k =>
    simp only [step] at hs
    split at hs
    · cases hs
      exact hh
    · next c hc =>
      split at hs <;> cases hs
      · next hsend => exact hh.store hc (Connection.tame_send hsend)
      · exact hh
  | _ =>
    simp only [step, behindNotice] at hs
    repeat' split at hs
    all_goals cases hs
    all_goals exact hh

/-- Between the points where a handler waits nobody is owed a notice. -/
theorem accounted_run (hh : h.Accounted p none) (d : Downlink) : (d.run h).1.Accounted p none := by
  refine run_induction (P := fun h d ↦ h.Accounted p d.owed)
    (Q := fun h ↦ h.Accounted p none) ?_
    accounted_step accounted_step (hh.owing _)
  intro h d hh hs
  obtain ⟨ticket, after, rfl⟩ := eq_waiting_of_step_eq_none hs
  exact hh

end Downlink

private theorem Uplink.accounted_handle {h : Hub} {p : SweeperPhase} (hh : h.Accounted p none)
    {k : UInt64} {c : Connection} (hc : h.conns.find? k = some c) (m : Message) :
    (Uplink.handle h c m).1.Accounted p none := by
  have reject : ∀ sid reason, (Uplink.reject h c sid reason).1.Accounted p none := by
    intro sid reason
    rw [Uplink.reject]
    split
    · next hs => exact hh.store hc (Connection.tame_send hs)
    · exact hh
  simp only [handle, online, offline, transit, quitRoom]
  repeat' split
  all_goals first | exact hh | exact reject _ _ | skip
  next hr => exact hh.store hc (Connection.tame_request hr)

/-! ### Moves -/

/-- What the sweeper is doing as long as the gateway is not shut down. -/
def GatewayPhase.sweeper? : GatewayPhase → Option SweeperPhase
  | unstarted => some .unstarted
  | running => some .running
  | _ => none

namespace Gateway

/-- As long as the gateway is not shut down, its sweeper keeps account and nobody is owed a notice.
-/
def Accounted (g : Gateway) : Prop := ∀ p, g.phase.sweeper? = some p → g.hub.Accounted p none

variable {g g' : Gateway} {cid : UInt64} {m : Move}

private theorem Accounted.imp (hg : g.Accounted) (hp : g'.phase = g.phase)
    (hh : ∀ p, g.hub.Accounted p none → g'.hub.Accounted p none) : g'.Accounted := by
  intro p hs
  rw [hp] at hs
  exact hh p (hg p hs)

private theorem Accounted.runCall (hg : g.Accounted) (i w : Nat) (d : Downlink) :
    (g.runCall i w d).Accounted := by
  refine hg.imp ?_ fun p hh ↦ ?_
  · rw [Gateway.runCall]
    split <;> rfl
  · rw [hub_runCall]
    exact Downlink.accounted_run hh d

private theorem Accounted.afterForward (hg : g.Accounted) (cid : UInt64) (after : AfterForward) :
    (g.afterForward cid after).Accounted := by
  cases after with
  | proceed => exact hg
  | logOut => exact hg.imp rfl fun p hh ↦ (hh.setStatus cid .logout).push

private theorem Accounted.forward (hg : g.Accounted) (cid : UInt64) (m : Message)
    (after : AfterForward) : (g.forward cid m after).Accounted := by
  simp only [Gateway.forward]
  split
  · exact Accounted.afterForward (g := { g with pool := (g.pool.send _).2 }) hg cid after
  · exact hg

private theorem Accounted.onMessage (hg : g.Accounted) (cid : UInt64) {c : Connection}
    (hc : g.hub.conns.find? cid = some c) (m : Message) : (g.onMessage cid c m).Accounted := by
  have hu : Accounted { g with hub := (Uplink.handle g.hub c m).1 } :=
    hg.imp rfl fun p hh ↦ Uplink.accounted_handle hh hc m
  simp only [Gateway.onMessage]
  split
  · next hx => rwa [hx] at hu
  · next hx => rwa [hx] at hu
  · next hx => rwa [hx] at hu
  · next hx =>
    rw [hx] at hu
    exact hu.forward cid _ _

private theorem Accounted.hear (hg : g.Accounted) (h : g.hear cid = some g') : g'.Accounted := by
  obtain ⟨s, c, e, inbox, g₁, hs, -, -, rfl, ⟨-, rfl | rfl⟩ | ⟨m, -, -, rfl⟩⟩ :=
    hear_eq h
  · exact hg
  · exact hg
  · obtain ⟨-, hc, -⟩ := socket?_eq_some_iff.1 hs
    exact Accounted.onMessage (g := g.modifySocket cid _) hg cid hc m

private theorem Accounted.resumeListener (hg : g.Accounted) (h : g.resumeListener cid = some g') :
    g'.Accounted := by
  obtain ⟨⟨s, c⟩, -, h⟩ := Option.bind_eq_some_iff.1 h
  simp only at h
  split at h
  · split at h <;> cases h
    exact hg.afterForward cid _
  · split at h <;> cases h
    exact hg
  · cases h

private theorem Accounted.endSpeaker (hg : g.Accounted) (cid : UInt64) :
    (g.endSpeaker cid).Accounted :=
  hg.imp rfl fun _ hh ↦ hh.modify cid Connection.tame_abandon

private theorem Accounted.takeMessage (hg : g.Accounted) (h : g.takeMessage cid = some g') :
    g'.Accounted := by
  obtain ⟨⟨s, c⟩, hs, h⟩ := Option.bind_eq_some_iff.1 h
  obtain ⟨-, hc, -⟩ := socket?_eq_some_iff.1 hs
  simp only at h
  split at h
  · cases h
  · obtain ⟨⟨m, d⟩, hp, h⟩ := Option.bind_eq_some_iff.1 h
    cases h
    exact hg.imp rfl fun _ hh ↦ hh.store hc (Connection.tame_pop hp)

private theorem Accounted.finishSocket (hg : g.Accounted) (h : g.finishSocket cid = some g') :
    g'.Accounted := by
  obtain ⟨⟨s, c⟩, -, h⟩ := Option.bind_eq_some_iff.1 h
  simp only at h
  split at h <;> cases h
  refine hg.imp rfl fun p hh ↦ ?_
  show (Closing.run g.hub cid).Accounted p none
  have hd : ({ g.hub with conns := g.hub.conns.deregister cid } : Hub).Accounted p none :=
    hh.deregister cid
  have hr : (({ g.hub with conns := g.hub.conns.deregister cid } : Hub).released cid).Accounted p
    none := by
    rw [Hub.released]
    split
    · exact hd
    · split <;> exact hd
  rw [Closing.run_eq]
  exact hr.modify cid Connection.tame_retire

/-- Whatever a move does, nobody is owed a notice afterwards. -/
theorem accounted_of_move? (hg : g.Accounted) (h : g.move? m = some g') : g'.Accounted := by
  cases m with
  | start address =>
    cases h
    rw [start]
    split
    · next hp =>
      intro p hs
      cases hs
      exact (hg .unstarted (by rw [hp]; rfl)).start
    · exact hg
  | wait ms =>
    cases h
    exact hg.imp rfl fun _ hh ↦ hh.wait ms
  | connect =>
    obtain ⟨⟨k, g'⟩, ho, rfl⟩ := Option.map_eq_some_iff.1 h
    simp only [open?] at ho
    split at ho <;> cases ho
    exact hg.imp rfl fun _ hh ↦ hh.connect g.settings.sendCapacity
  | say cid e | backendSays wire b | backendEnds wire =>
    cases h
    exact hg
  | shutdown =>
    cases h
    rw [shutdown]
    split
    · rintro p ⟨⟩
    · rintro p ⟨⟩
    · exact hg
  | link m =>
    obtain ⟨pool, -, rfl⟩ := Option.map_eq_some_iff.1 h
    exact hg
  | fetchCall i w =>
    obtain ⟨⟨f, pool⟩, -, h⟩ := Option.bind_eq_some_iff.1 h
    simp only at h
    split at h <;> cases h
    · exact hg
    · exact Accounted.runCall (g := { g with pool }) hg i w _
  | resumeCall i w =>
    obtain ⟨x, -, h⟩ := Option.bind_eq_some_iff.1 h
    split at h
    · split at h <;> cases h
      exact hg.runCall i w _
    · cases h
  | hear cid => exact hg.hear h
  | resumeListener cid => exact hg.resumeListener h
  | takeMessage cid => exact hg.takeMessage h
  | heed cid | ping cid | sayFarewell cid =>
    obtain ⟨⟨s, c⟩, -, h⟩ := Option.bind_eq_some_iff.1 h
    simp only at h
    split at h <;> cases h
    exact hg
  | written cid | failWrite cid | giveUp cid =>
    obtain ⟨⟨s, c⟩, -, h⟩ := Option.bind_eq_some_iff.1 h
    simp only at h
    repeat' split at h
    all_goals cases h
    all_goals first | exact hg | exact hg.endSpeaker cid
  | closeSocket cid =>
    obtain ⟨⟨s, c⟩, -, h⟩ := Option.bind_eq_some_iff.1 h
    simp only at h
    split at h <;> cases h
    exact hg.imp rfl fun _ hh ↦ hh.modify cid Connection.tame_close
  | finishSocket cid => exact hg.finishSocket h
  | sendFarewell k =>
    obtain ⟨w, -, h⟩ := Option.bind_eq_some_iff.1 h
    cases h
    exact hg
  | sweepTake =>
    obtain ⟨sweeper, hs, rfl⟩ := Option.map_eq_some_iff.1 h
    exact hg.imp rfl fun _ hh ↦ hh.take hs
  | sweepExpire =>
    obtain ⟨⟨sweeper, conns⟩, hs, rfl⟩ := Option.map_eq_some_iff.1 h
    exact hg.imp rfl fun _ hh ↦ hh.expire hs
  | sweepFinish =>
    obtain ⟨sweeper, hs, rfl⟩ := Option.map_eq_some_iff.1 h
    intro p hp
    have hnone := (hg p hp).finish?_eq_none
    rw [hs] at hnone
    cases hnone
  | report | resumeReporter | stopReporter =>
    simp only [move?, report, resumeReporter, stopReporter] at h
    repeat' split at h
    all_goals cases h
    all_goals exact hg
  | drain | complete =>
    simp only [move?, drain, complete] at h
    split at h <;> cases h
    rintro p ⟨⟩

/-- In every state of every run every notice that is owed has been given. -/
theorem accounted_of_reachable {s : Settings} (hg : Reachable s g) : g.Accounted := by
  refine hg.invariant (P := Accounted) ?_ fun _ _ _ h hm ↦ accounted_of_move? h hm
  rintro p ⟨⟩
  exact Sweeper.accounts_empty _ _ _

/-- As long as the gateway is not shut down, every connection that can be reached and whose session
was ended is closed, or a notice for it is queued, pending or waiting for room, due in time; and
while the gateway runs, the sweeper does and takes notices. -/
theorem ended_noticed {s : Settings} (hg : Reachable s g)
    (hp : g.phase = .unstarted ∨ g.phase = .running) {c : Connection}
    (hc : g.hub.conns.get? cid = some c) (he : c.status = .logout ∨ c.status = .kick) :
    (c.closed = true ∨ ∃ e : Eviction, e.cid = cid ∧
      e.deadline ≤ g.now + g.hub.sweeper.delay ∧
      (e ∈ g.hub.sweeper.queue.items ∨ e ∈ g.hub.sweeper.pending ∨
        ∃ ticket, (ticket, e) ∈ g.hub.sweeper.queue.waiting)) ∧
    (g.phase = .running → g.hub.sweeper.phase = .running ∧ g.hub.sweeper.stopping = false ∧
      g.hub.sweeper.queue.closed = false) := by
  have ha : g.Accounted := accounted_of_reachable hg
  obtain ⟨p, hs⟩ : ∃ p, g.phase.sweeper? = some p := by
    rcases hp with hp | hp <;> exact ⟨_, by rw [hp]; rfl⟩
  have hh := ha p hs
  refine ⟨(hh.noticed cid c hc he).imp_right ?_, fun hr ↦ ?_⟩
  · rintro (ho | ⟨e, hold, hk⟩)
    · cases ho
    · exact ⟨e, hk, hh.due e hold, hold⟩
  · rw [hr] at hs
    cases hs
    exact ⟨hh.phase, hh.stopping, hh.taking⟩

/-- The queue of evictions has room for one notice. Session 42 goes from connection 1 to connection
2, where the backend ends it: the notice for the second has to wait, and is outstanding all the
same. -/
theorem ended_noticed_waiting :
    ∃ g c, Reachable { Takeover.settings with evictionCapacity := 1 } g ∧ g.phase = .running ∧
      g.hub.conns.get? 2 = some c ∧ c.status = .kick ∧ c.closed = false ∧
      g.hub.sweeper.queue.items.map (·.cid) = [1] ∧
      ∃ e, g.hub.sweeper.Holds e ∧ e.cid = 2 := by
  let moves := Takeover.moves ++ Takeover.handling Takeover.expulsion
  have hview : ((fresh { Takeover.settings with evictionCapacity := 1 }).run? moves).bind (fun g ↦
      (g.hub.conns.get? 2).map fun c ↦
        (g.phase, c.status, c.closed, g.hub.sweeper.queue.items.map (·.cid))) =
      some (.running, .kick, false, [1]) := by decide +kernel
  obtain ⟨g, hrun, hview⟩ := Option.bind_eq_some_iff.1 hview
  obtain ⟨c, hc, hview⟩ := Option.map_eq_some_iff.1 hview
  simp only [Prod.mk.injEq] at hview
  obtain ⟨hp, hs, hopen, hitems⟩ := hview
  have hg : Reachable { Takeover.settings with evictionCapacity := 1 } g := Reachable.fresh.run hrun
  obtain hcl | ⟨e, hk, -, hold⟩ := (ended_noticed hg (.inr hp) hc (.inr hs)).1
  · rw [hopen] at hcl
    cases hcl
  · exact ⟨g, c, hg, hp, hc, hs, hopen, hitems, e, hold, hk⟩

end Gateway

end EdgeGateway
