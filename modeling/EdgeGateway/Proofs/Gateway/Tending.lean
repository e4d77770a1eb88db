import EdgeGateway.Proofs.Gateway.Delivery

/-!
# What others do to a connection

Handlers, workers and the sweeper queue messages for a connection, change its session and close it.
Only its own writer takes messages off its queue or gives the queue up. `Connection.Gains` says so
for one connection and `Connections.Tends` for all of them; `tends_run` and `tends_handle` say that
the handling of messages of either side does no more.
-/

namespace EdgeGateway

namespace Connection

/-- What others can make of a connection: messages that were accepted stand behind those that were
there. -/
structure Gains (c d : Connection) : Prop where
  cid : d.cid = c.cid
  capacity : d.capacity = c.capacity
  abandoned : d.abandoned = c.abandoned
  closed : c.closed = true → d.closed = true
  queue : ∃ ms, d.queue = c.queue ++ ms ∧
    (ms ≠ [] → c.closed = false ∧ c.abandoned = false ∧ d.queue.length ≤ c.capacity)

variable {c d e : Connection}

/-- To do nothing is something others can do. -/
theorem Gains.refl (c : Connection) : c.Gains c :=
  ⟨rfl, rfl, rfl, id, [], (List.append_nil _).symm, nofun⟩

/-- What others can do twice they can do at once. -/
theorem Gains.trans (h : c.Gains d) (k : d.Gains e) : c.Gains e := by
  refine ⟨k.cid.trans h.cid, k.capacity.trans h.capacity, k.abandoned.trans h.abandoned,
    k.closed ∘ h.closed, ?_⟩
  obtain ⟨ms, hms, hroom⟩ := h.queue
  obtain ⟨ns, hns, hroom'⟩ := k.queue
  refine ⟨ms ++ ns, by rw [hns, hms, List.append_assoc], fun hne ↦ ?_⟩
  by_cases hn : ns = []
  · rw [hn, List.append_nil] at hne hns
    rw [hns]
    exact hroom hne
  · obtain ⟨hc, ha, hl⟩ := hroom' hn
    refine ⟨Bool.eq_false_iff.2 fun hx ↦ ?_, h.abandoned ▸ ha, h.capacity ▸ hl⟩
    rw [h.closed hx] at hc
    cases hc

private theorem Gains.of_queue_eq (hcid : d.cid = c.cid) (hcap : d.capacity = c.capacity)
    (ha : d.abandoned = c.abandoned) (hc : c.closed = true → d.closed = true)
    (hq : d.queue = c.queue) : c.Gains d :=
  ⟨hcid, hcap, ha, hc, [], by rw [hq, List.append_nil], nofun⟩

/-- Others can close a connection. -/
theorem gains_close (c : Connection) : c.Gains c.close :=
  .of_queue_eq rfl rfl rfl (fun _ ↦ rfl) rfl

/-- Others can give a connection another status. -/
theorem gains_setStatus (c : Connection) (status : Status) : c.Gains (c.setStatus status) :=
  .of_queue_eq rfl rfl rfl id rfl

/-- Others can take a connection to another status. -/
theorem gains_of_transition {before : List Status} {after : Status}
    (h : c.transition before after = some d) : c.Gains d := by
  obtain ⟨-, h⟩ := Option.ite_none_right_eq_some.1 h
  cases h
  exact c.gains_setStatus after

/-- Others can give a connection its session. -/
theorem gains_of_logon {sid uid : UInt64} (h : c.logon sid uid = some d) : c.Gains d := by
  obtain ⟨-, -, rfl⟩ := logon_eq_some_iff.1 h
  exact .of_queue_eq rfl rfl rfl id rfl

/-- Others can queue a message for a connection. -/
theorem gains_of_send {m : Message} (h : c.send m = .ok d) : c.Gains d := by
  obtain ⟨hc, ha, hl, rfl⟩ := send_eq_ok_iff.1 h
  refine ⟨rfl, rfl, rfl, id, [m], rfl, fun _ ↦ ⟨hc, ha, ?_⟩⟩
  rw [List.length_append]
  exact hl

/-- Others can try to queue a message for a connection. -/
theorem gains_post (c : Connection) (m : Message) : c.Gains (c.post m) := by
  rw [post]
  split
  · next h => exact gains_of_send h
  · exact .refl c

end Connection

namespace Connections

/-- No more is done to any connection than others can do, and there is none more and none fewer. -/
def Tends (t u : Connections) : Prop :=
  ∀ cid, Option.Rel Connection.Gains (t.find? cid) (u.find? cid)

variable {t u : Connections} {cid : UInt64}

/-- To leave all connections alone is something others can do. -/
theorem Tends.refl (t : Connections) : t.Tends t := by
  intro cid
  cases t.find? cid with
  | none => exact .none
  | some c => exact .some (.refl c)

/-- What others can do to all connections twice they can do at once. -/
theorem Tends.trans {v : Connections} (h : t.Tends u) (k : u.Tends v) : t.Tends v := by
  intro cid
  have hc := h cid
  have hd := k cid
  generalize t.find? cid = a, u.find? cid = b, v.find? cid = x at hc hd
  cases hc with
  | none => exact hd
  | some hc =>
    cases hd with
    | some hd => exact .some (hc.trans hd)

/-- Others can do to one connection what they can do to each. -/
theorem tends_modify (t : Connections) (k : UInt64) {f : Connection → Connection}
    (hf : ∀ c : Connection, c.Gains (f c)) : t.Tends (t.modify k f) := by
  intro cid
  rw [find?_modify]
  split
  · next he =>
    rw [he]
    cases t.find? k with
    | none => exact .none
    | some c => exact .some (hf c)
  · exact Tends.refl t cid

/-- Others can store a connection to which they have done what they can. -/
theorem tends_store (ht : t.Numbered) {k : UInt64} {c d : Connection} (hc : t.find? k = some c)
    (hd : c.Gains d) : t.Tends (t.store d) := by
  intro cid
  rw [store, hd.cid, ht.cid_eq k c hc, find?_modify]
  split
  · next he =>
    rw [he, hc]
    exact .some hd
  · exact Tends.refl t cid

/-- Others can close all connections. -/
theorem tends_closeAll (t : Connections) : t.Tends t.closeAll.2 :=
  closeAll_induction (.refl t) fun u cid hu ↦ hu.trans (u.tends_modify cid Connection.gains_close)

/-- Others can close one of the connections. -/
theorem tends_close (t : Connections) (cid : UInt64) : t.Tends (t.close cid).2 := by
  rw [close]
  split
  · exact t.tends_modify cid Connection.gains_close
  · exact .refl t

end Connections

variable {h h' : Hub} {cid : UInt64}

/-- Others can try to queue a message for one of the connections. -/
theorem Hub.tends_post (h : Hub) (k : UInt64) (m : Message) : h.conns.Tends (h.post k m).conns :=
  h.conns.tends_modify k fun c ↦ c.gains_post m

/-- Handling a message of a client does to connections what others can do. -/
theorem Uplink.tends_handle (hn : h.conns.Numbered) {c : Connection}
    (hc : h.conns.find? cid = some c) (m : Message) : h.conns.Tends (handle h c m).1.conns := by
  have reject : ∀ sid reason, h.conns.Tends (Uplink.reject h c sid reason).1.conns := by
    intro sid reason
    rw [Uplink.reject]
    split
    · next hs => exact Connections.tends_store hn hc (Connection.gains_of_send hs)
    · exact .refl _
  rw [handle]
  split
  · exact .refl _
  · rw [online]
    split
    · exact .refl _
    · split
      · exact reject _ _
      · split
        · exact reject _ _
        · split
          · exact .refl _
          · next hr => exact Connections.tends_store hn hc (Connection.gains_of_transition hr)
  · rw [offline]
    split <;> exact .refl _
  · rw [transit]
    split <;> exact .refl _
  · rw [quitRoom]
    split
    · exact .refl _
    · split <;> exact .refl _

namespace Downlink

variable {d : Downlink} {o : Outcome}

private theorem tends_step (hn : h.conns.Numbered) (hs : d.step h = some (h', o)) :
    h.conns.Tends h'.conns := by
  cases d with
  | refuse m k =>
    cases hs
    exact h.tends_post k m
  | logon m k uid =>
    simp only [step] at hs
    split at hs <;> cases hs
    · next hl =>
      obtain ⟨c, hf, hl⟩ := Option.bind_eq_some_iff.1 hl
      exact Connections.tends_store hn hf (Connection.gains_of_logon hl)
    · exact .refl _
  | displace m k old =>
    simp only [step] at hs
    split at hs <;> cases hs
    · exact (h.tends_post old _).trans
        (Connections.tends_modify _ old fun c ↦ c.gains_setStatus .kick)
    · exact .refl _
  | expel m k =>
    cases hs
    exact (h.conns.tends_modify k fun c ↦ c.gains_setStatus .kick).trans
      (Hub.tends_post (h.modifyConn k fun c ↦ c.setStatus .kick) k m)
  | release r =>
    simp only [step] at hs
    split at hs <;> cases hs <;> next hr =>
      rw [Release.conns_step hr]
      exact .refl _
  | fanOut m members =>
    cases members with
    | nil =>
      cases hs
      exact .refl _
    | cons x members =>
      simp only [step] at hs
      split at hs <;> cases hs
      · exact h.tends_post _ _
      · exact .refl _
  | hand m k =>
    simp only [step] at hs
    split at hs
    · cases hs
      exact .refl _
    · next c hc =>
      split at hs <;> cases hs
      · next hsend => exact Connections.tends_store hn hc (Connection.gains_of_send hsend)
      · exact .refl _
  | _ =>
    simp only [step] at hs
    repeat' split at hs
    all_goals cases hs
    all_goals exact .refl _

/-- Handling a message of the backend does to connections what others can do. -/
theorem tends_run (hn : h.conns.Numbered) (d : Downlink) : h.conns.Tends (d.run h).1.conns := by
  refine run_induction (P := fun h' _ ↦ h'.conns.Numbered ∧ h.conns.Tends h'.conns)
    (Q := fun h' ↦ h.conns.Tends h'.conns) (fun hh _ ↦ hh.2) ?_ ?_ ⟨hn, .refl _⟩
  · rintro h h' d d' ⟨hn, ht⟩ hs
    exact ⟨(op_of_step hn hs).numbered hn, ht.trans (tends_step hn hs)⟩
  · rintro h h' d r ⟨hn, ht⟩ hs
    exact ht.trans (tends_step hn hs)

end Downlink

end EdgeGateway
