import EdgeGateway.Proofs.Gateway.Telling

/-!
# What a move does to the parts of a gateway

The sweeper, the links and the tasks of the gateway itself are parts of it that only some moves
touch, each by one of few operations. `parts_of_move?` says so once for all moves and every state,
and what these operations keep is kept by every run.
-/

namespace EdgeGateway

namespace Sweeper

/-- What can happen to the sweeper and its queue. -/
inductive Act (s : Sweeper) : Sweeper → Prop
  | push (now : Nat) (cid : UInt64) : Act s (s.push now cid).2
  | start : Act s s.start
  | signal : Act s s.signal
  | take {s' : Sweeper} : s.take? = some s' → Act s s'
  | expire {s' : Sweeper} {now : Nat} {conns conns' : Connections} :
    s.expire? now conns = some (s', conns') → Act s s'
  | finish {s' : Sweeper} : s.finish? = some s' → Act s s'

/-- Any number of these, one after the other. -/
abbrev Acts : Sweeper → Sweeper → Prop := Relation.ReflTransGen Act

/-- What every operation keeps is kept by any number of them. -/
theorem Acts.kept {P : Sweeper → Prop} {s s' : Sweeper} (h : s.Acts s')
    (kept : ∀ {s s' : Sweeper}, P s → s.Act s' → P s') (hs : P s) : P s' := by
  induction h with
  | refl => exact hs
  | tail _ ha ih => exact kept ih ha

end Sweeper

namespace Downlink

variable {h h' : Hub} {d : Downlink} {o : Outcome}

private theorem sweeper_release {r : Release} {o : Option Release} (hs : r.step h = (h', o)) :
    h'.sweeper = h.sweeper := by
  cases r <;> simp only [Release.step] at hs
  all_goals repeat' split at hs
  all_goals cases hs
  all_goals rfl

/-- A step of a handling leaves the sweeper alone, or gives notice. -/
theorem sweeper_step (hs : d.step h = some (h', o)) : h.sweeper.Acts h'.sweeper := by
  cases d with
  | evict cid after =>
    cases hs
    exact .single (.push h.now cid)
  | release r =>
    simp only [step] at hs
    split at hs <;> cases hs <;> next hr => rw [sweeper_release hr]
  | fanOut m members =>
    cases members with
    | nil =>
      cases hs
      exact .refl
    | cons x members =>
      simp only [step] at hs
      split at hs <;> cases hs <;> exact .refl
  | _ =>
    simp only [step] at hs
    repeat' split at hs
    all_goals cases hs
    all_goals exact .refl

/-- What a handling does to the sweeper is a number of its operations. -/
theorem sweeper_run (h : Hub) (d : Downlink) : h.sweeper.Acts (d.run h).1.sweeper :=
  run_induction (P := fun h' _ ↦ h.sweeper.Acts h'.sweeper)
    (Q := fun h' ↦ h.sweeper.Acts h'.sweeper)
    (fun hh _ ↦ hh) (fun hh hs ↦ hh.trans (sweeper_step hs))
    (fun hh hs ↦ hh.trans (sweeper_step hs)) .refl

end Downlink

private theorem Uplink.sweeper_handle (h : Hub) (c : Connection) (m : Message) :
    (Uplink.handle h c m).1.sweeper = h.sweeper := by
  have reject : ∀ sid reason, (Uplink.reject h c sid reason).1.sweeper = h.sweeper := by
    intro sid reason
    rw [Uplink.reject]
    split <;> rfl
  simp only [handle, online, offline, transit, quitRoom]
  repeat' split
  all_goals first | rfl | exact reject _ _

namespace Gateway

variable {g g' : Gateway} {cid : UInt64} {m : Move} {i w : Nat}

/-! ### Moves that do little -/

/-- Nothing but connections and sockets changes. -/
structure Confined (g g' : Gateway) : Prop where
  hub : ∃ conns, g'.hub = { g.hub with conns }
  pool : g'.pool = g.pool
  phase : g'.phase = g.phase
  reporter : g'.reporter = g.reporter

/-- A move by which a client connects or says something, or by which a task that serves a socket
does something of its own. -/
def Move.AtSocket : Move → Prop
  | .connect | .say .. | .heed _ | .takeMessage _ | .ping _ | .sayFarewell _ | .written _
    | .failWrite _
  | .giveUp _ | .closeSocket _ => True
  | _ => False

/-- What is done at a socket touches nothing else. -/
theorem confined_of_move? (h : g.move? m = some g') (hm : m.AtSocket) : g.Confined g' := by
  have at_conns : ∀ conns sockets, g.Confined { g with hub := { g.hub with conns }, sockets } :=
    fun conns _ ↦ ⟨⟨conns, rfl⟩, rfl, rfl, rfl⟩
  cases m with
  | connect =>
    obtain ⟨⟨k, g'⟩, ho, rfl⟩ := Option.map_eq_some_iff.1 h
    simp only [open?] at ho
    split at ho <;> cases ho
    exact at_conns _ _
  | say cid e =>
    cases h
    exact at_conns _ _
  | takeMessage cid =>
    obtain ⟨⟨s, c⟩, -, h⟩ := Option.bind_eq_some_iff.1 h
    simp only at h
    split at h
    · cases h
    · obtain ⟨⟨m, d⟩, -, h⟩ := Option.bind_eq_some_iff.1 h
      cases h
      exact at_conns _ _
  | heed cid | ping cid | sayFarewell cid =>
    obtain ⟨⟨s, c⟩, -, h⟩ := Option.bind_eq_some_iff.1 h
    simp only at h
    split at h <;> cases h
    exact at_conns _ _
  | closeSocket cid =>
    obtain ⟨⟨s, c⟩, -, h⟩ := Option.bind_eq_some_iff.1 h
    simp only at h
    split at h <;> cases h
    exact at_conns _ _
  | written cid | failWrite cid | giveUp cid =>
    obtain ⟨⟨s, c⟩, -, h⟩ := Option.bind_eq_some_iff.1 h
    simp only at h
    repeat' split at h
    all_goals cases h
    all_goals exact at_conns _ _
  | _ => exact hm.elim

/-- Notice may be given and one frame be sent to the backend; of the other parts none changes. -/
structure Minor (g g' : Gateway) : Prop where
  sweeper : g.hub.sweeper.Acts g'.hub.sweeper
  pool : g'.pool = g.pool ∨ ∃ f, g'.pool = (g.pool.send f).2
  phase : g'.phase = g.phase
  reporter : g'.reporter = g.reporter

private theorem Minor.of_eq (hs : g'.hub.sweeper = g.hub.sweeper) (hp : g'.pool = g.pool)
    (hf : g'.phase = g.phase) (hr : g'.reporter = g.reporter) : g.Minor g' :=
  ⟨by rw [hs], .inl hp, hf, hr⟩

private theorem Confined.minor (h : g.Confined g') : g.Minor g' := by
  obtain ⟨⟨conns, hh⟩, hp, hf, hr⟩ := h
  exact .of_eq (by rw [hh]) hp hf hr

private theorem minor_afterForward (g : Gateway) (cid : UInt64) (after : AfterForward) :
    g.Minor (g.afterForward cid after) ∧ (g.afterForward cid after).pool = g.pool := by
  cases after with
  | proceed => exact ⟨.of_eq rfl rfl rfl rfl, rfl⟩
  | logOut => exact ⟨⟨.single (.push g.hub.now cid), .inl rfl, rfl, rfl⟩, rfl⟩

private theorem minor_forward (g : Gateway) (cid : UInt64) (w : Message) (after : AfterForward) :
    g.Minor (g.forward cid w after) := by
  simp only [forward]
  split
  · obtain ⟨⟨hs, -, hf, hr⟩, hp⟩ :=
      minor_afterForward { g with pool := (g.pool.send _).2 } cid after
    exact ⟨hs, .inr ⟨_, hp⟩, hf, hr⟩
  · exact ⟨.refl, .inr ⟨_, rfl⟩, rfl, rfl⟩

private theorem minor_onMessage (g : Gateway) (cid : UInt64) (c : Connection) (w : Message) :
    g.Minor (g.onMessage cid c w) := by
  have hh := Uplink.sweeper_handle g.hub c w
  simp only [onMessage]
  split
  · next hu => exact .of_eq (by rw [← hh, hu]) rfl rfl rfl
  · next hu => exact .of_eq (by rw [← hh, hu]) rfl rfl rfl
  · next hu => exact .of_eq (by rw [← hh, hu]; rfl) rfl rfl rfl
  · next h w after hu =>
    rw [hu] at hh
    obtain ⟨hs, hp, hf, hr⟩ := minor_forward { g with hub := h } cid w after
    exact ⟨hh ▸ hs, hp, hf, hr⟩

private theorem minor_hear (h : g.hear cid = some g') : g.Minor g' := by
  obtain ⟨s, c, e, inbox, g₁, -, -, -, rfl, ⟨-, rfl | rfl⟩ | ⟨m, -, -, rfl⟩⟩ :=
    hear_eq h
  · exact .of_eq rfl rfl rfl rfl
  · exact .of_eq rfl rfl rfl rfl
  · obtain ⟨hs, hp, hf, hr⟩ :=
      minor_onMessage (g.modifySocket cid fun s ↦ { s with inbox }) cid c m
    exact ⟨hs, hp, hf, hr⟩

private theorem minor_resumeListener (h : g.resumeListener cid = some g') : g.Minor g' := by
  obtain ⟨⟨s, c⟩, -, h⟩ := Option.bind_eq_some_iff.1 h
  simp only at h
  split at h
  · split at h <;> cases h
    exact (minor_afterForward g cid _).1
  · split at h <;> cases h
    exact .of_eq rfl rfl rfl rfl
  · cases h

private theorem minor_finishSocket (h : g.finishSocket cid = some g') : g.Minor g' := by
  obtain ⟨⟨s, c⟩, -, h⟩ := Option.bind_eq_some_iff.1 h
  simp only at h
  split at h <;> cases h
  refine .of_eq ?_ rfl rfl rfl
  show (Closing.run g.hub cid).sweeper = g.hub.sweeper
  rw [Closing.run_eq, Hub.modifyConn, Hub.released]
  split
  · rfl
  · split <;> rfl

/-! ### All moves -/

/-- What a move can do to the links and the queues that they share. -/
inductive PoolStep (g : Gateway) : Move → Pool Downlink → Prop
  /-- The backend may write, and a frame may be taken off the inbound queue. -/
  | rest {m : Move} (inbound : Channel Frame) (wires : List Wire) :
    PoolStep g m { g.pool with inbound, wires }
  | send {m : Move} (f : Frame) : PoolStep g m (g.pool.send f).2
  | link {m : Pool.Move} {p : Pool Downlink} : g.pool.move? g.now m = some p →
    PoolStep g (.link m) p
  /-- A worker that had not ended has come to the end of a handling, or waits. -/
  | call {m : Move} {i w : Nat} {y x : Worker Downlink} (inbound : Channel Frame) :
    g.pool.worker? i w = some y → y ≠ .ended → (∀ d, x = .busy d → d.Waits) →
    PoolStep g m (({ g.pool with inbound } : Pool Downlink).setWorker i w x)
  | launch {m : Move} : g.phase = .unstarted → PoolStep g m (g.pool.launch g.now)
  | signal {m : Move} : g.phase = .stopping → PoolStep g m g.pool.signal

/-- What a move can do to the tasks of the gateway itself, and how far the gateway comes. -/
inductive Control (g : Gateway) : Move → Gateway → Prop
  | rest {m : Move} {g' : Gateway} : g'.phase = g.phase → g'.reporter = g.reporter →
    Control g m g'
  /-- The reporter does something. -/
  | report {m : Move} {g' : Gateway} : m = .report ∨ m = .resumeReporter ∨ m = .stopReporter →
    g'.phase = g.phase → Control g m g'
  | start {m : Move} {g' : Gateway} : g.phase = .unstarted → g'.phase = .running →
    g'.pool = g.pool.launch g.now → Control g m g'
  | stop {m : Move} {g' : Gateway} : g.phase = .running → g'.phase = .stopping →
    g'.reporter = g.reporter → g'.hub.sweeper = g.hub.sweeper.signal → Control g m g'
  | drain {m : Move} {g' : Gateway} : g.phase = .stopping → g'.phase = .draining →
    g'.reporter = g.reporter → g'.pool = g.pool.signal → Control g m g'
  | complete {m : Move} {g' : Gateway} : g.phase = .draining → g'.phase = .stopped →
    g'.reporter = g.reporter → Control g m g'

/-- What a move does to the parts of a gateway. -/
structure Parts (g : Gateway) (m : Move) (g' : Gateway) : Prop where
  sweeper : g.hub.sweeper.Acts g'.hub.sweeper
  pool : g.PoolStep m g'.pool
  control : g.Control m g'

private theorem PoolStep.refl (g : Gateway) (m : Move) : g.PoolStep m g.pool :=
  .rest g.pool.inbound g.pool.wires

private theorem Minor.parts (h : g.Minor g') : g.Parts m g' := by
  refine ⟨h.sweeper, ?_, .rest h.phase h.reporter⟩
  obtain hp | ⟨f, hp⟩ := h.pool <;> rw [hp]
  · exact .refl g m
  · exact .send f

private theorem runCall_eq (g : Gateway) (i w : Nat) (d : Downlink) :
    ∃ x : Worker Downlink, (∀ d, x = .busy d → d.Waits) ∧
      g.runCall i w d = { g with hub := (d.run g.hub).1, pool := g.pool.setWorker i w x } := by
  rw [runCall]
  split
  · next h d' hr =>
    refine ⟨.busy d', ?_, by rw [hr]⟩
    rintro d ⟨⟩
    exact Downlink.eq_waiting_of_step_eq_none (Downlink.step_eq_none_of_run hr)
  · next hr =>
    refine ⟨.idle, ?_, by rw [hr]⟩
    rintro d ⟨⟩

private theorem parts_runCall {y : Worker Downlink} (hy : g.pool.worker? i w = some y)
    (hn : y ≠ .ended) (inbound : Channel Frame) (d : Downlink) :
    g.Parts m ({ g with pool := { g.pool with inbound } }.runCall i w d) := by
  obtain ⟨x, hw, he⟩ := runCall_eq { g with pool := { g.pool with inbound } } i w d
  rw [he]
  exact ⟨Downlink.sweeper_run g.hub d, .call inbound hy hn hw, .rest rfl rfl⟩

private theorem parts_fetchCall (h : g.fetchCall i w = some g') : g.Parts m g' := by
  obtain ⟨⟨f, pool⟩, hf, h⟩ := Option.bind_eq_some_iff.1 h
  obtain ⟨y, hy, hf⟩ := Option.bind_eq_some_iff.1 hf
  split at hf
  · obtain ⟨⟨a, inbound⟩, -, hf⟩ := Option.bind_eq_some_iff.1 hf
    cases hf
    simp only at h
    split at h <;> cases h
    · exact ⟨.refl, .rest inbound g.pool.wires, .rest rfl rfl⟩
    · exact parts_runCall hy nofun inbound _
  · cases hf

private theorem parts_resumeCall (h : g.resumeCall i w = some g') : g.Parts m g' := by
  obtain ⟨y, hy, h⟩ := Option.bind_eq_some_iff.1 h
  split at h
  · split at h <;> cases h
    exact parts_runCall hy nofun g.pool.inbound _
  · cases h

/-- Whatever a move does comes to few operations on the parts of the gateway. -/
theorem parts_of_move? (h : g.move? m = some g') : g.Parts m g' := by
  cases m with
  | start address =>
    cases h
    rw [start]
    split
    · next hp => exact ⟨.single .start, .launch hp, .start hp rfl rfl⟩
    · exact ⟨.refl, .refl g _, .rest rfl rfl⟩
  | wait ms =>
    cases h
    exact ⟨.refl, .refl g _, .rest rfl rfl⟩
  | shutdown =>
    cases h
    rw [shutdown]
    split
    · next hp => exact ⟨.single .signal, .refl g _, .stop hp rfl rfl rfl⟩
    · next hp => exact ⟨.refl, .signal hp, .drain hp rfl rfl rfl⟩
    · exact ⟨.refl, .refl g _, .rest rfl rfl⟩
  | backendSays wire b | backendEnds wire =>
    cases h
    exact ⟨.refl, .rest g.pool.inbound _, .rest rfl rfl⟩
  | link m =>
    obtain ⟨pool, hp, rfl⟩ := Option.map_eq_some_iff.1 h
    exact ⟨.refl, .link hp, .rest rfl rfl⟩
  | fetchCall i w => exact parts_fetchCall h
  | resumeCall i w => exact parts_resumeCall h
  | hear cid => exact (minor_hear h).parts
  | resumeListener cid => exact (minor_resumeListener h).parts
  | finishSocket cid => exact (minor_finishSocket h).parts
  | sendFarewell k =>
    obtain ⟨w, -, h⟩ := Option.bind_eq_some_iff.1 h
    cases h
    exact ⟨.refl, .send _, .rest rfl rfl⟩
  | sweepTake =>
    obtain ⟨sweeper, hs, rfl⟩ := Option.map_eq_some_iff.1 h
    exact ⟨.single (.take hs), .refl g _, .rest rfl rfl⟩
  | sweepExpire =>
    obtain ⟨⟨sweeper, conns⟩, hs, rfl⟩ := Option.map_eq_some_iff.1 h
    exact ⟨.single (.expire hs), .refl g _, .rest rfl rfl⟩
  | sweepFinish =>
    obtain ⟨sweeper, hs, rfl⟩ := Option.map_eq_some_iff.1 h
    exact ⟨.single (.finish hs), .refl g _, .rest rfl rfl⟩
  | report =>
    simp only [move?, report] at h
    split at h
    · split at h <;> cases h
      exact ⟨.refl, .send _, .report (.inl rfl) rfl⟩
    · cases h
  | resumeReporter =>
    simp only [move?, resumeReporter] at h
    split at h
    · split at h <;> cases h
      exact ⟨.refl, .refl g _, .report (.inr (.inl rfl)) rfl⟩
    · cases h
  | stopReporter =>
    simp only [move?, stopReporter] at h
    split at h
    · split at h <;> cases h
      exact ⟨.refl, .refl g _, .report (.inr (.inr rfl)) rfl⟩
    · cases h
  | drain =>
    obtain ⟨⟨hp, -⟩, h⟩ := Option.ite_none_right_eq_some.1 h
    cases h
    exact ⟨.refl, .signal hp, .drain hp rfl rfl rfl⟩
  | complete =>
    obtain ⟨⟨hp, -⟩, h⟩ := Option.ite_none_right_eq_some.1 h
    cases h
    exact ⟨.refl, .refl g _, .complete hp rfl rfl⟩
  | _ => exact (confined_of_move? h trivial).minor.parts

end Gateway

end EdgeGateway
