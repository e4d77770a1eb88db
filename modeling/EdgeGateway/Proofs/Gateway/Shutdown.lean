import EdgeGateway.Proofs.Gateway.Noticing
import EdgeGateway.Proofs.Gateway.Outbound
import EdgeGateway.Proofs.Link.Stalling

/-!
# Shutting down without the backend

A shutdown waits for one task after the other: the sweeper, the reporter, every link with its
reader, its writer and its workers, and the clock of the liveness questions; if it waits for none it
goes on (`awaits_or_proceeds`). A task hears the signal only where it looks for it, and neither a
reporter that waits for room in the outbound queue nor a writer that is at a frame does. `stuck_iff`
says for which tasks, and when exactly, a shutdown waits in vain unless the backend does something;
`shutdown_held_up` shows both cases.
-/

namespace EdgeGateway

/-! ### The sweeper -/

namespace Sweeper

variable {s s' : Sweeper}

/-- The sweeper has heard the shutdown signal, and nobody waits at the queue of one that has ended.
-/
structure Told (s : Sweeper) : Prop where
  phase : s.phase = .finished ∨ s.phase = .running ∧ s.stopping = true
  closed : s.phase = .finished → s.queue.closed = true

private theorem Told.act (h : s.Told) (ha : s.Act s') : s'.Told := by
  cases ha with
  | push now cid => exact ⟨h.phase, fun hp ↦ (s.queue.closed_send _).trans (h.closed hp)⟩
  | start =>
    rw [start]
    split
    · next hc =>
      rcases h.phase with hp | ⟨hp, -⟩ <;> rw [hp] at hc <;> cases hc.1
    · exact h
  | signal =>
    rw [signal]
    split
    · next hp => exact ⟨.inr ⟨hp, rfl⟩, h.closed⟩
    · exact h
  | take ht =>
    obtain ⟨hp, ht⟩ := Option.ite_none_right_eq_some.1 ht
    obtain ⟨⟨e, q⟩, hr, rfl⟩ := Option.map_eq_some_iff.1 ht
    exact ⟨h.phase, fun hf ↦ (Channel.closed_of_receive hr).trans (h.closed hf)⟩
  | expire he =>
    obtain ⟨e, -, he⟩ := Option.map_eq_some_iff.1 he
    cases he
    exact ⟨h.phase, h.closed⟩
  | finish hf =>
    obtain ⟨-, hf⟩ := Option.ite_none_right_eq_some.1 hf
    cases hf
    exact ⟨.inl rfl, fun _ ↦ rfl⟩

private theorem told_signal (hp : s.phase = .running) : s.signal.Told := by
  rw [signal, if_pos hp]
  refine ⟨.inr ⟨hp, rfl⟩, fun hf ↦ ?_⟩
  cases hp.symm.trans hf

private theorem Told.finish (h : s.Told) (hn : s.phase ≠ .finished) :
    s.finish? = some s.finish := by
  obtain ⟨hp, hs⟩ := h.phase.resolve_left hn
  rw [finish?, if_pos ⟨hp, .inl hs⟩]

end Sweeper

/-! ### The links -/

/-- No link is left behind by a launch, every call that is not finished waits for room in the queue
of evictions, and the queue of frames that go out is open and in order. -/
structure Pool.Steady (p : Pool Downlink) : Prop where
  awake : p.Awake
  calls : p.Calls Downlink.Waits
  line : p.outbound.InLine

namespace Gateway

variable {s : Settings} {g g' : Gateway} {m : Move} {p : Pool Downlink} {i ticket : Nat}

private theorem steady_fresh (s : LinkSettings) : (Pool.fresh s : Pool Downlink).Steady :=
  ⟨Pool.awake_fresh s, Pool.calls_fresh s, Channel.inLine_empty _⟩

private theorem PoolStep.steady (h : g.PoolStep m p) (hs : g.pool.Steady) : p.Steady := by
  obtain ⟨ha, hc, hl⟩ := hs
  cases h with
  | rest inbound wires => exact ⟨ha, hc, hl⟩
  | send f => exact ⟨ha, hc, hl.send f⟩
  | link hm =>
    refine ⟨ha.move hm, hc.move hm, ?_⟩
    obtain ⟨-, ho | ⟨f, hr⟩⟩ := Pool.drains_of_move? hm
    · rwa [ho]
    · exact hl.receive hr
  | call inbound hy hn hw =>
    have hp : ({ g.pool with inbound } : Pool Downlink).Steady := ⟨ha, hc, hl⟩
    refine ⟨hp.awake.setWorker _ _ _, hp.calls.setWorker _ _ hw, ?_⟩
    rwa [Pool.outbound_setWorker]
  | launch =>
    refine ⟨ha.launch _, Pool.calls_launch hc _, ?_⟩
    rw [Pool.launch]
    split <;> exact hl
  | signal =>
    rw [Pool.signal]
    split
    · exact ⟨ha, hc, hl⟩
    · exact ⟨ha, hc, hl⟩

private theorem PoolStep.onward (h : g.PoolStep m p) :
    (g.pool.ticker ≠ .unlaunched → p.ticker ≠ .unlaunched) ∧
      (g.pool.stopping = true → p.stopping = true) := by
  cases h with
  | rest | send => exact ⟨id, id⟩
  | link hm =>
    obtain ⟨ht, hs⟩ := Pool.onward_of_move? hm
    exact ⟨ht, fun h ↦ by rwa [hs]⟩
  | call inbound hy =>
    rw [Pool.setWorker]
    split <;> exact ⟨id, id⟩
  | launch =>
    rw [Pool.launch]
    split
    · exact ⟨fun _ ↦ by rintro ⟨⟩, id⟩
    · exact ⟨id, id⟩
  | signal =>
    rw [Pool.signal]
    split
    · exact ⟨id, id⟩
    · exact ⟨id, fun _ ↦ rfl⟩

/-! ### What is known of every run -/

/-- The gateway has been shut down. -/
def ShutDown (g : Gateway) : Prop := g.phase ≠ .unstarted ∧ g.phase ≠ .running

/-- How the parts of a gateway stand by how far it has come. -/
structure Regular (g : Gateway) : Prop where
  pool : g.pool.Steady
  launched : g.phase ≠ .unstarted → g.pool.ticker ≠ .unlaunched
  signalled : g.phase = .draining → g.pool.stopping = true
  told : g.ShutDown → g.hub.sweeper.Told

private theorem regular_fresh (s : Settings) : (fresh s).Regular where
  pool := steady_fresh s.link
  launched h := absurd rfl h
  signalled := nofun
  told h := absurd rfl h.1

private theorem Regular.move (hg : g.Regular) (ha : g.Accounted) (h : g.move? m = some g') :
    g'.Regular := by
  obtain ⟨hsw, hp, hc⟩ := parts_of_move? h
  have hpool := hp.steady hg.pool
  obtain ⟨htick, hstop⟩ := hp.onward
  cases hc with
  | rest hf | report _ hf =>
    refine ⟨hpool, ?_, ?_, ?_⟩
    · exact fun hn ↦ htick (hg.launched (hf ▸ hn))
    · exact fun hd ↦ hstop (hg.signalled (hf ▸ hd))
    · intro hd
      rw [ShutDown, hf] at hd
      exact hsw.kept .act (hg.told hd)
  | start hf hf' hl =>
    refine ⟨hpool, fun _ ↦ ?_, fun hd ↦ ?_, fun hd ↦ absurd hf' hd.2⟩
    · rw [hl, Pool.launch]
      split
      · rintro ⟨⟩
      · assumption
    · cases hf'.symm.trans hd
  | stop hf hf' _ hs =>
    refine ⟨hpool, fun _ ↦ htick (hg.launched (by rw [hf]; decide)), fun hd ↦ ?_,
      fun _ ↦ ?_⟩
    · cases hf'.symm.trans hd
    · rw [hs]
      exact Sweeper.told_signal (ha .running (by rw [hf]; rfl)).phase
  | drain hf hf' _ hq =>
    have hl : g.pool.ticker ≠ .unlaunched := hg.launched (by rw [hf]; decide)
    refine ⟨hpool, fun _ ↦ htick hl, fun _ ↦ ?_, fun _ ↦ ?_⟩
    · rw [hq, Pool.signal, if_neg hl]
    · exact hsw.kept .act (hg.told (by rw [ShutDown, hf]; decide))
  | complete hf hf' =>
    refine ⟨hpool, fun _ ↦ htick (hg.launched (by rw [hf]; decide)), fun hd ↦ ?_,
      fun _ ↦ ?_⟩
    · cases hf'.symm.trans hd
    · exact hsw.kept .act (hg.told (by rw [ShutDown, hf]; decide))

private theorem regular_of_reachable (hg : Reachable s g) : g.Regular := by
  induction hg with
  | fresh => exact regular_fresh s
  | move m hg hm ih => exact ih.move (accounted_of_reachable hg) hm

/-! ### Waiting in vain -/

/-- What a shutdown can wait for. -/
inductive Task where
  | sweeper
  | reporter
  /-- A link with its reader, its writer and its workers. -/
  | link (i : Nat)
  /-- The clock of the liveness questions. -/
  | ticker
  deriving Repr, DecidableEq

/-- The task that makes a move, if a shutdown can wait for it. -/
def Move.task? : Move → Option Task
  | .sweepTake | .sweepExpire | .sweepFinish => some .sweeper
  | .report | .resumeReporter | .stopReporter => some .reporter
  | .link m => some (m.link?.elim .ticker .link)
  | .fetchCall i _ | .resumeCall i _ => some (.link i)
  | _ => none

/-- A move for which the backend does nothing: it accepts no connection, takes no byte, writes
nothing and gives no connection up. As long as it does not give a connection up writing there does
not fail. -/
def Move.Unaided : Move → Prop
  | .link m => ¬ m.Aided
  | .backendSays .. | .backendEnds _ => False
  | _ => True

/-- A call of the shutdown has not returned, and it waits for a task: for the sweeper, then for the
reporter if there is one, then for one link after the other, then for the clock. Only the first call
waits for the sweeper and the reporter. -/
def Awaits (g : Gateway) : Task → Prop
  | .sweeper => g.ShutDown ∧ g.hub.sweeper.phase ≠ .finished
  | .reporter =>
    g.ShutDown ∧ g.hub.sweeper.phase = .finished ∧ g.reporter ≠ .off ∧ g.reporter ≠ .ended
  | .link i => g.phase = .draining ∧ (∀ l ∈ g.pool.links.take i, l.phase = .stopped) ∧
      ∃ l, g.pool.links[i]? = some l ∧ l.phase ≠ .stopped
  | .ticker =>
    g.phase = .draining ∧ (∀ l ∈ g.pool.links, l.phase = .stopped) ∧
    g.pool.ticker ≠ .ended

private theorem Awaits.shutDown {t : Task} (h : g.Awaits t) : g.ShutDown := by
  cases t with
  | sweeper | reporter => exact h.1
  | link i | ticker =>
    rw [ShutDown, h.1]
    exact ⟨nofun, nofun⟩

/-- Whatever else happens, the task can make no move, unless the backend does something. -/
def Stuck (g : Gateway) (t : Task) : Prop :=
  ∀ ms g', (∀ m ∈ ms, m.Unaided) → g.run? ms = some g' →
    ∀ m : Move, m.Unaided → m.task? = some t → g'.move? m = none

/-- What holds a task up: the reporter waits for room in the outbound queue, and the links can take
no more frames than stand before; a link introduces itself, or only its writer is left, at a frame.
-/
def Blocked (g : Gateway) : Task → Prop
  | .reporter => ∃ ticket due, g.reporter = .sending ticket due ∧ g.pool.Short ticket
  | .link i => g.pool.AwaitsBackend i
  | _ => False

/-! ### A task that is held up -/

private theorem PoolStep.short (h : g.PoolStep m p) (hm : m.Unaided) (hs : g.phase ≠ .unstarted)
    (hl : g.pool.outbound.InLine) (hp : g.pool.Short ticket) : p.Short ticket := by
  cases h with
  | rest => exact hp
  | send f => exact hp.send hl f
  | link hmove => exact hp.move hl hmove hm
  | call inbound => exact Pool.Short.setWorker (p := { g.pool with inbound }) hp _ _ _
  | launch hf => exact absurd hf hs
  | signal =>
    rw [Pool.signal]
    split <;> exact hp

private theorem PoolStep.awaitsBackend (h : g.PoolStep m p) (hm : m.Unaided)
    (hs : g.phase ≠ .unstarted) (hp : g.pool.AwaitsBackend i) : p.AwaitsBackend i := by
  cases h with
  | rest | send => exact hp
  | link hmove => exact (hp.move hmove hm).2
  | call inbound hy hn =>
    exact Pool.AwaitsBackend.setWorker (p := { g.pool with inbound }) hp hy hn _
  | launch hf => exact absurd hf hs
  | signal =>
    rw [Pool.signal]
    split <;> exact hp

private theorem move?_of_sending {due : Nat} (hr : g.reporter = .sending ticket due)
    (hp : g.pool.outbound.delivery ticket = .pending) (ht : m.task? = some .reporter) :
    g.move? m = none := by
  cases m with
  | report => simp [move?, report, hr]
  | resumeReporter => simp [move?, resumeReporter, hr, hp]
  | stopReporter => simp [move?, stopReporter, hr]
  | link m => cases hi : m.link? <;> simp [Move.task?, hi] at ht
  | _ => cases ht

private theorem move?_of_awaitsBackend (hp : g.pool.AwaitsBackend i) (hm : m.Unaided)
    (ht : m.task? = some (.link i)) : g.move? m = none := by
  cases m with
  | link m =>
    have hi : m.link? = some i := by
      cases hi : m.link? <;> simp_all [Move.task?]
    cases h : g.pool.move? g.now m with
    | none => simp [move?, h]
    | some q => exact absurd hi (hp.move h hm).1
  | fetchCall j w =>
    cases ht
    cases hy : g.pool.worker? i w with
    | none => simp [move?, fetchCall, Pool.fetchInbound, hy]
    | some y =>
      cases hp.worker hy
      simp [move?, fetchCall, Pool.fetchInbound, hy]
  | resumeCall j w =>
    cases ht
    cases hy : g.pool.worker? i w with
    | none => simp [move?, resumeCall, hy]
    | some y =>
      cases hp.worker hy
      simp [move?, resumeCall, hy]
  | _ => cases ht

private theorem Blocked.move?_eq_none {t : Task} (hb : g.Blocked t) (hm : m.Unaided)
    (ht : m.task? = some t) : g.move? m = none := by
  cases t with
  | reporter =>
    obtain ⟨ticket, due, hr, hp, -⟩ := hb
    exact move?_of_sending hr hp ht
  | link i => exact move?_of_awaitsBackend hb hm ht
  | sweeper | ticker => exact hb.elim

private theorem Blocked.move {t : Task} (hb : g.Blocked t) (hg : g.Regular)
    (hs : g.phase ≠ .unstarted) (hm : m.Unaided) (h : g.move? m = some g') :
    g'.Blocked t ∧ g'.phase ≠ .unstarted := by
  obtain ⟨-, hp, hc⟩ := parts_of_move? h
  have hphase : g'.phase ≠ .unstarted := by
    cases hc with
    | rest hf | report _ hf => rwa [hf]
    | start _ hf | stop _ hf | drain _ hf | complete _ hf =>
      rw [hf]
      nofun
  refine ⟨?_, hphase⟩
  cases t with
  | reporter =>
    obtain ⟨ticket, due, hr, hshort⟩ := hb
    refine ⟨ticket, due, ?_, hp.short hm hs hg.pool.line hshort⟩
    cases hc with
    | rest _ hr' | stop _ _ hr' | drain _ _ hr' | complete _ _ hr' => rw [hr', hr]
    | report ho =>
      have hnone : g.move? m = none := by
        apply move?_of_sending hr hshort.1
        rcases ho with rfl | rfl | rfl <;> rfl
      cases hnone.symm.trans h
    | start hf => exact absurd hf hs
  | link i => exact hp.awaitsBackend hm hs hb
  | sweeper | ticker => exact hb.elim

private theorem Blocked.stuck {t : Task} (hb : g.Blocked t) (hg : Reachable s g)
    (hs : g.phase ≠ .unstarted) : g.Stuck t := by
  intro ms
  induction ms generalizing g with
  | nil =>
    rintro g' - ⟨⟩ m hm ht
    exact hb.move?_eq_none hm ht
  | cons n ms ih =>
    intro g' hms hr
    obtain ⟨k, hk, hr⟩ := Option.bind_eq_some_iff.1 hr
    obtain ⟨hb', hs'⟩ := hb.move (regular_of_reachable hg) hs (hms n (List.mem_cons_self ..)) hk
    exact ih hb' (hg.move n hk) hs' g' (fun m hm ↦ hms m (List.mem_cons_of_mem _ hm)) hr

/-! ### A task that is not held up -/

/-- Without the backend things can come to where the task makes a move. -/
def Stirs (g : Gateway) (t : Task) : Prop :=
  ∃ ms g' m, (∀ m ∈ ms, m.Unaided) ∧ g.run? ms = some g' ∧ m.Unaided ∧
    m.task? = some t ∧ (g'.move? m).isSome

private theorem Stirs.not_stuck {t : Task} (h : g.Stirs t) : ¬ g.Stuck t := by
  obtain ⟨ms, g', m, hms, hr, hm, ht, hsome⟩ := h
  intro hst
  rw [hst ms g' hms hr m hm ht] at hsome
  cases hsome

private theorem Stirs.at_once {t : Task} (hm : m.Unaided) (ht : m.task? = some t)
    (h : (g.move? m).isSome) : g.Stirs t := ⟨[], g, m, nofun, rfl, hm, ht, h⟩

private theorem stirs_sweeper (hg : g.Regular) (ha : g.Awaits .sweeper) : g.Stirs .sweeper := by
  refine .at_once (m := .sweepFinish) trivial rfl ?_
  simp [move?, sweepFinish, (hg.told ha.1).finish ha.2]

private theorem stirs_ticker (hg : g.Regular) (ha : g.Awaits .ticker) : g.Stirs .ticker := by
  obtain ⟨hd, -, hne⟩ := ha
  have hl := hg.launched (by rw [hd]; nofun)
  have hs := hg.signalled hd
  refine .at_once (m := .link .stopTicker) id rfl ?_
  cases ht : g.pool.ticker with
  | unlaunched => exact absurd ht hl
  | ended => exact absurd ht hne
  | waiting due => simp [move?, Pool.move?, Pool.stopTicker, ht, hs]

private theorem run?_fetchOutbound {is : List Nat} {q : Pool Downlink} :
    ∀ {g : Gateway}, List.foldlM Pool.fetchOutbound g.pool is = some q →
      g.run? (is.map fun i ↦ .link (.fetchOutbound i)) = some { g with pool := q } := by
  induction is with
  | nil =>
    rintro g ⟨⟩
    rfl
  | cons i is ih =>
    intro g h
    obtain ⟨p, hp, h⟩ := Option.bind_eq_some_iff.1 h
    have hmove : g.move? (.link (.fetchOutbound i)) = some { g with pool := p } := by
      simp [move?, Pool.move?, hp]
    have hrest := ih (g := { g with pool := p }) h
    rw [run?, List.map_cons, List.foldlM_cons, hmove]
    exact hrest

private theorem report_isSome {due : Nat} (hr : g.reporter = .waiting due) (hd : due ≤ g.now) :
    (g.move? .report).isSome := by
  simp [move?, report, hr, hd]

private theorem stirs_reporter (hg : g.Regular) (ha : g.Awaits .reporter)
    (hb : ¬ g.Blocked .reporter) : g.Stirs .reporter := by
  obtain ⟨-, -, hoff, hended⟩ := ha
  cases hr : g.reporter with
  | off => exact absurd hr hoff
  | ended => exact absurd hr hended
  | waiting due =>
    -- The next report falls due, whatever the reporter has heard by then.
    exact ⟨[.wait due], { g with hub := { g.hub with now := g.now + due } }, .report,
      by simp [Move.Unaided], rfl, trivial, rfl, report_isSome hr (Nat.le_add_left due g.now)⟩
  | sending ticket due =>
    cases hd : g.pool.outbound.delivery ticket with
    | accepted =>
      exact .at_once (m := .resumeReporter) trivial rfl (by simp [move?, resumeReporter, hr, hd])
    | refused =>
      rw [Channel.delivery, hg.pool.line.taking] at hd
      split at hd <;> cases hd
    | pending =>
      have hh : g.pool.outbound.ahead ticket < g.pool.hands :=
        Nat.lt_of_not_le fun hle ↦ hb ⟨ticket, due, hr, hd, hle⟩
      obtain ⟨is, q, his, hq⟩ := Pool.accepted_of_hands hg.pool.line hd hh
      refine ⟨_, _, .resumeReporter, ?_, run?_fetchOutbound his, trivial, rfl, ?_⟩
      · intro m hm
        obtain ⟨i, -, rfl⟩ := List.mem_map.1 hm
        exact id
      · simp [move?, resumeReporter, hr, hq]

private theorem resumeCall_isSome {w : Nat} {d : Downlink} (hd : d.Waits)
    (hclosed : g.hub.sweeper.queue.closed = true) (hw : g.pool.worker? i w = some (.busy d)) :
    (g.move? (.resumeCall i w)).isSome := by
  obtain ⟨ticket, after, rfl⟩ := hd
  have hstep : ((Downlink.waiting ticket after).step g.hub).isSome := by
    cases he : g.hub.eviction ticket with
    | accepted | refused => simp [Downlink.step, he]
    | pending =>
      have hopen := (Channel.delivery_eq_pending_iff.1 he).1
      rw [hclosed] at hopen
      cases hopen
  simp [move?, resumeCall, hw, hstep]

private theorem stirs_link (hg : g.Regular) (ha : g.Awaits (.link i))
    (hb : ¬ g.Blocked (.link i)) : g.Stirs (.link i) := by
  have hs := ha.shutDown
  obtain ⟨hd, -, l, hl, hne⟩ := ha
  have hawake := hg.pool.awake (hg.launched hs.1) l (List.mem_of_getElem? hl)
  obtain ⟨m, hm, hi, hsome⟩ | ⟨w, d, hw⟩ :=
    Pool.exists_move hl (hg.signalled hd) hawake hne (fun h ↦ hb ⟨l, hl, h⟩) g.now
  · exact .at_once (m := .link m) hm (by rw [Move.task?, hi]; rfl) (by simpa [move?] using hsome)
  · have hwait := hg.pool.calls.of_worker? hw
    by_cases hf : g.hub.sweeper.phase = .finished
    · exact .at_once (m := .resumeCall i w) trivial rfl
        (resumeCall_isSome hwait ((hg.told hs).closed hf) hw)
    · -- The sweeper ends first.
      have hmove : g.run? [.sweepFinish] =
          some { g with hub := { g.hub with sweeper := g.hub.sweeper.finish } } := by
        simp [run?, move?, sweepFinish, (hg.told hs).finish hf]
      exact ⟨_, _, .resumeCall i w, by simp [Move.Unaided], hmove, trivial, rfl,
        resumeCall_isSome hwait rfl hw⟩

private theorem exists_first {ls : List (Link Downlink)} (h : ¬ ∀ l ∈ ls, l.phase = .stopped) :
    ∃ i : Nat, (∀ l ∈ ls.take i, l.phase = .stopped) ∧ ∃ l, ls[i]? = some l ∧
      l.phase ≠ .stopped := by
  induction ls with
  | nil => exact absurd (List.forall_mem_nil _) h
  | cons l ls ih =>
    by_cases hl : l.phase = .stopped
    · obtain ⟨i, htake, k, hk, hne⟩ := ih fun hs ↦ h (List.forall_mem_cons.2 ⟨hl, hs⟩)
      exact ⟨i + 1, List.forall_mem_cons.2 ⟨hl, htake⟩, k, hk, hne⟩
    · exact ⟨0, List.forall_mem_nil _, l, rfl, hl⟩

/-- A shutdown that has not returned waits for a task, or goes on. -/
theorem awaits_or_proceeds (hp : g.phase = .stopping ∨ g.phase = .draining) :
    (∃ t, g.Awaits t) ∨ g.drain.isSome ∨ g.complete.isSome := by
  rcases hp with hp | hp
  · have hs : g.ShutDown := by
      rw [ShutDown, hp]
      exact ⟨nofun, nofun⟩
    by_cases hf : g.hub.sweeper.phase = .finished
    · by_cases hr : g.reporter = .off ∨ g.reporter = .ended
      · refine .inr (.inl ?_)
        rw [drain, if_pos ⟨hp, hf, hr⟩]
        rfl
      · obtain ⟨hoff, hended⟩ := not_or.1 hr
        exact .inl ⟨.reporter, hs, hf, hoff, hended⟩
    · exact .inl ⟨.sweeper, hs, hf⟩
  · by_cases hl : ∀ l ∈ g.pool.links, l.phase = .stopped
    · by_cases ht : g.pool.ticker = .ended
      · have hrest : g.pool.AtRest := .inr ⟨fun l h ↦ by rw [hl l h], ht⟩
        refine .inr (.inr ?_)
        rw [complete, if_pos ⟨hp, hrest⟩]
        rfl
      · exact .inl ⟨.ticker, hp, hl, ht⟩
    · obtain ⟨i, htake, hne⟩ := exists_first hl
      exact .inl ⟨.link i, hp, htake, hne⟩

/-- A shutdown waits in vain for a task, unless the backend does something, exactly if the task is
the reporter or a link and is held up. -/
theorem stuck_iff {t : Task} (hg : Reachable s g) (ha : g.Awaits t) :
    g.Stuck t ↔ g.Blocked t := by
  have hr := regular_of_reachable hg
  constructor
  · intro hst
    by_contra hb
    refine Stirs.not_stuck ?_ hst
    cases t with
    | sweeper => exact stirs_sweeper hr ha
    | reporter => exact stirs_reporter hr ha hb
    | link i => exact stirs_link hr ha hb
    | ticker => exact stirs_ticker hr ha
  · exact fun hb ↦ hb.stuck hg ha.shutDown.1

namespace Unheard

/-- A gateway that reports every millisecond, with room for one frame that goes out. -/
def settings : Settings :=
  { Takeover.settings with
    reportInterval := 1
    link := { links := 1, workers := 1, outboundCapacity := 1, inboundCapacity := 1 } }

/-- The backend accepts no connection. The second report has to wait. -/
def full : List Move := [.start ⟨.four 127 0 0 1, 8080⟩, .report, .wait 1, .report]

/-- The backend takes the introduction of a link, and nothing of the report that comes next. -/
def unread : List Move :=
  [.start ⟨.four 127 0 0 1, 8080⟩, .link (.connect 0), .link (.transmit 0 1000), .report,
    .link (.fetchOutbound 0)]

/-- How the sweeper and the reporter end, and then all tasks of the link but its writer. -/
def leaving : List Move :=
  [.sweepFinish, .stopReporter, .drain, .link (.supervise 0 true), .link (.stopReader 0),
    .link (.stopWorker 0 0)]

end Unheard

/-- The outbound queue is full, and no link is connected: a shutdown waits for the reporter in vain.
-/
theorem stuck_iff_full :
    ∃ g, Reachable Unheard.settings g ∧ g.Awaits .reporter ∧ g.Stuck .reporter := by
  have hview : ((fresh Unheard.settings).run? (Unheard.full ++ [.shutdown, .sweepFinish])).any
    (fun g ↦
      g.phase = .stopping ∧ g.hub.sweeper.phase = .finished ∧ g.reporter = .sending 1 2 ∧
      g.pool.outbound.delivery 1 = .pending ∧ g.pool.hands ≤ g.pool.outbound.ahead 1) := by
        decide +kernel
  obtain ⟨g, hrun, hview⟩ := (Option.any_eq_true ..).1 hview
  obtain ⟨hp, hs, hr, hd, hh⟩ := of_decide_eq_true hview
  have hg : Reachable Unheard.settings g := Reachable.fresh.run hrun
  have hawaits : g.Awaits .reporter := by simp [Awaits, ShutDown, hp, hs, hr]
  exact ⟨g, hg, hawaits, (stuck_iff hg hawaits).2 ⟨1, 2, hr, hd, hh⟩⟩

/-- A shutdown that begins while the gateway runs comes to wait for a task in vain, though the
backend does nothing from then on. -/
def HeldUp (s : Settings) (t : Task) : Prop :=
  ∃ g ms g', Reachable s g ∧ g.phase = .running ∧ (∀ m ∈ ms, m.Unaided) ∧
    g.shutdown.run? ms = some g' ∧ g'.Awaits t ∧ g'.Stuck t

/-- A shutdown is held up by a reporter that waits for room in a full queue, and by the writer of a
link at a frame of which the backend takes nothing. -/
theorem shutdown_held_up :
    HeldUp Unheard.settings .reporter ∧ HeldUp Unheard.settings (.link 0) := by
  have held_up : ∀ {t g g'} {ms ms' : List Move}, (fresh Unheard.settings).run? ms = some g →
      g.phase = .running → (∀ m ∈ ms', m.Unaided) → g.shutdown.run? ms' = some g' →
      g'.Awaits t → g'.Blocked t → HeldUp Unheard.settings t := by
    intro t g g' ms ms' hrun hp hms hrun' ha hb
    have hg : Reachable Unheard.settings g := Reachable.fresh.run hrun
    have hg' : Reachable Unheard.settings g' := (hg.move .shutdown rfl).run hrun'
    exact ⟨g, ms', g', hg, hp, hms, hrun', ha, hb.stuck hg' ha.shutDown.1⟩
  constructor
  · have hview : ((fresh Unheard.settings).run? Unheard.full).any (fun g ↦
        (g.shutdown.run? [.sweepFinish]).any fun g' ↦ g.phase = .running ∧
          g'.phase = .stopping ∧ g'.hub.sweeper.phase = .finished ∧
          g'.reporter = .sending 1 2 ∧ g'.pool.outbound.delivery 1 = .pending ∧
          g'.pool.hands ≤ g'.pool.outbound.ahead 1) := by
      decide +kernel
    obtain ⟨g, hrun, hview⟩ := (Option.any_eq_true ..).1 hview
    obtain ⟨g', hrun', hview⟩ := (Option.any_eq_true ..).1 hview
    obtain ⟨hp, hp', hs, hr, hd, hh⟩ := of_decide_eq_true hview
    exact held_up hrun hp (by simp [Move.Unaided]) hrun' (by simp [Awaits, ShutDown, hp', hs, hr])
      ⟨1, 2, hr, hd, hh⟩
  · have hview : ((fresh Unheard.settings).run? Unheard.unread).any (fun g ↦
        (g.shutdown.run? Unheard.leaving).any fun g' ↦ (g'.pool.service? 0).any fun (_, x) ↦
          g.phase = .running ∧ g'.phase = .draining ∧ x.stopping ∧ x.reader = .ended ∧
          x.workers = [.ended] ∧ x.writer ≠ .idle ∧ x.writer ≠ .ended) := by
      decide +kernel
    obtain ⟨g, hrun, hview⟩ := (Option.any_eq_true ..).1 hview
    obtain ⟨g', hrun', hview⟩ := (Option.any_eq_true ..).1 hview
    obtain ⟨⟨l, x⟩, hserv, hview⟩ := (Option.any_eq_true ..).1 hview
    obtain ⟨hp, hp', hst, hr, hws, hidle, hended⟩ := of_decide_eq_true hview
    obtain ⟨hl, hx⟩ := Pool.serving_of_service? hserv
    have hwriting : ∃ f left, x.writer = .writing f left := by
      cases hw : x.writer with
      | idle => exact absurd hw hidle
      | writing f left => exact ⟨f, left, rfl⟩
      | ended => exact absurd hw hended
    refine held_up hrun hp (by simp [Unheard.leaving, Move.Unaided, Pool.Move.Aided]) hrun'
      ⟨hp', by simp, l, hl, by rw [hx]; nofun⟩ ⟨l, hl, ?_⟩
    rw [hx]
    exact ⟨hst, hr, by simp [hws], hwriting⟩

end Gateway

end EdgeGateway
