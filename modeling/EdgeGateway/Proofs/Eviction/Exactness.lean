import EdgeGateway.Proofs.Channel.Log
import EdgeGateway.Proofs.Eviction.Settling

/-!
# Evictions are exact

Of every notice the sweeper has taken it knows until it has served it, so what has been accepted is
at any time in the queue, pending or served. What is closed is closed because a notice that has been
accepted says so and its time has come, and a sweeper at rest has served all of which the time has
come.

Main statement: `evictions_exact`.
-/

namespace EdgeGateway

namespace Channel

/-- An empty queue loses nothing when it is closed. -/
theorem Log.Tells.close {α : Type} {l : Log α} {c : Channel α} (h : l.Tells c)
    (hi : c.items = []) : l.Tells c.close := by
  obtain ⟨h₁, h₂, -⟩ := h.tidy
  refine ⟨⟨Nat.zero_le _, h₂, nofun⟩, h.issued, h.gone, ?_, h.waits⟩
  obtain ⟨queued, hs, hq⟩ := h.line
  exact ⟨queued, hs, by rw [hq, hi]; rfl⟩

end Channel

namespace EvictionScene

variable {s s' a : EvictionScene} {m : Move} {t u v : List (EvictionScene × Move)} {cid : UInt64}
  {e : Eviction}

/-- There is a connection with this number, and it is closed. -/
def Closed (s : EvictionScene) (cid : UInt64) : Prop :=
  ∃ c, s.conns.find? cid = some c ∧ c.closed = true

/-- The notice that is given in a move. -/
def given? (s : EvictionScene) : Move → Option Eviction
  | .push cid => some ⟨cid, s.now + s.sweeper.delay⟩
  | .pushAt cid deadline => some ⟨cid, deadline⟩
  | _ => none

/-- The eviction that is served in a move. -/
def served? (s : EvictionScene) : Move → Option Eviction
  | .expire => s.sweeper.due? s.now
  | _ => none

/-- The notices that have been given, in the order of their tickets. -/
def given (t : List (EvictionScene × Move)) : List Eviction := t.filterMap fun p ↦ p.1.given? p.2

/-- The evictions that have been served, in the order in which they were. -/
def served (t : List (EvictionScene × Move)) : List Eviction :=
  t.filterMap fun p ↦ p.1.served? p.2

/-- The notices of which those who gave them know that they have been let into the queue. -/
def accepted (t : List (EvictionScene × Move)) (s : EvictionScene) : List Eviction :=
  ((List.range (given t).length).filter fun k ↦
    decide (s.sweeper.queue.delivery k = .accepted)).filterMap ((given t)[·]?)

private theorem given_append (t : List (EvictionScene × Move)) (s : EvictionScene) (m : Move) :
    given (t ++ [(s, m)]) = given t ++ (s.given? m).toList := by
  rw [given, List.filterMap_append]
  rfl

private theorem served_append (t : List (EvictionScene × Move)) (s : EvictionScene) (m : Move) :
    served (t ++ [(s, m)]) = served t ++ (s.served? m).toList := by
  rw [served, List.filterMap_append]
  rfl

/-! ### Where the notices are -/

/-- The sweeper runs, or it has ended with nothing left to do; and every notice that it has taken is
served or pending. -/
structure Accounted (t : List (EvictionScene × Move)) (s : EvictionScene) : Prop where
  unsignalled : s.sweeper.stopping = false
  phase : s.sweeper.phase = .running ∧ s.sweeper.queue.closed = false ∨
    s.sweeper.phase = .finished ∧ s.sweeper.Exhausted
  log : ∃ l : Channel.Log Eviction, l.Tells s.sweeper.queue ∧ l.sent = given t ∧
    l.withdrawn = [] ∧ l.received.Perm (served t ++ s.sweeper.pending)

private theorem accounted_running (now : Nat) (conns : Connections) (capacity delay : Nat) :
    Accounted [] (running now conns capacity delay) :=
  ⟨rfl, .inl ⟨rfl, rfl⟩, {}, Channel.Log.tells_empty capacity, rfl, rfl, .nil⟩

private theorem Accounted.open (h : Accounted t s) (ha : s.sweeper.attended = true) :
    s.sweeper.phase = .running ∧ s.sweeper.queue.closed = false := by
  rcases h.phase with h | ⟨-, he, -⟩
  · exact h
  · rw [ha] at he
    cases he

private theorem Accounted.aside (h : Accounted t s) (hg : s.given? m = none)
    (hs : s.served? m = none) (hw : s'.sweeper = s.sweeper) : Accounted (t ++ [(s, m)]) s' := by
  obtain ⟨hu, hp, l, hl⟩ := h
  refine ⟨by rw [hw]; exact hu, by rw [hw]; exact hp, l, ?_⟩
  rw [hw, given_append, served_append, hg, hs, Option.toList_none, List.append_nil, List.append_nil]
  exact hl

private theorem Accounted.give (h : Accounted t s) (ha : s.sweeper.attended = true)
    (hg : s.given? m = some e) (hs : s.served? m = none)
    (hw : s'.sweeper = { s.sweeper with queue := (s.sweeper.queue.send e).2 }) :
    Accounted (t ++ [(s, m)]) s' := by
  obtain ⟨hr, hc⟩ := h.open ha
  obtain ⟨l, hl, hsent, hwith, hperm⟩ := h.log
  have hclosed := (Channel.closed_send s.sweeper.queue e).trans hc
  refine ⟨?_, .inl ?_, l.send e, ?_, ?_, hwith, ?_⟩
  · rw [hw]
    exact h.unsignalled
  · rw [hw]
    exact ⟨hr, hclosed⟩
  · rw [hw]
    exact hl.send hc e
  · rw [given_append, hg, ← hsent]
    rfl
  · rw [hl.received_send, hw, served_append, hs, Option.toList_none, List.append_nil]
    exact hperm

private theorem Accounted.take (h : Accounted t s) (hm : s.move? .take = some s') :
    Accounted (t ++ [(s, .take)]) s' := by
  obtain ⟨w, hw, rfl⟩ := Option.map_eq_some_iff.1 hm
  rw [Sweeper.take?, Option.ite_none_right_eq_some] at hw
  obtain ⟨hr, hw⟩ := hw
  obtain ⟨⟨e, queue⟩, hq, rfl⟩ := Option.map_eq_some_iff.1 hw
  obtain ⟨l, hl, hsent, hwith, hperm⟩ := h.log
  have hc : s.sweeper.queue.closed = false := by
    rcases h.phase with h | ⟨hf, -⟩
    · exact h.2
    · rw [hr] at hf
      cases hf
  refine ⟨h.unsignalled, .inl ⟨hr, (Channel.closed_of_receive hq).trans hc⟩, l.receive,
    hl.receive hq, ?_, hwith, ?_⟩
  · rw [given_append]
    exact hsent.trans (List.append_nil _).symm
  · rw [hl.received_receive hq, served_append]
    simp only [served?, Option.toList_none, List.append_nil]
    rw [← List.append_assoc]
    exact hperm.append_right _

private theorem Accounted.expire (h : Accounted t s) (hm : s.move? .expire = some s') :
    Accounted (t ++ [(s, .expire)]) s' := by
  obtain ⟨⟨w, conns⟩, hw, rfl⟩ := Option.map_eq_some_iff.1 hm
  obtain ⟨e, he, hw⟩ := Option.map_eq_some_iff.1 hw
  cases hw
  obtain ⟨l, hl, hsent, hwith, hperm⟩ := h.log
  have hr : s.sweeper.phase = .running := by
    rw [Sweeper.due?, Option.ite_none_right_eq_some] at he
    exact he.1
  refine ⟨h.unsignalled, .inl ⟨hr, ?_⟩, l, hl, ?_, hwith, ?_⟩
  · rcases h.phase with h | ⟨hf, -⟩
    · exact h.2
    · rw [hr] at hf
      cases hf
  · rw [given_append]
    exact hsent.trans (List.append_nil _).symm
  · rw [served_append]
    simp only [served?, he, Option.toList_some, List.append_assoc, List.singleton_append]
    exact hperm.trans (.append_left _ (List.perm_cons_erase (Sweeper.of_due? he).1))

private theorem Accounted.finish (h : Accounted t s) (hm : s.move? .finish = some s') :
    Accounted (t ++ [(s, .finish)]) s' ∧ s.sweeper.Exhausted := by
  obtain ⟨w, hw, rfl⟩ := Option.map_eq_some_iff.1 hm
  rw [Sweeper.finish?, Option.ite_none_right_eq_some] at hw
  obtain ⟨⟨-, hx⟩, hw⟩ := hw
  cases hw
  have hx : s.sweeper.Exhausted := by
    rcases hx with hx | hx
    · rw [h.unsignalled] at hx
      cases hx
    · exact hx
  obtain ⟨ha, hi, hwait, hp⟩ := hx
  obtain ⟨l, hl, hsent, hwith, hperm⟩ := h.log
  refine ⟨⟨h.unsignalled, .inr ⟨rfl, ha, rfl, hwait, rfl⟩, l, hl.close hi, ?_, hwith, ?_⟩,
    ha, hi, hwait, hp⟩
  · rw [given_append]
    exact hsent.trans (List.append_nil _).symm
  · rw [served_append]
    rw [hp] at hperm
    simpa [served?, Sweeper.finish] using hperm

/-- Every move keeps account of the notices. -/
theorem Accounted.move (h : Accounted t s) (hm : s.move? m = some s') :
    Accounted (t ++ [(s, m)]) s' := by
  cases m with
  | push cid =>
    obtain ⟨ha, hm⟩ := Option.ite_none_right_eq_some.1 hm
    cases hm
    exact h.give ha rfl rfl rfl
  | pushAt cid deadline =>
    obtain ⟨ha, hm⟩ := Option.ite_none_right_eq_some.1 hm
    cases hm
    exact h.give ha rfl rfl rfl
  | wait ms | remove cid =>
    cases hm
    exact h.aside rfl rfl rfl
  | release =>
    cases hm
    obtain ⟨hu, hp, l, hl⟩ := h
    refine ⟨hu, hp.imp id fun h ↦ ⟨h.1, rfl, h.2.2⟩, l, ?_⟩
    rw [given_append, served_append]
    simpa [given?, served?, Sweeper.release] using hl
  | take => exact h.take hm
  | expire => exact h.expire hm
  | finish => exact (h.finish hm).1

/-- What has been accepted has been served, is pending or is still in the queue. -/
theorem Accounted.accepted_perm (h : Accounted t s) :
    (accepted t s).Perm (served t ++ s.sweeper.pending ++ s.sweeper.queue.items) := by
  obtain ⟨l, hl, hsent, hwith, hperm⟩ := h.log
  have hst : l.standing = List.range (given t).length := by
    rw [Channel.Log.standing, hwith, hsent]
    exact List.filter_eq_self.2 fun k _ ↦ rfl
  have hacc : accepted t s = (l.accepted s.sweeper.queue).filterMap (l.sent[·]?) := by
    rw [Channel.Log.accepted, hst, hsent]
    rfl
  rw [hacc, hl.filterMap_accepted]
  exact hperm.append_right _

/-- A sweeper at rest has taken every notice, and of those that it has not served the time has not
come. -/
theorem Accounted.of_settled (h : Accounted t s) (hs : s.Settled) :
    s.sweeper.queue.items = [] ∧ ∀ e ∈ s.sweeper.pending, s.now < e.deadline := by
  rcases h.phase with ⟨hr, -⟩ | ⟨-, -, hi, -, hp⟩
  · rw [Settled, Sweeper.work?] at hs
    split at hs
    · cases hs
    · split at hs
      · cases hs
      · next ht =>
        rw [Sweeper.take?, if_pos hr, Option.map_eq_none_iff, Channel.receive] at ht
        rw [Sweeper.expire?, Option.map_eq_none_iff] at hs
        refine ⟨?_, fun e he ↦ Sweeper.lt_deadline_of_due?_eq_none hr hs he⟩
        split at ht
        · next hi => exact hi
        · cases ht
  · exact ⟨hi, by rw [hp]; exact List.forall_mem_nil _⟩

private theorem accepted_eq_given (t : List (EvictionScene × Move))
    (hw : s.sweeper.queue.waiting = []) : accepted t s = given t := by
  have hall : ∀ k, s.sweeper.queue.delivery k = .accepted :=
    fun k ↦ by simp [Channel.delivery, hw]
  have hmap : (List.range (given t).length).map ((given t)[·]?) = (given t).map some := by
    apply List.ext_getElem <;> simp
  rw [accepted, List.filter_eq_self.2 fun k _ ↦ decide_eq_true (hall k)]
  exact Channel.filterMap_of_map_eq hmap

/-! ### What is closed -/

private theorem Closed.modify (h : s.Closed cid) {k : UInt64}
    (hc : s'.conns = s.conns.modify k .close) : s'.Closed cid := by
  obtain ⟨c, hf, hcl⟩ := h
  rw [Closed, hc, Connections.find?_modify]
  split
  · next hk =>
    subst hk
    exact ⟨c.close, by rw [hf]; rfl, rfl⟩
  · exact ⟨c, hf, hcl⟩

private theorem conns_of_expire (h : s.move? .expire = some s') :
    ∃ e, s.sweeper.due? s.now = some e ∧ s'.conns = (s.conns.close e.cid).2 := by
  obtain ⟨⟨w, conns⟩, hw, rfl⟩ := Option.map_eq_some_iff.1 h
  obtain ⟨e, he, hw⟩ := Option.map_eq_some_iff.1 hw
  cases hw
  exact ⟨e, he, rfl⟩

private theorem conns_of_move? (h : s.move? m = some s') :
    (∀ cid, s'.conns.find? cid = s.conns.find? cid) ∨
      ∃ e, s.sweeper.due? s.now = some e ∧ s'.conns = (s.conns.close e.cid).2 := by
  cases m with
  | push cid | pushAt cid deadline =>
    obtain ⟨-, h⟩ := Option.ite_none_right_eq_some.1 h
    cases h
    exact .inl fun _ ↦ rfl
  | wait ms | remove cid | release =>
    cases h
    exact .inl fun _ ↦ rfl
  | take | finish =>
    obtain ⟨w, -, rfl⟩ := Option.map_eq_some_iff.1 h
    exact .inl fun _ ↦ rfl
  | expire => exact .inr (conns_of_expire h)

/-- No move opens a connection. -/
theorem Closed.move (hc : s.Closed cid) (h : s.move? m = some s') : s'.Closed cid := by
  rcases conns_of_move? h with hf | ⟨e, -, he⟩
  · obtain ⟨c, hc, hcl⟩ := hc
    exact ⟨c, by rw [hf, hc], hcl⟩
  · rw [Connections.close] at he
    split at he
    · exact hc.modify he
    · obtain ⟨c, hc, hcl⟩ := hc
      exact ⟨c, by rw [he, hc], hcl⟩

private theorem due_of_closes (h : s.move? m = some s') (hopen : ¬ s.Closed cid)
    (hc : s'.Closed cid) : ∃ e, s.sweeper.due? s.now = some e ∧ e.cid = cid := by
  obtain ⟨c, hf, hcl⟩ := hc
  rcases conns_of_move? h with he | ⟨e, hd, he⟩
  · exact absurd ⟨c, by rw [← he, hf], hcl⟩ hopen
  · refine ⟨e, hd, ?_⟩
    rw [he, Connections.close] at hf
    split at hf
    · rw [Connections.find?_modify] at hf
      split at hf
      · next hk => exact hk.symm
      · exact absurd ⟨c, hf, hcl⟩ hopen
    · exact absurd ⟨c, hf, hcl⟩ hopen

private theorem closed_of_expire (h : s.move? .expire = some s') :
    ∃ e, s.sweeper.due? s.now = some e ∧
      (s.conns.isLive e.cid = false → s'.conns = s.conns) ∧
      ∀ c, s.conns.get? e.cid = some c → s'.Closed e.cid := by
  obtain ⟨e, hd, he⟩ := conns_of_expire h
  refine ⟨e, hd, fun hl ↦ ?_, fun c hc ↦ ?_⟩
  · rw [he, Connections.close, hl]
    rfl
  · rw [Connections.get?, Option.ite_none_right_eq_some] at hc
    obtain ⟨hl, hc⟩ := hc
    refine ⟨c.close, ?_, rfl⟩
    rw [he, Connections.close, if_pos hl, Connections.find?_modify, if_pos rfl, hc]
    rfl

/-! ### Whole runs -/

section Runs

variable {now capacity delay : Nat} {conns : Connections}

/-- In every run account is kept of the notices. -/
theorem accounted (h : Journal move? (running now conns capacity delay) t s) : Accounted t s := by
  induction h with
  | start => exact accounted_running now conns capacity delay
  | move _ hm ih => exact ih.move hm

private theorem closed_at_of_journal (h : Journal move? a t s) (hc : a.Closed cid) : s.Closed cid :=
  h.keeps (P := fun s ↦ s.Closed cid) hc fun _ _ _ hc hm ↦ Closed.move hc hm

/-- Whatever notices are given for whatever instants, with or without room for them, however late
the sweeper is and whatever becomes unreachable: what is closed is closed because a notice that
names it has been accepted and its time has come. A sweeper that has settled, as it always can
without waiting, has served every accepted notice of which the time has come as often as it was
given and no other. Serving closes what can be reached for good and does nothing if nothing can be
reached. And the sweeper ends only when nobody is left to give notice and every notice has been
accepted and served. -/
theorem evictions_exact (h : Journal move? (running now conns capacity delay) t s) :
    (∀ u v b m c cid, t = u ++ (b, m) :: v → b.move? m = some c → ¬ b.Closed cid →
      c.Closed cid → ∃ e ∈ accepted u b, e.cid = cid ∧ e.deadline ≤ b.now) ∧
    ((∃ w, Journal move? s w s.settle) ∧ s.settle.Settled ∧ s.settle.now = s.now) ∧
    (s.Settled → ∀ e, e.deadline ≤ s.now → (served t).count e = (accepted t s).count e) ∧
    (∀ b, (b, .expire) ∈ t → ∃ e c, b.served? .expire = some e ∧ e.deadline ≤ b.now ∧
      b.move? .expire = some c ∧ (b.conns.isLive e.cid = false → c.conns = b.conns) ∧
      ∀ d, b.conns.get? e.cid = some d → s.Closed e.cid) ∧
    ∀ u v b, t = u ++ (b, .finish) :: v →
      b.sweeper.attended = false ∧ accepted u b = given u ∧ (served u).Perm (given u) := by
  refine ⟨?_, ?_, ?_, ?_, ?_⟩
  · rintro u v b m c cid rfl hm hopen hc
    obtain ⟨e, hd, he⟩ := due_of_closes hm hopen hc
    obtain ⟨hp, hdl⟩ := Sweeper.of_due? hd
    refine ⟨e, ?_, he, hdl⟩
    rw [(accounted h.split.1).accepted_perm.mem_iff]
    exact List.mem_append_left _ (List.mem_append_right _ hp)
  · exact ⟨s.journal_settle, s.settled_settle, rfl⟩
  · intro hs e he
    obtain ⟨hi, hlate⟩ := (accounted h).of_settled hs
    have hpending : s.sweeper.pending.count e = 0 := by
      rw [List.count_eq_zero]
      intro hm
      have := hlate e hm
      omega
    rw [(accounted h).accepted_perm.count_eq e, hi, List.append_nil, List.count_append, hpending,
      Nat.add_zero]
  · intro b hb
    obtain ⟨u, v, c, rfl, hu, hm, hv⟩ := h.split_of_mem hb
    obtain ⟨e, hd, hgone, hclosed⟩ := closed_of_expire hm
    exact ⟨e, c, hd, (Sweeper.of_due? hd).2, hm, hgone,
      fun d hd ↦ closed_at_of_journal hv (hclosed d hd)⟩
  · rintro u v b rfl
    obtain ⟨hu, c, hm, -⟩ := h.split
    obtain ⟨-, ha, hi, hw, hp⟩ := (accounted hu).finish hm
    have hall := accepted_eq_given u hw
    have hperm := (accounted hu).accepted_perm
    rw [hall, hp, hi, List.append_nil, List.append_nil] at hperm
    exact ⟨ha, hall, hperm.symm⟩

end Runs

/-- The first of two connections is given notice, and then the second one, which has to wait for
room although its time has come. -/
def overdue : List Move := [.push 1, .pushAt 2 0, .take, .take, .expire]

/-- The second one does not wait for the first one to be closed. -/
theorem evictions_exact_overdue :
    ∃ t s, Journal move? (running 0 (start 2 1 60).conns 1 60) t s ∧
      t.map Prod.snd = overdue ∧ s.Settled ∧ (served t).count ⟨2, 0⟩ = 1 ∧ s.Closed 2 ∧
      ¬ s.Closed 1 := by
  have hview : (Journal.write? move? (running 0 (start 2 1 60).conns 1 60) overdue).map (fun r ↦
      ((r.2.sweeper.work? r.2.now r.2.conns).isNone, r.2.now, accepted r.1 r.2,
        r.1.all fun p ↦ (p.1.conns.get? 2).isSome, (r.2.conns.find? 1).map (·.closed))) =
      some (true, 0, [⟨1, 60⟩, ⟨2, 0⟩], true, some false) := by decide +kernel
  obtain ⟨⟨t, s⟩, hrun, hv⟩ := Option.map_eq_some_iff.1 hview
  simp only [Prod.mk.injEq] at hv
  obtain ⟨hsettled, hnow, hacc, hlive, hopen⟩ := hv
  obtain ⟨h, hmoves⟩ := Journal.of_write? hrun
  obtain ⟨-, -, hserved, hclosed, -⟩ := evictions_exact h
  have hset : s.Settled := Option.isNone_iff_eq_none.1 hsettled
  have hcount : (served t).count ⟨2, 0⟩ = 1 := by
    rw [hserved hset ⟨2, 0⟩ (Nat.zero_le _), hacc]
    decide
  refine ⟨t, s, h, hmoves, hset, hcount, ?_, ?_⟩
  · have hmem : (⟨2, 0⟩ : Eviction) ∈ served t := List.count_pos_iff.1 (by omega)
    obtain ⟨⟨b, m⟩, hb, hs⟩ := List.mem_filterMap.1 hmem
    cases m with
    | expire =>
      obtain ⟨e, -, he, -, -, -, hc⟩ := hclosed b hb
      cases hs.symm.trans he
      obtain ⟨d, hd⟩ := Option.isSome_iff_exists.1 (List.all_eq_true.1 hlive _ hb)
      exact hc d hd
    | _ => cases hs
  · rintro ⟨c, hc, hcl⟩
    rw [hc, Option.map_some, hcl] at hopen
    cases hopen

end EvictionScene

end EdgeGateway
