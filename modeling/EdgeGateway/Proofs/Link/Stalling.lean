import EdgeGateway.Proofs.Channel.Line
import EdgeGateway.Proofs.Link.Calls
import EdgeGateway.Proofs.Link.Launching
import EdgeGateway.Proofs.Link.Posts

/-!
# What links can do without the backend

A link that writes comes further only if the backend takes bytes, and one that dials comes to be
connected only if the backend accepts. So without the backend a link can take at most one more frame
off the queue that all links share, and it can be left with nothing to do at all: `AwaitsBackend`
says when. The main statements are `hands_of_move?`, `AwaitsBackend.move` and their converses
`accepted_of_hands` and `exists_move`.
-/

namespace EdgeGateway

variable {κ : Type}

/-- Nothing that serves the link can go on before the backend does something: the link introduces
itself, or everybody has been told to stop and has ended, but for a writer that is at a frame. -/
def LinkPhase.AwaitsBackend : LinkPhase κ → Prop
  | .greeting .. => True
  | .serving s => s.stopping = true ∧ s.reader = .ended ∧ (∀ x ∈ s.workers, x = .ended) ∧
      ∃ f left, s.writer = .writing f left
  | _ => False

/-- The writer of a link could take the next frame off the queue that all links share. -/
def Link.free (l : Link κ) : Bool :=
  l.service?.any fun s ↦ s.writer = .idle ∧ s.stopping = false ∧ l.system.items = []

namespace Pool

/-- A move that takes the backend: it accepts a connection, takes bytes, or gives a connection up.
-/
def Move.Aided : Move → Prop
  | .connect _ | .transmit .. | .failWrite _ => True
  | _ => False

/-- The link that moves, unless it is the clock of the liveness questions. -/
def Move.link? : Move → Option Nat
  | .connect i | .refuse i | .wake i | .halt i | .transmit i _ | .failWrite i | .fetchOutbound i
  | .stopWriter i | .read i | .readOn i | .stopReader i | .readLast i | .stopWorker i _
  | .supervise i _ | .conclude i => some i
  | .tick | .stopTicker => none

/-- The number of frames that the links can take off the queue they share before the backend does
something. -/
def hands (p : Pool κ) : Nat := p.links.countP Link.free

/-- A link is left with nothing to do before the backend does something. -/
def AwaitsBackend (p : Pool κ) (i : Nat) : Prop :=
  ∃ l, p.links[i]? = some l ∧ l.phase.AwaitsBackend

/-- Whoever waits with a ticket for room in the queue of frames that go out is not let in before the
backend does something: no more frames can be taken than stand before. -/
def Short (p : Pool κ) (ticket : Nat) : Prop :=
  p.outbound.delivery ticket = .pending ∧ p.hands ≤ p.outbound.ahead ticket

/-- No link of a pool that has been launched has not been. -/
def Awake (p : Pool κ) : Prop :=
  p.ticker ≠ .unlaunched → ∀ l ∈ p.links, l.phase ≠ .unlaunched

/-- What a move of one link does to the links and to the queue of frames that go out. -/
structure Moves (p : Pool κ) (m : Move) (i : Nat) (l k : Link κ) (q : Pool κ) : Prop where
  at_link : p.links[i]? = some l
  links : q.links = p.links.set i k
  launched : k.phase ≠ .unlaunched
  ticker : q.ticker = p.ticker
  stopping : q.stopping = p.stopping
  aided : l.phase.AwaitsBackend → m.Aided
  outbound : m.Aided ∨ (k.free = true → l.free = true) ∧ q.outbound = p.outbound ∨
    l.free = true ∧ k.free = false ∧ ∃ f, p.outbound.receive = some (f, q.outbound)

variable {p q : Pool κ} {m : Move} {i now ticket : Nat} {l k : Link κ} {s t : Service κ}

private theorem free_iff : l.free = true ↔
    ∃ s, l.phase = .serving s ∧ s.writer = .idle ∧ s.stopping = false ∧
      l.system.items = [] := by
  rw [Link.free, Link.service?]
  cases l.phase <;> simp

private theorem free_mono (hp : l.phase = .serving s) (hk : k.phase = .serving t)
    (hw : t.writer = .idle → s.writer = .idle) (hs : t.stopping = false → s.stopping = false)
    (hq : k.system.items = [] → l.system.items = []) (hf : k.free = true) : l.free = true := by
  obtain ⟨u, hu, hw', hs', hq'⟩ := free_iff.1 hf
  cases hk.symm.trans hu
  exact free_iff.2 ⟨s, hp, hw hw', hs hs', hq hq'⟩

private theorem items_offer {α : Type} {c : Channel α} {a : α} (h : (c.offer a).items = []) :
    c.items = [] := by
  rw [Channel.offer] at h
  split at h
  · simp at h
  · exact h

private theorem not_awaitsBackend_of_reader (h : s.reader ≠ .ended) :
    ¬ (LinkPhase.serving s).AwaitsBackend := fun ha ↦ h ha.2.1

private theorem not_awaitsBackend_of_writer (h : s.writer = .idle ∨ s.writer = .ended) :
    ¬ (LinkPhase.serving s).AwaitsBackend := by
  rintro ⟨-, -, -, f, left, hw⟩
  rw [hw] at h
  rcases h with h | h <;> cases h

/-! ### The moves -/

private theorem Moves.serve (hs : p.service? i = some (l, s)) (hlinks : q.links = p.links.set i k)
    (hk : k.phase = .serving t) (ht : q.ticker = p.ticker) (hst : q.stopping = p.stopping)
    (ho : q.outbound = p.outbound) (hrest : ¬ (LinkPhase.serving s).AwaitsBackend)
    (hf : k.free = true → l.free = true) : p.Moves m i l k q := by
  obtain ⟨hl, hp⟩ := serving_of_service? hs
  refine ⟨hl, hlinks, ?_, ht, hst, fun ha ↦ absurd (hp ▸ ha) hrest,
    .inr (.inl ⟨hf, ho⟩)⟩
  rw [hk]
  nofun

private theorem Moves.unserved (hl : p.links[i]? = some l) (hlinks : q.links = p.links.set i k)
    (hk : k.free = false) (ht : q.ticker = p.ticker) (hst : q.stopping = p.stopping)
    (ho : q.outbound = p.outbound) (hu : k.phase ≠ .unlaunched)
    (hrest : ¬ l.phase.AwaitsBackend) : p.Moves m i l k q :=
  ⟨hl, hlinks, hu, ht, hst, fun ha ↦ absurd ha hrest,
    .inr (.inl ⟨fun hf ↦ absurd hf (by rw [hk]; nofun), ho⟩)⟩

private theorem moves_accept (hs : p.service? i = some (l, s))
    (hrest : ¬ (LinkPhase.serving s).AwaitsBackend) (f : Frame) :
    ∃ k, p.Moves m i l k (p.accept i l s f) := by
  obtain ⟨hl, hp⟩ := serving_of_service? hs
  rw [accept]
  split
  · split
    · exact ⟨_, .serve hs rfl hp rfl rfl rfl hrest (free_mono hp hp id id items_offer)⟩
    · exact ⟨l, .serve hs (Posts.set_of_getElem? hl).symm hp rfl rfl rfl hrest id⟩
  · exact ⟨_, .serve hs rfl rfl rfl rfl rfl hrest (free_mono hp rfl id id id)⟩

private theorem moves_read (h : p.read i = some q) : ∃ l k, p.Moves m i l k q := by
  obtain ⟨⟨l, s⟩, hs, h⟩ := Option.bind_eq_some_iff.1 h
  obtain ⟨hl, hp⟩ := serving_of_service? hs
  simp only at h
  split at h
  · cases h
  · next hr =>
    have hreading : s.reader = .reading := Decidable.not_not.1 hr
    have hrest := not_awaitsBackend_of_reader (s := s) (by rw [hreading]; nofun)
    obtain ⟨w, -, h⟩ := Option.bind_eq_some_iff.1 h
    split at h <;> cases h
    · exact ⟨l, _, .serve hs rfl rfl rfl rfl rfl hrest (free_mono hp rfl id id id)⟩
    · exact ⟨l, l, .serve hs (Posts.set_of_getElem? hl).symm hp rfl rfl rfl hrest id⟩
    · obtain ⟨k, hk⟩ := moves_accept (p := p.modifyWire s.wire _) (m := m) hs hrest _
      exact ⟨l, k, hk.at_link, hk.links, hk.launched, hk.ticker, hk.stopping, hk.aided,
        hk.outbound⟩

private theorem moves_readLast (h : p.readLast i = some q) : ∃ l k, p.Moves m i l k q := by
  obtain ⟨⟨l, s⟩, hs, h⟩ := Option.bind_eq_some_iff.1 h
  obtain ⟨-, hp⟩ := serving_of_service? hs
  simp only at h
  split at h
  · cases h
  · next hr =>
    have hreading : s.reader = .reading := Decidable.not_not.1 fun hne ↦ hr (.inl hne)
    have hrest := not_awaitsBackend_of_reader (s := s) (by rw [hreading]; nofun)
    obtain ⟨w, -, h⟩ := Option.bind_eq_some_iff.1 h
    split at h
    · split at h <;> cases h
      exact ⟨l, _, .serve hs rfl rfl rfl rfl rfl hrest (free_mono hp rfl id id id)⟩
    · cases h

private theorem moves_fetchOutbound (h : p.fetchOutbound i = some q) :
    ∃ l k, p.Moves m i l k q := by
  obtain ⟨⟨l, s⟩, hs, h⟩ := Option.bind_eq_some_iff.1 h
  obtain ⟨hl, hp⟩ := serving_of_service? hs
  simp only at h
  split at h
  · cases h
  · next hw =>
    obtain ⟨hidle, hstop⟩ := not_or.1 hw
    have hidle : s.writer = .idle := Decidable.not_not.1 hidle
    have hrest : ¬ (LinkPhase.serving s).AwaitsBackend := fun ha ↦ hstop ha.1
    split at h
    · cases h
      exact ⟨l, _, .unserved hl rfl rfl rfl rfl rfl (by rintro ⟨⟩) (by rwa [hp])⟩
    · next hsys =>
      obtain ⟨⟨f, outbound⟩, ho, h⟩ := Option.bind_eq_some_iff.1 h
      cases h
      have hitems : l.system.items = [] := by
        rw [Channel.receive] at hsys
        split at hsys
        · assumption
        · cases hsys
      exact ⟨l, _, hl, rfl, by rintro ⟨⟩, rfl, rfl, fun ha ↦ absurd (hp ▸ ha) hrest,
        .inr (.inr ⟨free_iff.2 ⟨s, hp, hidle, by simpa using hstop, hitems⟩, rfl, f, ho⟩)⟩

private theorem launched_afterWrite {x : Nat × Frame × Bytes} (hh : p.held? i = some x)
    (hl : p.links[i]? = some l) (left : Bytes) : (p.afterWrite l left).phase ≠ .unlaunched := by
  rw [afterWrite]
  split
  · split <;> rintro ⟨⟩
  · next hp =>
    split
    · rintro ⟨⟩
    · rw [hp]
      rintro ⟨⟩
  · next hg hs =>
    obtain ⟨l', hl', hh⟩ := Option.bind_eq_some_iff.1 hh
    cases hl.symm.trans hl'
    split at hh
    · next hp => exact absurd hp (hg _ _)
    · next hp => exact absurd hp (hs _)
    · cases hh

private theorem moves_stopWorker {w : Nat} (h : p.stopWorker i w = some q) :
    ∃ l k, p.Moves m i l k q := by
  obtain ⟨⟨l, s⟩, hs, h⟩ := Option.bind_eq_some_iff.1 h
  obtain ⟨-, hp⟩ := serving_of_service? hs
  obtain ⟨x, hx, h⟩ := Option.bind_eq_some_iff.1 h
  split at h
  · have hrest : ¬ (LinkPhase.serving s).AwaitsBackend := by
      rintro ⟨-, -, he, -⟩
      cases he _ (List.mem_of_getElem? hx)
    split at h <;> cases h
    simp only [setWorker, hs]
    exact ⟨l, _, .serve hs rfl rfl rfl rfl rfl hrest (free_mono hp rfl id id id)⟩
  · cases h

/-- What a move does that is one link's. -/
theorem moves_of_move? (h : p.move? now m = some q) (hi : m.link? = some i) :
    ∃ l k, p.Moves m i l k q := by
  cases m with
  | connect j | refuse j =>
    cases hi
    obtain ⟨l, hl, h⟩ := Option.bind_eq_some_iff.1 h
    split at h <;> cases h
    next hp => exact ⟨l, _, .unserved hl rfl rfl rfl rfl rfl nofun (by rw [hp]; exact id)⟩
  | wake j =>
    cases hi
    obtain ⟨l, hl, h⟩ := Option.bind_eq_some_iff.1 h
    split at h
    · next hp =>
      split at h <;> cases h
      exact ⟨l, _, .unserved hl rfl rfl rfl rfl rfl nofun (by rw [hp]; exact id)⟩
    · cases h
  | halt j =>
    cases hi
    obtain ⟨l, hl, h⟩ := Option.bind_eq_some_iff.1 h
    split at h
    · cases h
    · split at h <;> cases h
      all_goals
        next hp => exact ⟨l, _, .unserved hl rfl rfl rfl rfl rfl nofun (by rw [hp]; exact id)⟩
  | transmit j n =>
    cases hi
    obtain ⟨⟨w, f, left⟩, hh, h⟩ := Option.bind_eq_some_iff.1 h
    obtain ⟨l, hl, h⟩ := Option.bind_eq_some_iff.1 h
    split at h <;> cases h
    exact ⟨l, _, hl, rfl, launched_afterWrite hh hl _, rfl, rfl, fun _ ↦ trivial,
      .inl trivial⟩
  | failWrite j =>
    cases hi
    obtain ⟨⟨w, f, left⟩, -, h⟩ := Option.bind_eq_some_iff.1 h
    obtain ⟨l, hl, h⟩ := Option.bind_eq_some_iff.1 h
    simp only at h
    split at h <;> cases h
    · exact ⟨l, _, hl, rfl, nofun, rfl, rfl, fun _ ↦ trivial, .inl trivial⟩
    · exact ⟨l, _, hl, rfl, nofun, rfl, rfl, fun _ ↦ trivial, .inl trivial⟩
  | fetchOutbound j =>
    cases hi
    exact moves_fetchOutbound h
  | read j =>
    cases hi
    exact moves_read h
  | readLast j =>
    cases hi
    exact moves_readLast h
  | stopWorker j w =>
    cases hi
    exact moves_stopWorker h
  | stopWriter j =>
    cases hi
    obtain ⟨⟨l, s⟩, hs, h⟩ := Option.bind_eq_some_iff.1 h
    simp only at h
    split at h <;> cases h
    next hw =>
    exact ⟨l, _, .serve hs rfl rfl rfl rfl rfl (not_awaitsBackend_of_writer (.inl hw.1)) nofun⟩
  | readOn j =>
    cases hi
    obtain ⟨⟨l, s⟩, hs, h⟩ := Option.bind_eq_some_iff.1 h
    obtain ⟨-, hp⟩ := serving_of_service? hs
    simp only at h
    split at h
    · next hr =>
      have hrest := not_awaitsBackend_of_reader (s := s) (by rw [hr]; nofun)
      split at h <;> cases h
      exact ⟨l, _, .serve hs rfl rfl rfl rfl rfl hrest (free_mono hp rfl id id id)⟩
    · cases h
  | stopReader j =>
    cases hi
    obtain ⟨⟨l, s⟩, hs, h⟩ := Option.bind_eq_some_iff.1 h
    obtain ⟨-, hp⟩ := serving_of_service? hs
    simp only at h
    split at h
    · cases h
    · split at h <;> cases h
      all_goals
        next hr =>
        have hrest := not_awaitsBackend_of_reader (s := s) (by rw [hr]; nofun)
        exact ⟨l, _, .serve hs rfl rfl rfl rfl rfl hrest (free_mono hp rfl id id id)⟩
  | supervise j final =>
    cases hi
    obtain ⟨⟨l, s⟩, hs, h⟩ := Option.bind_eq_some_iff.1 h
    obtain ⟨-, hp⟩ := serving_of_service? hs
    simp only at h
    split at h
    · cases h
    · next hst =>
      obtain ⟨-, h⟩ := Option.ite_none_right_eq_some.1 h
      cases h
      exact ⟨l, _,
        .serve hs rfl rfl rfl rfl rfl (fun ha ↦ hst ha.1) (free_mono hp rfl id nofun id)⟩
  | conclude j =>
    cases hi
    obtain ⟨⟨l, s⟩, hs, h⟩ := Option.bind_eq_some_iff.1 h
    obtain ⟨hl, hp⟩ := serving_of_service? hs
    simp only at h
    split at h
    · next hended =>
      have hrest : ¬ l.phase.AwaitsBackend := by
        rw [hp]
        exact not_awaitsBackend_of_writer (.inr hended.2.2.1)
      split at h <;> cases h
      · exact ⟨l, _, .unserved hl rfl rfl rfl rfl rfl nofun hrest⟩
      · exact ⟨l, _, .unserved hl rfl rfl rfl rfl rfl nofun hrest⟩
    · cases h
  | tick | stopTicker => cases hi

/-! ### What is kept without the backend -/

/-- A new pool has not been launched, so none of its links need be awake. -/
theorem awake_fresh (s : LinkSettings) : (fresh s : Pool κ).Awake := fun h ↦ absurd rfl h

/-- After the launch no link sleeps. -/
theorem Awake.launch (h : p.Awake) (now : Nat) : (p.launch now).Awake := by
  rw [Pool.launch]
  split
  · intro _ l hl
    obtain ⟨k, -, rfl⟩ := List.mem_map.1 hl
    rintro ⟨⟩
  · exact h

private theorem phase_question (p : Pool κ) (l : Link κ) : (p.question l).phase = l.phase := by
  rw [question]
  split <;> rfl

/-- The clock of the liveness questions leaves the links as they are, but for what they have to ask.
-/
theorem clock_of_move? (h : p.move? now m = some q) (hi : m.link? = none) :
    (q.links = p.links ∨ q.links = p.links.map p.question) ∧ p.ticker ≠ .unlaunched ∧
      q.ticker ≠ .unlaunched ∧ q.stopping = p.stopping ∧ q.outbound = p.outbound := by
  cases m with
  | tick =>
    simp only [move?, tick] at h
    split at h
    · next ht =>
      split at h <;> cases h
      exact ⟨.inr rfl, by rw [ht]; rintro ⟨⟩, by rintro ⟨⟩, rfl, rfl⟩
    · cases h
  | stopTicker =>
    simp only [move?, stopTicker] at h
    split at h
    · next ht =>
      split at h <;> cases h
      exact ⟨.inl rfl, by rw [ht]; rintro ⟨⟩, by rintro ⟨⟩, rfl, rfl⟩
    · cases h
  | _ => cases hi

/-- The launch is not taken back, nor is the shutdown signal. -/
theorem onward_of_move? (h : p.move? now m = some q) :
    (p.ticker ≠ .unlaunched → q.ticker ≠ .unlaunched) ∧ q.stopping = p.stopping := by
  cases hi : m.link? with
  | none =>
    obtain ⟨-, -, ht, hs, -⟩ := clock_of_move? h hi
    exact ⟨fun _ ↦ ht, hs⟩
  | some i =>
    obtain ⟨l, k, hm⟩ := moves_of_move? h hi
    exact ⟨fun ht ↦ by rwa [hm.ticker], hm.stopping⟩

/-- No link that has been launched is unlaunched again. -/
theorem Awake.move (hp : p.Awake) (h : p.move? now m = some q) : q.Awake := by
  cases hi : m.link? with
  | none =>
    obtain ⟨hq | hq, ht, -⟩ := clock_of_move? h hi <;> intro _ l hl <;> rw [hq] at hl
    · exact hp ht l hl
    · obtain ⟨k, hk, rfl⟩ := List.mem_map.1 hl
      rw [phase_question]
      exact hp ht k hk
  | some i =>
    obtain ⟨l, k, hm⟩ := moves_of_move? h hi
    intro ht x hx
    rw [hm.links] at hx
    rcases List.mem_or_eq_of_mem_set hx with hx | rfl
    · exact hp (by rwa [hm.ticker] at ht) x hx
    · exact hm.launched

private theorem free_question (p : Pool κ) (l : Link κ) (hf : (p.question l).free = true) :
    l.free = true := by
  obtain ⟨s, hs, hw, hst, hq⟩ := free_iff.1 hf
  rw [phase_question] at hs
  refine free_iff.2 ⟨s, hs, hw, hst, ?_⟩
  rw [question] at hq
  split at hq
  · exact items_offer hq
  · exact hq

private theorem countP_set_le {α : Type} {f : α → Bool} {xs : List α} {x y : α}
    (hx : xs[i]? = some x) (hf : f y = true → f x = true) :
    (xs.set i y).countP f ≤ xs.countP f := by
  obtain ⟨hi, rfl⟩ := List.getElem?_eq_some_iff.1 hx
  rw [List.countP_set hi]
  by_cases hy : f y = true
  · have hpos : 0 < xs.countP f := List.countP_pos_iff.2 ⟨xs[i], List.getElem_mem hi, hf hy⟩
    rw [if_pos (hf hy), if_pos hy]
    omega
  · rw [if_neg hy]
    exact Nat.sub_le ..

private theorem countP_set_of_false {α : Type} {f : α → Bool} {xs : List α} {x y : α}
    (hx : xs[i]? = some x) (hf : f x = true) (hy : f y = false) :
    (xs.set i y).countP f + 1 = xs.countP f := by
  obtain ⟨hi, rfl⟩ := List.getElem?_eq_some_iff.1 hx
  have hpos : 0 < xs.countP f := List.countP_pos_iff.2 ⟨xs[i], List.getElem_mem hi, hf⟩
  rw [List.countP_set hi, if_pos hf, if_neg (by rw [hy]; nofun)]
  omega

/-- Without the backend the number of frames that can be taken does not grow, and every one that is
taken counts. -/
theorem hands_of_move? (h : p.move? now m = some q) (hm : ¬ m.Aided) :
    q.hands ≤ p.hands ∧ q.outbound = p.outbound ∨
      q.hands + 1 = p.hands ∧ ∃ f, p.outbound.receive = some (f, q.outbound) := by
  cases hi : m.link? with
  | none =>
    obtain ⟨hq, -, -, -, ho⟩ := clock_of_move? h hi
    refine .inl ⟨?_, ho⟩
    obtain hq | hq := hq
    · exact Nat.le_of_eq (congrArg (List.countP Link.free) hq)
    · rw [hands, hands, hq, List.countP_map]
      exact List.countP_mono_left fun l _ ↦ p.free_question l
  | some i =>
    obtain ⟨l, k, hm'⟩ := moves_of_move? h hi
    rw [hands, hands, hm'.links]
    obtain ha | ⟨hf, ho⟩ | ⟨hl, hk, hr⟩ := hm'.outbound
    · exact absurd ha hm
    · exact .inl ⟨countP_set_le hm'.at_link hf, ho⟩
    · exact .inr ⟨countP_set_of_false hm'.at_link hl hk, hr⟩

/-- Who is short of room stays so without the backend. -/
theorem Short.move (hp : p.Short ticket) (hline : p.outbound.InLine) (h : p.move? now m = some q)
    (hm : ¬ m.Aided) : q.Short ticket := by
  obtain ⟨hw, hle⟩ := hp
  obtain ⟨hh, ho⟩ | ⟨hh, f, hr⟩ := hands_of_move? h hm
  · rw [Short, ho]
    exact ⟨hw, Nat.le_trans hh hle⟩
  · obtain ⟨hw', ha⟩ := Channel.ahead_receive hline hr hw (by omega)
    exact ⟨hw', by omega⟩

/-- Whoever sends something makes room for nobody. -/
theorem Short.send (hp : p.Short ticket) (hline : p.outbound.InLine) (f : Frame) :
    (p.send f).2.Short ticket :=
  ⟨Channel.pending_send hp.1 f, (Channel.ahead_send hline hp.1 f).symm ▸ hp.2⟩

/-- A link that awaits the backend does not move without it, and whatever else moves without it
leaves the link there. -/
theorem AwaitsBackend.move (hp : p.AwaitsBackend i) (h : p.move? now m = some q) (hm : ¬ m.Aided) :
    m.link? ≠ some i ∧ q.AwaitsBackend i := by
  obtain ⟨l, hl, ha⟩ := hp
  cases hi : m.link? with
  | none =>
    obtain ⟨hq | hq, -⟩ := clock_of_move? h hi
    · exact ⟨nofun, l, by rw [hq, hl], ha⟩
    · exact ⟨nofun, p.question l,
        by rw [hq, List.getElem?_map, hl]; rfl, by rwa [phase_question]⟩
  | some j =>
    obtain ⟨x, k, hx⟩ := moves_of_move? h hi
    by_cases hij : j = i
    · subst hij
      cases hl.symm.trans hx.at_link
      exact absurd (hx.aided ha) hm
    · exact ⟨fun he ↦ hij (Option.some.inj he), l,
        by rw [hx.links, List.getElem?_set_ne hij, hl], ha⟩

/-- All workers of a link that awaits the backend have ended. -/
theorem AwaitsBackend.worker (hp : p.AwaitsBackend i) {w : Nat} {y : Worker κ}
    (hy : p.worker? i w = some y) : y = .ended := by
  obtain ⟨l, hl, ha⟩ := hp
  obtain ⟨⟨l', s⟩, hs, hy⟩ := Option.bind_eq_some_iff.1 hy
  obtain ⟨hl', hs⟩ := serving_of_service? hs
  cases hl.symm.trans hl'
  rw [hs] at ha
  exact ha.2.2.1 y (List.mem_of_getElem? hy)

/-- What another worker is given leaves a link waiting for the backend. -/
theorem AwaitsBackend.setWorker (hp : p.AwaitsBackend i) {j w : Nat} {y : Worker κ}
    (hy : p.worker? j w = some y) (hn : y ≠ .ended) (x : Worker κ) :
    (p.setWorker j w x).AwaitsBackend i := by
  have hij : j ≠ i := by
    rintro rfl
    exact hn (hp.worker hy)
  obtain ⟨l, hl, ha⟩ := hp
  rw [Pool.setWorker]
  split
  · exact ⟨l, (List.getElem?_set_ne hij).trans hl, ha⟩
  · exact ⟨l, hl, ha⟩

/-- What a worker has in hand wakes nobody and puts nobody to sleep. -/
theorem Awake.setWorker (h : p.Awake) (j w : Nat) (x : Worker κ) : (p.setWorker j w x).Awake := by
  rw [Pool.setWorker]
  split
  · intro ht l hl
    rcases List.mem_or_eq_of_mem_set hl with hl | rfl
    · exact h ht l hl
    · rintro ⟨⟩
  · exact h

private theorem hands_setWorker (p : Pool κ) (j w : Nat) (x : Worker κ) :
    (p.setWorker j w x).hands ≤ p.hands := by
  rw [setWorker]
  split
  · next l s hs =>
    obtain ⟨hl, hp⟩ := serving_of_service? hs
    exact countP_set_le hl (free_mono hp rfl id id id)
  · exact Nat.le_refl _

/-- What a worker has in hand is no matter of the outbound queue. -/
theorem outbound_setWorker (p : Pool κ) (j w : Nat) (x : Worker κ) :
    (p.setWorker j w x).outbound = p.outbound := by
  rw [setWorker]
  split <;> rfl

/-- What a worker has in hand frees no writer. -/
theorem Short.setWorker (hp : p.Short ticket) (j w : Nat) (x : Worker κ) :
    (p.setWorker j w x).Short ticket := by
  rw [Short, outbound_setWorker]
  exact ⟨hp.1, Nat.le_trans (p.hands_setWorker j w x) hp.2⟩

/-! ### What can be done without the backend -/

private theorem exists_fetchOutbound (hh : 0 < p.hands) {f : Frame} {c : Channel Frame}
    (hr : p.outbound.receive = some (f, c)) :
    ∃ i q, p.fetchOutbound i = some q ∧ q.outbound = c ∧ q.hands + 1 = p.hands := by
  obtain ⟨l, hl, hf⟩ := List.countP_pos_iff.1 hh
  obtain ⟨i, hi⟩ := List.mem_iff_getElem?.1 hl
  obtain ⟨s, hs, hw, hst, hq⟩ := free_iff.1 hf
  have hserv : p.service? i = some (l, s) := by simp [service?, hi, Link.service?, hs]
  have hsys : l.system.receive = none := by rw [Channel.receive, hq]
  refine ⟨i, { p.setLink i (l.serve { s with writer := .writing f f.bytes }) with outbound := c },
    ?_,
    rfl, countP_set_of_false hi hf rfl⟩
  simp [fetchOutbound, hserv, hw, hst, hsys, hr]

/-- Whoever waits for room in the queue of frames that go out is let in without the backend if the
links can take more frames than stand before. -/
theorem accepted_of_hands (hline : p.outbound.InLine)
    (hp : p.outbound.delivery ticket = .pending) (hh : p.outbound.ahead ticket < p.hands) :
    ∃ is q, List.foldlM fetchOutbound p is = some q ∧
      q.outbound.delivery ticket = .accepted := by
  induction hn : p.hands generalizing p with
  | zero => omega
  | succ n ih =>
    obtain ⟨f, c, hr⟩ := hline.exists_receive_of_pending hp
    obtain ⟨i, q, hi, rfl, hq⟩ := exists_fetchOutbound (by omega) hr
    by_cases ha : p.outbound.ahead ticket = 0
    · exact ⟨[i], q, by simp [hi], Channel.accepted_of_receive hline hr hp ha⟩
    · obtain ⟨hp', ha'⟩ := Channel.ahead_receive hline hr hp (Nat.pos_of_ne_zero ha)
      obtain ⟨is, q', his, hq'⟩ := ih (hline.receive hr) hp' (by omega) (by omega)
      exact ⟨i :: is, q', by simp [hi, his], hq'⟩

/-- A link that has been told to stop for good can do something without the backend, or one of its
workers has something to handle, unless it has stopped or awaits the backend. -/
theorem exists_move (hl : p.links[i]? = some l) (hst : p.stopping = true)
    (hu : l.phase ≠ .unlaunched) (hs : l.phase ≠ .stopped) (ha : ¬ l.phase.AwaitsBackend)
    (now : Nat) : (∃ m : Move, ¬ m.Aided ∧ m.link? = some i ∧ (p.move? now m).isSome) ∨
      ∃ w d, p.worker? i w = some (.busy d) := by
  cases hp : l.phase with
  | unlaunched => exact absurd hp hu
  | stopped => exact absurd hp hs
  | greeting wire left => exact absurd (by rw [hp]; trivial) ha
  | dialing | resting wakeAt =>
    exact .inl ⟨.halt i, id, rfl, by simp [move?, halt, hl, hst, hp]⟩
  | serving s =>
    have hserv : p.service? i = some (l, s) := by simp [service?, hl, Link.service?, hp]
    by_cases hstop : s.stopping = true
    · cases hr : s.reader with
      | reading | offering ticket =>
        exact .inl ⟨.stopReader i, id, rfl, by simp [move?, stopReader, hserv, hstop, hr]⟩
      | ended =>
        by_cases hw : ∀ x ∈ s.workers, x = .ended
        · cases hwr : s.writer with
          | idle =>
            exact .inl ⟨.stopWriter i, id, rfl, by simp [move?, stopWriter, hserv, hstop, hwr]⟩
          | writing f left => exact absurd (by rw [hp]; exact ⟨hstop, hr, hw, f, left, hwr⟩) ha
          | ended =>
            have hended : s.AllEnded := ⟨hr, hwr, fun x hx ↦ by rw [hw x hx]⟩
            refine .inl ⟨.conclude i, id, rfl, ?_⟩
            simp only [move?, conclude, hserv, Option.bind_eq_bind, Option.bind_some,
              if_pos (And.intro hstop hended)]
            split <;> rfl
        · obtain ⟨x, hx⟩ := Classical.not_forall.1 hw
          obtain ⟨hx, hne⟩ := Classical.not_imp.1 hx
          obtain ⟨w, hxw⟩ := List.mem_iff_getElem?.1 hx
          cases x with
          | idle =>
            exact .inl
              ⟨.stopWorker i w, id, rfl, by simp [move?, stopWorker, hserv, hxw, hstop]⟩
          | busy d => exact .inr ⟨w, d, by simp [worker?, hserv, hxw]⟩
          | ended => exact absurd rfl hne
    · exact .inl ⟨.supervise i true, id, rfl, by simp [move?, supervise, hserv, hstop, hst]⟩

end Pool

end EdgeGateway
