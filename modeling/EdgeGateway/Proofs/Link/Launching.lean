import EdgeGateway.Link.Forwarder

/-!
# Before the launch

As long as a pool has not been launched none of its links does anything, so the launch, which
happens once, takes nothing out of the hands of a link.
-/

namespace EdgeGateway

namespace Pool

variable {κ : Type} {p q : Pool κ} {now i : Nat} {m : Move}

/-- The tasks of a link that is served. -/
theorem serving_of_service? {l : Link κ} {s : Service κ} (h : p.service? i = some (l, s)) :
    p.links[i]? = some l ∧ l.phase = .serving s := by
  obtain ⟨l', hl, h⟩ := Option.bind_eq_some_iff.1 h
  obtain ⟨s', hs, h⟩ := Option.bind_eq_some_iff.1 h
  cases h
  refine ⟨hl, ?_⟩
  rw [Link.service?] at hs
  split at hs <;> cases hs
  assumption

/-- A pool that has not been launched has links that have not been launched. -/
def Slept (p : Pool κ) : Prop :=
  p.ticker = .unlaunched → ∀ l ∈ p.links, l.phase = .unlaunched

/-- The links of a new pool sleep. -/
theorem slept_fresh (s : LinkSettings) : (fresh s : Pool κ).Slept := by
  intro _ l hl
  rw [List.eq_of_mem_replicate hl]
  rfl

/-- No link of a pool that has not been launched is served. -/
theorem Slept.service?_eq_none (h : p.Slept) (ht : p.ticker = .unlaunched) (i : Nat) :
    p.service? i = none := by
  rw [service?]
  cases hl : p.links[i]? with
  | none => rfl
  | some l =>
    have hp := h ht l (List.mem_of_getElem? hl)
    simp [Link.service?, hp]

/-- A pool that has not been launched makes no move. -/
theorem Slept.move?_eq_none (h : p.Slept) (ht : p.ticker = .unlaunched) (m : Move) :
    p.move? now m = none := by
  have hservice : ∀ i, p.service? i = none := h.service?_eq_none ht
  have hheld : ∀ i, p.held? i = none := by
    intro i
    rw [held?]
    cases hl : p.links[i]? with
    | none => rfl
    | some l =>
      have hp := h ht l (List.mem_of_getElem? hl)
      simp [hp]
  have hlink : ∀ (i : Nat) (l : Link κ), p.links[i]? = some l → l.phase = .unlaunched :=
    fun i l hl ↦ h ht l (List.mem_of_getElem? hl)
  cases m with
  | connect i | refuse i | wake i | halt i =>
    simp only [move?, connect, refuse, wake, halt]
    cases hl : p.links[i]? with
    | none => rfl
    | some l =>
      have hp := hlink i l hl
      simp [hp]
  | transmit i n => simp [move?, transmit, hheld]
  | failWrite i => simp [move?, failWrite, hheld]
  | tick => simp [move?, Pool.tick, ht]
  | stopTicker => simp [move?, Pool.stopTicker, ht]
  | fetchOutbound i => simp [move?, fetchOutbound, hservice]
  | stopWriter i => simp [move?, stopWriter, hservice]
  | read i => simp [move?, read, hservice]
  | readOn i => simp [move?, readOn, hservice]
  | stopReader i => simp [move?, stopReader, hservice]
  | readLast i => simp [move?, readLast, hservice]
  | stopWorker i w => simp [move?, stopWorker, hservice]
  | supervise i final => simp [move?, supervise, hservice]
  | conclude i => simp [move?, conclude, hservice]

private theorem ticker_accept (p : Pool κ) (i : Nat) (l : Link κ) (s : Service κ) (f : Frame) :
    (p.accept i l s f).ticker = p.ticker := by
  rw [accept]
  split
  · split <;> rfl
  · rfl

/-- What a worker has in hand is no matter of the ticker. -/
theorem ticker_setWorker (p : Pool κ) (i w : Nat) (x : Worker κ) :
    (p.setWorker i w x).ticker = p.ticker := by
  rw [setWorker]
  split <;> rfl

private theorem unlaunched_of_move? (h : p.move? now m = some q) (ht : q.ticker = .unlaunched) :
    p.ticker = .unlaunched := by
  cases m with
  | connect i | refuse i | wake i | halt i =>
    obtain ⟨l, -, h⟩ := Option.bind_eq_some_iff.1 h
    repeat' split at h
    all_goals cases h
    all_goals exact ht
  | stopWriter i | readOn i | stopReader i | supervise i final | conclude i =>
    obtain ⟨⟨l, s⟩, -, h⟩ := Option.bind_eq_some_iff.1 h
    simp only at h
    repeat' split at h
    all_goals cases h
    all_goals exact ht
  | transmit i n | failWrite i =>
    obtain ⟨⟨wire, f, left⟩, -, h⟩ := Option.bind_eq_some_iff.1 h
    obtain ⟨l, -, h⟩ := Option.bind_eq_some_iff.1 h
    repeat' split at h
    all_goals cases h
    all_goals exact ht
  | fetchOutbound i =>
    obtain ⟨⟨l, s⟩, -, h⟩ := Option.bind_eq_some_iff.1 h
    simp only at h
    split at h
    · cases h
    · split at h
      · cases h
        exact ht
      · obtain ⟨⟨f, outbound⟩, -, h⟩ := Option.bind_eq_some_iff.1 h
        cases h
        exact ht
  | read i | readLast i =>
    obtain ⟨⟨l, s⟩, -, h⟩ := Option.bind_eq_some_iff.1 h
    simp only at h
    split at h
    · cases h
    · obtain ⟨w, -, h⟩ := Option.bind_eq_some_iff.1 h
      repeat' split at h
      all_goals cases h
      all_goals
        first
          | exact ht
          | exact (ticker_accept (p.modifyWire s.wire _) i l s _).symm.trans ht
  | stopWorker i w =>
    obtain ⟨⟨l, s⟩, -, h⟩ := Option.bind_eq_some_iff.1 h
    obtain ⟨x, -, h⟩ := Option.bind_eq_some_iff.1 h
    repeat' split at h
    all_goals cases h
    exact (p.ticker_setWorker i w .ended).symm.trans ht
  | tick | stopTicker =>
    simp only [move?, tick, stopTicker] at h
    repeat' split at h
    all_goals cases h
    all_goals cases ht

/-- A move of the links is no launch. -/
theorem Slept.move (h : p.Slept) (hm : p.move? now m = some q) : q.Slept := by
  intro ht
  rw [h.move?_eq_none (unlaunched_of_move? hm ht)] at hm
  cases hm

/-- What is put into a worker's hands is no launch. -/
theorem Slept.setWorker (h : p.Slept) (i w : Nat) (x : Worker κ) : (p.setWorker i w x).Slept := by
  intro ht
  rw [ticker_setWorker] at ht
  rw [Pool.setWorker, h.service?_eq_none ht]
  exact h ht

/-- A pool that has been launched has been launched. -/
theorem Slept.launch (h : p.Slept) (now : Nat) : (p.launch now).Slept := by
  rw [Pool.launch]
  split
  · rintro ⟨⟩
  · exact h

/-- The shutdown signal is no launch. -/
theorem Slept.signal (h : p.Slept) : p.signal.Slept := by
  rw [Pool.signal]
  split <;> exact h

/-- Taking a frame off a queue is no launch. -/
theorem Slept.fetchInbound {w : Nat} {f : Frame} (h : p.Slept)
    (hf : p.fetchInbound i w = some (f, q)) : q.Slept := by
  obtain ⟨x, -, hf⟩ := Option.bind_eq_some_iff.1 hf
  split at hf
  · obtain ⟨⟨g, inbound⟩, -, hf⟩ := Option.bind_eq_some_iff.1 hf
    cases hf
    exact h
  · cases hf

end Pool

namespace Forwarder

variable {η κ : Type} {p q : Forwarder η κ} {m : Move η κ}

/-- No move is taken for a launch. -/
theorem slept_of_move? (h : p.pool.Slept) (hm : p.move? m = some q) : q.pool.Slept := by
  cases m with
  | register | wait | send | withdraw | backendSays | backendEnds =>
    cases hm
    exact h
  | launch =>
    cases hm
    exact h.launch p.now
  | shutdown =>
    cases hm
    exact h.signal
  | link m =>
    obtain ⟨pool, hp, rfl⟩ := Option.map_eq_some_iff.1 hm
    exact h.move hp
  | fetch i w x =>
    obtain ⟨⟨f, pool⟩, hf, hm⟩ := Option.bind_eq_some_iff.1 hm
    simp only at hm
    split at hm <;> cases hm
    · exact (h.fetchInbound hf).setWorker i w x
    · exact h.fetchInbound hf
  | resume i w x =>
    obtain ⟨y, -, hm⟩ := Option.bind_eq_some_iff.1 hm
    split at hm <;> cases hm
    exact h.setWorker i w _

end Forwarder

end EdgeGateway
