import EdgeGateway.Link.Pool

/-!
# The calls that workers are busy with

A worker gets a call only from the owner of the pool. Whatever is true of all calls that the workers
are busy with stays true while the links dial, read, write, stop and pause.
-/

namespace EdgeGateway

variable {κ : Type} {P : κ → Prop}

namespace Link

/-- Every call that a worker of the link is busy with satisfies `P`. -/
def Calls (P : κ → Prop) (l : Link κ) : Prop :=
  ∀ s, l.service? = some s → ∀ d, .busy d ∈ s.workers → P d

private theorem service?_of_phase {l : Link κ} {s : Service κ} (h : l.phase = .serving s) :
    l.service? = some s := by rw [service?, h]

private theorem calls_of_unserved {l : Link κ} (h : l.service? = none) : l.Calls P := by
  intro s hs
  rw [h] at hs
  cases hs

private theorem Calls.of_workers {l k : Link κ} {s : Service κ} (hl : l.Calls P)
    (hs : l.service? = some s) (hk : ∀ t, k.service? = some t → t.workers = s.workers) :
    k.Calls P := by
  intro t ht d hd
  rw [hk t ht] at hd
  exact hl s hs d hd

private theorem Calls.serve {l k : Link κ} {s t : Service κ} (hl : l.Calls P)
    (hs : l.service? = some s) (ht : t.workers = s.workers) : (k.serve t).Calls P := by
  refine hl.of_workers hs ?_
  rintro u ⟨⟩
  exact ht

private theorem Calls.of_phase {l k : Link κ} (hl : l.Calls P) (hp : k.phase = l.phase) :
    k.Calls P := by
  have hs : k.service? = l.service? := by rw [service?, service?, hp]
  rw [Calls, hs]
  exact hl

end Link

namespace Pool

/-- Every call that a worker is busy with satisfies `P`. -/
def Calls (P : κ → Prop) (p : Pool κ) : Prop := ∀ l ∈ p.links, l.Calls P

/-- Before the launch no worker has anything to handle. -/
theorem calls_fresh (s : LinkSettings) : (fresh s : Pool κ).Calls P := by
  intro l hl
  rw [List.eq_of_mem_replicate hl]
  exact Link.calls_of_unserved rfl

/-- The launch gives no worker anything to handle. -/
theorem calls_launch {p : Pool κ} (hp : p.Calls P) (now : Nat) : (p.launch now).Calls P := by
  rw [launch]
  split
  · intro l hl
    obtain ⟨k, -, rfl⟩ := List.mem_map.1 hl
    exact Link.calls_of_unserved rfl
  · exact hp

private theorem Calls.link {p : Pool κ} (hp : p.Calls P) {i : Nat} {l : Link κ}
    (hl : p.links[i]? = some l) : l.Calls P := hp l (List.mem_of_getElem? hl)

private theorem Calls.setLink {p : Pool κ} (hp : p.Calls P) (i : Nat) {l : Link κ}
    (hl : l.Calls P) : (p.setLink i l).Calls P := by
  intro k hk
  rcases List.mem_or_eq_of_mem_set hk with hk | rfl
  · exact hp k hk
  · exact hl

private theorem service?_eq_some {p : Pool κ} {i : Nat} {l : Link κ} {s : Service κ}
    (h : p.service? i = some (l, s)) : p.links[i]? = some l ∧ l.service? = some s := by
  obtain ⟨l', hl, h⟩ := Option.bind_eq_some_iff.1 h
  obtain ⟨s', hs, h⟩ := Option.bind_eq_some_iff.1 h
  cases h
  exact ⟨hl, hs⟩

/-- What a worker is about is as it should be. -/
theorem Calls.of_worker? {p : Pool κ} (hp : p.Calls P) {i w : Nat} {d : κ}
    (h : p.worker? i w = some (.busy d)) : P d := by
  obtain ⟨⟨l, s⟩, hs, h⟩ := Option.bind_eq_some_iff.1 h
  obtain ⟨hl, hs⟩ := service?_eq_some hs
  exact hp.link hl s hs d (List.mem_of_getElem? h)

/-- A worker may be given a call that satisfies `P`. -/
theorem Calls.setWorker {p : Pool κ} (hp : p.Calls P) (i w : Nat) {x : Worker κ}
    (hx : ∀ d, x = .busy d → P d) : (p.setWorker i w x).Calls P := by
  rw [Pool.setWorker]
  split
  · next l s hs =>
    obtain ⟨hl, hs⟩ := service?_eq_some hs
    apply hp.setLink
    rintro t ⟨⟩ d hd
    rcases List.mem_or_eq_of_mem_set hd with hd | hd
    · exact hp.link hl s hs d hd
    · exact hx d hd.symm
  · exact hp

/-! ### What the moves of a pool keep -/

variable {p q : Pool κ} {i : Nat}

private theorem Calls.connect (hp : p.Calls P) (h : p.connect i = some q) : q.Calls P := by
  obtain ⟨l, -, h⟩ := Option.bind_eq_some_iff.1 h
  split at h <;> cases h
  exact hp.setLink i (Link.calls_of_unserved rfl)

private theorem Calls.refuse {now : Nat} (hp : p.Calls P)
    (h : p.refuse now i = some q) : q.Calls P := by
  obtain ⟨l, -, h⟩ := Option.bind_eq_some_iff.1 h
  split at h <;> cases h
  exact hp.setLink i (Link.calls_of_unserved rfl)

private theorem Calls.wake {now : Nat} (hp : p.Calls P)
    (h : p.wake now i = some q) : q.Calls P := by
  obtain ⟨l, -, h⟩ := Option.bind_eq_some_iff.1 h
  split at h
  · split at h <;> cases h
    exact hp.setLink i (Link.calls_of_unserved rfl)
  · cases h

private theorem Calls.halt (hp : p.Calls P) (h : p.halt i = some q) : q.Calls P := by
  obtain ⟨l, -, h⟩ := Option.bind_eq_some_iff.1 h
  split at h
  · cases h
  · split at h <;> cases h
    · exact hp.setLink i (Link.calls_of_unserved rfl)
    · exact hp.setLink i (Link.calls_of_unserved rfl)

private theorem calls_afterWrite {l : Link κ} (hl : l.Calls P) (left : Bytes) :
    (p.afterWrite l left).Calls P := by
  rw [afterWrite]
  split
  · split
    · rintro s ⟨⟩ d hd
      cases List.eq_of_mem_replicate hd
    · exact Link.calls_of_unserved rfl
  · next hs =>
    split
    · exact hl.serve (Link.service?_of_phase hs) rfl
    · exact hl
  · exact hl

private theorem Calls.transmit {n : Nat} (hp : p.Calls P)
    (h : p.transmit i n = some q) : q.Calls P := by
  obtain ⟨⟨wire, f, left⟩, -, h⟩ := Option.bind_eq_some_iff.1 h
  obtain ⟨l, hl, h⟩ := Option.bind_eq_some_iff.1 h
  split at h <;> cases h
  exact hp.setLink i (calls_afterWrite (hp.link hl) _)

private theorem Calls.failWrite {now : Nat} (hp : p.Calls P) (h : p.failWrite now i = some q) :
    q.Calls P := by
  obtain ⟨⟨wire, f, left⟩, -, h⟩ := Option.bind_eq_some_iff.1 h
  obtain ⟨l, hl, h⟩ := Option.bind_eq_some_iff.1 h
  simp only at h
  split at h
  · cases h
    exact hp.setLink i (Link.calls_of_unserved rfl)
  · next hs =>
    cases h
    exact hp.setLink i ((hp.link hl).serve (Link.service?_of_phase hs) rfl)
  · cases h

private theorem Calls.fetchOutbound (hp : p.Calls P)
    (h : p.fetchOutbound i = some q) : q.Calls P := by
  obtain ⟨⟨l, s⟩, hs, h⟩ := Option.bind_eq_some_iff.1 h
  obtain ⟨hl, hs⟩ := service?_eq_some hs
  simp only at h
  split at h
  · cases h
  · split at h
    · cases h
      exact hp.setLink i ((hp.link hl).serve hs rfl)
    · obtain ⟨⟨f, outbound⟩, -, h⟩ := Option.bind_eq_some_iff.1 h
      cases h
      exact hp.setLink i ((hp.link hl).serve hs rfl)

private theorem Calls.stopWriter (hp : p.Calls P) (h : p.stopWriter i = some q) : q.Calls P := by
  obtain ⟨⟨l, s⟩, hs, h⟩ := Option.bind_eq_some_iff.1 h
  obtain ⟨hl, hs⟩ := service?_eq_some hs
  simp only at h
  split at h <;> cases h
  exact hp.setLink i ((hp.link hl).serve hs rfl)

private theorem Calls.accept {l : Link κ} {s : Service κ} (hp : p.Calls P)
    (hl : p.links[i]? = some l) (hs : l.service? = some s) (f : Frame) :
    (p.accept i l s f).Calls P := by
  rw [Pool.accept]
  split
  · split
    · exact hp.setLink i ((hp.link hl).of_phase rfl)
    · exact hp
  · exact hp.setLink i ((hp.link hl).serve hs rfl)

private theorem Calls.read (hp : p.Calls P) (h : p.read i = some q) : q.Calls P := by
  obtain ⟨⟨l, s⟩, hs, h⟩ := Option.bind_eq_some_iff.1 h
  obtain ⟨hl, hs⟩ := service?_eq_some hs
  simp only at h
  split at h
  · cases h
  · obtain ⟨w, -, h⟩ := Option.bind_eq_some_iff.1 h
    split at h <;> cases h
    · exact hp.setLink i ((hp.link hl).serve hs rfl)
    · exact hp
    · exact Calls.accept (p := p.modifyWire _ _) hp hl hs _

private theorem Calls.readOn (hp : p.Calls P) (h : p.readOn i = some q) : q.Calls P := by
  obtain ⟨⟨l, s⟩, hs, h⟩ := Option.bind_eq_some_iff.1 h
  obtain ⟨hl, hs⟩ := service?_eq_some hs
  simp only at h
  split at h
  · split at h <;> cases h
    exact hp.setLink i ((hp.link hl).serve hs rfl)
  · cases h

private theorem Calls.stopReader (hp : p.Calls P) (h : p.stopReader i = some q) : q.Calls P := by
  obtain ⟨⟨l, s⟩, hs, h⟩ := Option.bind_eq_some_iff.1 h
  obtain ⟨hl, hs⟩ := service?_eq_some hs
  simp only at h
  split at h
  · cases h
  · split at h <;> cases h
    · exact hp.setLink i ((hp.link hl).serve hs rfl)
    · exact hp.setLink i ((hp.link hl).serve hs rfl)

private theorem Calls.readLast (hp : p.Calls P) (h : p.readLast i = some q) : q.Calls P := by
  obtain ⟨⟨l, s⟩, hs, h⟩ := Option.bind_eq_some_iff.1 h
  obtain ⟨hl, hs⟩ := service?_eq_some hs
  simp only at h
  split at h
  · cases h
  · obtain ⟨w, -, h⟩ := Option.bind_eq_some_iff.1 h
    split at h
    · split at h <;> cases h
      exact hp.setLink i ((hp.link hl).serve hs rfl)
    · cases h

private theorem Calls.stopWorker {w : Nat} (hp : p.Calls P) (h : p.stopWorker i w = some q) :
    q.Calls P := by
  obtain ⟨⟨l, s⟩, -, h⟩ := Option.bind_eq_some_iff.1 h
  obtain ⟨x, -, h⟩ := Option.bind_eq_some_iff.1 h
  split at h
  · split at h <;> cases h
    exact hp.setWorker i w nofun
  · cases h

private theorem Calls.supervise {final : Bool} (hp : p.Calls P) (h : p.supervise i final = some q) :
    q.Calls P := by
  obtain ⟨⟨l, s⟩, hs, h⟩ := Option.bind_eq_some_iff.1 h
  obtain ⟨hl, hs⟩ := service?_eq_some hs
  simp only at h
  split at h
  · cases h
  · obtain ⟨-, h⟩ := Option.ite_none_right_eq_some.1 h
    cases h
    exact hp.setLink i ((hp.link hl).serve hs rfl)

private theorem Calls.conclude {now : Nat} (hp : p.Calls P) (h : p.conclude now i = some q) :
    q.Calls P := by
  obtain ⟨⟨l, s⟩, -, h⟩ := Option.bind_eq_some_iff.1 h
  simp only at h
  split at h
  · split at h <;> cases h
    · exact hp.setLink i (Link.calls_of_unserved rfl)
    · exact hp.setLink i (Link.calls_of_unserved rfl)
  · cases h

private theorem Calls.tick {now : Nat} (hp : p.Calls P) (h : p.tick now = some q) : q.Calls P := by
  rw [Pool.tick] at h
  split at h
  · split at h <;> cases h
    intro l hl
    obtain ⟨k, hk, rfl⟩ := List.mem_map.1 hl
    rw [question]
    split
    · exact (hp k hk).of_phase rfl
    · exact hp k hk
  · cases h

/-- No move of the links puts a call into the hands of a worker. -/
theorem Calls.move {now : Nat} {m : Move} (hp : p.Calls P) (h : p.move? now m = some q) :
    q.Calls P := by
  cases m with
  | connect i => exact hp.connect h
  | refuse i => exact hp.refuse h
  | wake i => exact hp.wake h
  | halt i => exact hp.halt h
  | transmit i n => exact hp.transmit h
  | failWrite i => exact hp.failWrite h
  | fetchOutbound i => exact hp.fetchOutbound h
  | stopWriter i => exact hp.stopWriter h
  | read i => exact hp.read h
  | readOn i => exact hp.readOn h
  | stopReader i => exact hp.stopReader h
  | readLast i => exact hp.readLast h
  | stopWorker i w => exact hp.stopWorker h
  | supervise i final => exact hp.supervise h
  | conclude i => exact hp.conclude h
  | tick => exact hp.tick h
  | stopTicker =>
    simp only [move?, stopTicker] at h
    split at h
    · split at h <;> cases h
      exact hp
    · cases h

/-- Taking a frame off a queue changes nothing about what other workers are about. -/
theorem Calls.fetchInbound {w : Nat} {f : Frame} (hp : p.Calls P)
    (h : p.fetchInbound i w = some (f, q)) : q.Calls P := by
  obtain ⟨x, -, h⟩ := Option.bind_eq_some_iff.1 h
  split at h
  · obtain ⟨⟨g, inbound⟩, -, h⟩ := Option.bind_eq_some_iff.1 h
    cases h
    exact hp
  · cases h

end Pool

end EdgeGateway
