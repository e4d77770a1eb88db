import EdgeGateway.Eviction.Run
import EdgeGateway.Proofs.Journal

/-!
# A sweeper comes to rest

Whatever the sweeper does lowers its workload, so it has nothing to do after it has settled; and
what it does until then is a run. A scene at rest is therefore a settled state of a run.
-/

namespace EdgeGateway

namespace Eviction

/-- There is an earliest eviction unless there is none at all. -/
theorem earliest?_eq_none_iff {es : List Eviction} : earliest? es = none ↔ es = [] := by
  cases es with
  | nil => simp [earliest?]
  | cons e es =>
    simp only [earliest?]
    split
    · simp
    · split <;> simp

/-- The earliest eviction is one of them, and none is due before it. -/
theorem earliest?_spec {es : List Eviction} {e : Eviction} (h : earliest? es = some e) :
    e ∈ es ∧ ∀ f ∈ es, e.deadline ≤ f.deadline := by
  induction es generalizing e with
  | nil => cases h
  | cons x es ih =>
    simp only [earliest?] at h
    split at h
    · next hn =>
      cases h
      rw [earliest?_eq_none_iff.1 hn]
      simp
    · next f hf =>
      obtain ⟨hm, hmin⟩ := ih hf
      split at h <;> cases h
      · refine ⟨List.mem_cons_of_mem _ hm, List.forall_mem_cons.2 ⟨by omega, hmin⟩⟩
      · refine ⟨List.mem_cons_self,
          List.forall_mem_cons.2 ⟨Nat.le_refl _, fun k hk ↦ ?_⟩⟩
        have := hmin k hk
        omega

end Eviction

namespace Sweeper

variable {s s' : Sweeper} {now : Nat} {conns conns' : Connections} {e : Eviction}

/-- What is due is pending, and its time has come. -/
theorem of_due? (h : s.due? now = some e) : e ∈ s.pending ∧ e.deadline ≤ now := by
  rw [due?, Option.ite_none_right_eq_some, Option.filter_eq_some_iff] at h
  obtain ⟨-, h, hd⟩ := h
  exact ⟨(Eviction.earliest?_spec h).1, of_decide_eq_true hd⟩

/-- As long as nothing is due the time of no pending eviction has come. -/
theorem lt_deadline_of_due?_eq_none (hr : s.phase = .running) (h : s.due? now = none)
    (he : e ∈ s.pending) : now < e.deadline := by
  rw [due?, if_pos hr] at h
  cases hx : Eviction.earliest? s.pending with
  | none =>
    rw [Eviction.earliest?_eq_none_iff.1 hx] at he
    cases he
  | some x =>
    rw [hx] at h
    have := (Eviction.earliest?_spec hx).2 e he
    have : ¬ x.deadline ≤ now := by simpa using h
    omega

private theorem work?_of_finished (h : s.phase = .finished) : s.work? now conns = none := by
  have hr : s.phase ≠ .running := by rw [h]; decide
  simp [work?, finish?, take?, expire?, due?, hr]

-- Whatever the sweeper does was work to be done, unless it is to end.
private theorem workload_of_work? (h : s.work? now conns = some (s', conns')) :
    s'.phase = .finished ∨ s'.workload < s.workload := by
  rw [work?] at h
  split at h
  · next hf =>
    cases h
    rw [finish?, Option.ite_none_right_eq_some] at hf
    cases hf.2
    exact .inl rfl
  · right
    split at h
    · next ht =>
      cases h
      rw [take?, Option.ite_none_right_eq_some] at ht
      obtain ⟨⟨e, queue⟩, hq, he⟩ := Option.map_eq_some_iff.1 ht.2
      cases he
      have := congrArg List.length (Channel.contents_of_receive hq)
      simp only [Channel.contents, List.length_append, List.length_map, List.length_cons] at this
      simp only [workload, List.length_append, List.length_singleton]
      omega
    · obtain ⟨e, he, h⟩ := Option.map_eq_some_iff.1 h
      cases h
      have hm := (of_due? he).1
      have := List.length_erase_of_mem hm
      have := List.length_pos_of_mem hm
      simp only [workload]
      omega

private theorem work?_go {fuel : Nat} (h : s.workload ≤ fuel ∨ s.work? now conns = none) :
    (settle.go now fuel s conns).1.work? now (settle.go now fuel s conns).2 = none := by
  induction fuel generalizing s conns with
  | zero =>
    rcases h with h | h
    · exact absurd h (by simp [workload])
    · exact h
  | succ fuel ih =>
    rw [settle.go]
    split
    · next s' conns' hw =>
      apply ih
      rcases workload_of_work? hw with hf | hlt
      · exact .inr (work?_of_finished hf)
      · rcases h with h | h
        · exact .inl (by omega)
        · rw [hw] at h
          cases h
    · next hw => exact hw

/-- A sweeper that has settled has nothing to do. -/
theorem work?_settle (s : Sweeper) (now : Nat) (conns : Connections) :
    (s.settle now conns).1.work? now (s.settle now conns).2 = none :=
  work?_go (.inl (Nat.le_refl _))

end Sweeper

namespace EvictionScene

private theorem journal_go {a s : EvictionScene} {t : List (EvictionScene × Move)} (fuel : Nat)
    (h : Journal move? a t s) : ∃ u, Journal move? a (t ++ u) { s with
      sweeper := (Sweeper.settle.go s.now fuel s.sweeper s.conns).1
      conns := (Sweeper.settle.go s.now fuel s.sweeper s.conns).2 } := by
  induction fuel generalizing s t with
  | zero => exact ⟨[], by rw [List.append_nil]; exact h⟩
  | succ fuel ih =>
    rw [Sweeper.settle.go]
    split
    · next sweeper conns hw =>
      have hm : ∃ m, s.move? m = some { s with sweeper, conns } := by
        rw [Sweeper.work?] at hw
        split at hw
        · next hf =>
          cases hw
          exact ⟨.finish, by simp [move?, hf]⟩
        · split at hw
          · next ht =>
            cases hw
            exact ⟨.take, by simp [move?, ht]⟩
          · exact ⟨.expire, by simp [move?, hw]⟩
      obtain ⟨m, hm⟩ := hm
      obtain ⟨u, hu⟩ := ih (h.move hm)
      exact ⟨(s, m) :: u, by rwa [List.append_assoc] at hu⟩
    · exact ⟨[], by rw [List.append_nil]; exact h⟩

/-- The sweeper settles in a run, -/
theorem journal_settle (s : EvictionScene) : ∃ t, Journal move? s t s.settle := by
  have hstart : Journal move? s [] s := .start
  exact journal_go s.sweeper.workload hstart

/-- and is settled then. -/
theorem settled_settle (s : EvictionScene) : s.settle.Settled :=
  s.sweeper.work?_settle s.now s.conns

end EvictionScene

end EdgeGateway
