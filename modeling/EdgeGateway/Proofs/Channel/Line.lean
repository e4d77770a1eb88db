import EdgeGateway.Proofs.Channel.Log

/-!
# The line before a channel

Those who wait for room in a channel stand in line in the order of their tickets. `ahead` counts who
is let in before a ticket: nothing but a receiving lets anybody in, and a receiving brings everybody
who is left in line one place further.
-/

namespace EdgeGateway.Channel

variable {α : Type} {c d : Channel α} {a : α} {ticket : Nat}

/-- A channel that is open, and before which those who wait stand in the order of their tickets. -/
structure InLine (c : Channel α) : Prop where
  tidy : c.Tidy
  taking : c.closed = false
  ascending : c.waiting.Pairwise (·.1 < ·.1)
  issued : ∀ w ∈ c.waiting, w.1 < c.issued

/-- The number of those who are let in before a ticket. -/
def ahead (c : Channel α) (ticket : Nat) : Nat := c.waiting.countP (·.1 < ticket)

/-- A ticket is undecided just when the channel is open and its holder waits. -/
theorem delivery_eq_pending_iff :
    c.delivery ticket = .pending ↔ c.closed = false ∧ ∃ a, (ticket, a) ∈ c.waiting := by
  have hw : ticket ∈ c.waiting.map Prod.fst ↔ ∃ a, (ticket, a) ∈ c.waiting := by simp
  rw [← hw]
  by_cases hk : ticket ∈ c.waiting.map Prod.fst
  · have hany : c.waiting.any (·.1 == ticket) = true := by simpa [List.any_eq_true] using hk
    rw [delivery, if_pos hany]
    cases c.closed <;> simp [hk]
  · simp [delivery_eq_accepted_iff.2 hk, hk]

/-- Nobody stands in line at a new channel. -/
theorem inLine_empty (n : Nat) : (empty n : Channel α).InLine :=
  ⟨tidy_empty n, rfl, .nil, nofun⟩

namespace InLine

/-- Whoever comes stands at the end of the line. -/
theorem send (h : c.InLine) (a : α) : (c.send a).2.InLine := by
  refine ⟨tidy_send h.tidy a, (c.closed_send a).trans h.taking, ?_, ?_⟩
  all_goals rw [Channel.send]; split
  · exact h.ascending
  · refine List.pairwise_append.2
      ⟨h.ascending, List.pairwise_singleton .., fun w hw b hb ↦ ?_⟩
    rw [List.mem_singleton.1 hb]
    exact h.issued w hw
  · exact fun w hw ↦ Nat.lt_succ_of_lt (h.issued w hw)
  · intro w hw
    rcases List.mem_append.1 hw with hw | hw
    · exact Nat.lt_succ_of_lt (h.issued w hw)
    · rw [List.mem_singleton.1 hw]
      exact Nat.lt_succ_self _

/-- Whoever is let in stood in front. -/
theorem receive (h : c.InLine) (hr : c.receive = some (a, d)) : d.InLine := by
  refine ⟨tidy_receive h.tidy hr, (closed_of_receive hr).trans h.taking, ?_, ?_⟩
  all_goals obtain ⟨rest, -, rfl | ⟨w, ws, hw, rfl⟩⟩ := receive_cases hr
  · exact h.ascending
  · exact (List.pairwise_cons.1 (hw ▸ h.ascending)).2
  · exact h.issued
  · intro v hv
    exact h.issued v (by rw [hw]; exact List.mem_cons_of_mem w hv)

/-- Where somebody waits there is something to receive, and the first in line is let in for it. -/
theorem exists_receive (h : c.InLine) {w : Nat × α} {ws : List (Nat × α)}
    (hw : c.waiting = w :: ws) : ∃ a d, c.receive = some (a, d) ∧ d.waiting = ws := by
  have hfull := h.tidy.2.2 (by rw [hw]; exact List.cons_ne_nil w ws) h.taking
  have hpos := h.tidy.2.1
  cases hi : c.items with
  | nil =>
    rw [hi, List.length_nil] at hfull
    omega
  | cons a rest =>
    have hroom : ({ c with items := rest } : Channel α).HasRoom := by
      refine ⟨h.taking, ?_⟩
      rw [hi, List.length_cons] at hfull
      simp only
      omega
    refine ⟨a, { c with items := rest ++ [w.2], waiting := ws }, ?_, rfl⟩
    rw [Channel.receive, hi]
    simp only [refill, hw]
    rw [hw] at hroom
    rw [if_pos hroom]

/-- As long as somebody waits there is something to receive. -/
theorem exists_receive_of_pending (h : c.InLine) (hp : c.delivery ticket = .pending) :
    ∃ a d, c.receive = some (a, d) := by
  obtain ⟨-, b, hb⟩ := delivery_eq_pending_iff.1 hp
  cases hw : c.waiting with
  | nil =>
    rw [hw] at hb
    cases hb
  | cons w ws =>
    obtain ⟨a, d, hr, -⟩ := h.exists_receive hw
    exact ⟨a, d, hr⟩

end InLine

/-- Sending brings nobody in. -/
theorem pending_send (hp : c.delivery ticket = .pending) (a : α) :
    (c.send a).2.delivery ticket = .pending := by
  obtain ⟨ho, b, hb⟩ := delivery_eq_pending_iff.1 hp
  refine delivery_eq_pending_iff.2 ⟨(c.closed_send a).trans ho, b, ?_⟩
  rw [send]
  split
  · exact hb
  · exact List.mem_append_left _ hb

/-- Nobody who comes later is let in earlier. -/
theorem ahead_send (h : c.InLine) (hp : c.delivery ticket = .pending) (a : α) :
    (c.send a).2.ahead ticket = c.ahead ticket := by
  obtain ⟨-, b, hb⟩ := delivery_eq_pending_iff.1 hp
  have hlt : ticket < c.issued := h.issued _ hb
  rw [ahead, ahead, send]
  split
  · rfl
  · rw [List.countP_append, List.countP_singleton,
      if_neg (by simp only [decide_eq_true_eq]; omega), Nat.add_zero]

/-- A receiving lets one of those in who stand before a ticket, if there are any. -/
theorem ahead_receive (h : c.InLine) (hr : c.receive = some (a, d))
    (hp : c.delivery ticket = .pending) (ha : 0 < c.ahead ticket) :
    d.delivery ticket = .pending ∧ d.ahead ticket + 1 = c.ahead ticket := by
  obtain ⟨ho, b, hb⟩ := delivery_eq_pending_iff.1 hp
  cases hw : c.waiting with
  | nil =>
    rw [hw] at hb
    cases hb
  | cons w ws =>
    obtain ⟨a', d', hr', hd⟩ := h.exists_receive hw
    cases hr.symm.trans hr'
    -- Whoever is in front has the least ticket, so it is another one.
    have hfirst : w.1 < ticket := by
      obtain ⟨v, hv, hlt⟩ := List.countP_pos_iff.1 ha
      rw [hw] at hv
      have hlt : v.1 < ticket := by simpa using hlt
      rcases List.mem_cons.1 hv with rfl | hv
      · exact hlt
      · exact Nat.lt_trans ((List.pairwise_cons.1 (hw ▸ h.ascending)).1 v hv) hlt
    refine ⟨delivery_eq_pending_iff.2 ⟨(closed_of_receive hr).trans ho, b, ?_⟩, ?_⟩
    · rw [hw] at hb
      rw [hd]
      refine (List.mem_cons.1 hb).resolve_left ?_
      rintro rfl
      exact Nat.lt_irrefl _ hfirst
    · rw [ahead, ahead, hd, hw, List.countP_cons, if_pos (by simpa using hfirst)]

/-- Whoever has nobody before them is let in next. -/
theorem accepted_of_receive (h : c.InLine) (hr : c.receive = some (a, d))
    (hp : c.delivery ticket = .pending) (ha : c.ahead ticket = 0) :
    d.delivery ticket = .accepted := by
  obtain ⟨-, b, hb⟩ := delivery_eq_pending_iff.1 hp
  cases hw : c.waiting with
  | nil =>
    rw [hw] at hb
    cases hb
  | cons w ws =>
    obtain ⟨a', d', hr', hd⟩ := h.exists_receive hw
    cases hr.symm.trans hr'
    have hsorted := List.pairwise_cons.1 (hw ▸ h.ascending)
    have hle : ticket ≤ w.1 := by
      have := List.countP_eq_zero.1 ha w (by rw [hw]; exact List.mem_cons_self ..)
      simpa using this
    rw [delivery_eq_accepted_iff, hd, List.mem_map]
    rintro ⟨v, hv, rfl⟩
    have := hsorted.1 v hv
    omega

end EdgeGateway.Channel
