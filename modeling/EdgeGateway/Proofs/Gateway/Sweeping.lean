import EdgeGateway.Proofs.Gateway.Parts

/-!
# The sweeper at work

The queue of evictions is closed only as the sweeper ends, and a sweeper does not start on a closed
queue. So as long as it runs a notice is queued or waits for room, whatever else the gateway does;
this is `staffed_of_reachable`.
-/

namespace EdgeGateway

/-- What is sent comes to what is queued or waits, and nothing else does. -/
theorem Channel.mem_contents_send_iff {α : Type} (c : Channel α) (a b : α) :
    b ∈ (c.send a).2.contents ↔ b ∈ c.contents ∨ b = a := by
  rw [send]
  split <;> simp only [contents, List.map_append, List.map_cons, List.map_nil, List.mem_append,
    List.mem_singleton] <;> tauto

namespace Sweeper

variable {s s' : Sweeper}

/-- As long as the sweeper runs it takes notices. -/
def Staffed (s : Sweeper) : Prop := s.phase = .running → s.queue.closed = false

private theorem staffed_empty (capacity delay : Nat) : (empty capacity delay).Staffed := by
  rintro ⟨⟩

private theorem Staffed.act (h : s.Staffed) (ha : s.Act s') : s'.Staffed := by
  cases ha with
  | push now cid => exact fun hp ↦ (s.queue.closed_send _).trans (h hp)
  | start =>
    rw [start]
    split
    · next hc => exact fun _ ↦ hc.2
    · exact h
  | signal =>
    rw [signal]
    split <;> exact h
  | take ht =>
    obtain ⟨-, ht⟩ := Option.ite_none_right_eq_some.1 ht
    obtain ⟨⟨e, q⟩, hr, rfl⟩ := Option.map_eq_some_iff.1 ht
    exact fun hp ↦ (Channel.closed_of_receive hr).trans (h hp)
  | expire he =>
    obtain ⟨e, -, he⟩ := Option.map_eq_some_iff.1 he
    cases he
    exact h
  | finish hf =>
    obtain ⟨-, hf⟩ := Option.ite_none_right_eq_some.1 hf
    cases hf
    rintro ⟨⟩

/-- Notice is given by way of the queue. -/
theorem mem_contents_push (s : Sweeper) (now : Nat) (cid : UInt64) :
    ⟨cid, now + s.delay⟩ ∈ (s.push now cid).2.queue.contents :=
  (s.queue.mem_contents_send_iff ..).2 (.inr rfl)

end Sweeper

namespace Gateway

variable {g g' : Gateway} {m : Move}

/-- Whatever a move does, a sweeper that runs takes notices. -/
theorem staffed_of_move? (hg : g.hub.sweeper.Staffed) (h : g.move? m = some g') :
    g'.hub.sweeper.Staffed :=
  (parts_of_move? h).sweeper.kept .act hg

/-- In every state of every run a sweeper that runs takes notices. -/
theorem staffed_of_reachable {s : Settings} (hg : Reachable s g) : g.hub.sweeper.Staffed :=
  hg.invariant (P := fun g ↦ g.hub.sweeper.Staffed) (Sweeper.staffed_empty _ _)
    fun _ _ _ hp hm ↦ staffed_of_move? hp hm

end Gateway

end EdgeGateway
