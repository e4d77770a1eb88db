import EdgeGateway.Channel

/-!
# What has gone through a channel

A log says what was sent to a channel, in the order of the tickets, which tickets have been received
and which senders have withdrawn. It tells where every ticket is: `Log.Tells.accepted` says that the
accepted tickets are those received and, behind them, those of the items, in the order of the
tickets.
-/

namespace EdgeGateway.Channel

/-- What has been done to a channel. The place of a sending among those sent is its ticket. -/
structure Log (α : Type) where
  sent : List α := []
  /-- The tickets that have been received, in the order in which they were. -/
  taken : List Nat := []
  /-- The tickets of those who no longer wished to wait. -/
  withdrawn : List Nat := []

variable {α : Type}

/-- What is found everywhere is all that is found. -/
theorem filterMap_of_map_eq {β : Type} {f : α → Option β} {l : List α} {m : List β}
    (h : l.map f = m.map some) : l.filterMap f = m := by
  have hid : l.filterMap f = (l.map f).filterMap id := by
    rw [List.filterMap_map]
    rfl
  rw [hid, h, List.filterMap_map]
  exact List.filterMap_some

/-- Who has been let in waits no longer. -/
theorem delivery_eq_accepted_iff {c : Channel α} {k : Nat} :
    c.delivery k = .accepted ↔ k ∉ c.waiting.map Prod.fst := by
  have hany : c.waiting.any (·.1 == k) = true ↔ k ∈ c.waiting.map Prod.fst := by
    simp [List.any_eq_true]
  rw [delivery]
  split
  · next h =>
    have hk := hany.1 h
    split <;> simp_all
  · next h => simp [mt hany.2 h]

namespace Log

/-- The tickets of all who have not withdrawn, in the order in which they were given. -/
def standing (l : Log α) : List Nat := (List.range l.sent.length).filter (· ∉ l.withdrawn)

/-- The ticket that is received next. -/
def next? (l : Log α) : Option Nat := l.standing[l.taken.length]?

/-- Something is sent, with the next ticket. -/
def send (l : Log α) (a : α) : Log α := { l with sent := l.sent ++ [a] }

/-- What stands first of those not yet taken is received. -/
def receive (l : Log α) : Log α := { l with taken := l.taken ++ l.next?.toList }

/-- Only who still waits can withdraw. -/
def withdraw (l : Log α) (c : Channel α) (ticket : Nat) : Log α :=
  if c.delivery ticket = .accepted then l else { l with withdrawn := l.withdrawn ++ [ticket] }

/-- What has been received, in the order in which it was. -/
def received (l : Log α) : List α := l.taken.filterMap (l.sent[·]?)

/-- The tickets of what has been let into a channel, in the order in which they were given. -/
def accepted (l : Log α) (c : Channel α) : List Nat :=
  l.standing.filter fun k ↦ decide (c.delivery k = .accepted)

/-- A log tells how a channel came to be as it is. -/
structure Tells (l : Log α) (c : Channel α) : Prop where
  tidy : c.Tidy
  issued : c.issued = l.sent.length
  gone : ∀ k ∈ l.withdrawn, k < l.sent.length
  line : ∃ queued, l.standing = l.taken ++ (queued ++ c.waiting.map Prod.fst) ∧
    queued.map (l.sent[·]?) = c.items.map some
  waits : ∀ w ∈ c.waiting, l.sent[w.1]? = some w.2

/-- The empty log tells of a new channel. -/
theorem tells_empty (n : Nat) : ({} : Log α).Tells (empty n) :=
  ⟨tidy_empty n, rfl, nofun, ⟨[], rfl, rfl⟩, nofun⟩

/-- No ticket stands twice. -/
theorem nodup_standing (l : Log α) : l.standing.Nodup := List.nodup_range.filter _

/-- Tickets are given in ascending order. -/
theorem pairwise_standing (l : Log α) : l.standing.Pairwise (· < ·) :=
  List.pairwise_lt_range.filter _

/-- Only tickets that were given stand. -/
theorem lt_of_mem_standing {l : Log α} {k : Nat} (h : k ∈ l.standing) : k < l.sent.length :=
  List.mem_range.1 (List.mem_filter.1 h).1

variable {l : Log α} {c d : Channel α} {a : α}

/-- What has been received has been sent. -/
theorem Tells.lt_of_mem_taken (h : l.Tells c) {k : Nat}
    (hk : k ∈ l.taken) : k < l.sent.length := by
  obtain ⟨queued, hs, -⟩ := h.line
  exact lt_of_mem_standing (by rw [hs]; exact List.mem_append_left _ hk)

private theorem Tells.standing_send (h : l.Tells c) (a : α) :
    (l.send a).standing = l.standing ++ [l.sent.length] := by
  have hn : l.sent.length ∉ l.withdrawn := fun hm ↦ Nat.lt_irrefl _ (h.gone _ hm)
  have hlen : (l.send a).sent.length = l.sent.length + 1 := by simp [Log.send]
  rw [standing, hlen, List.range_succ, List.filter_append]
  refine congrArg _ (List.filter_eq_self.2 fun k hk ↦ ?_)
  rw [List.mem_singleton.1 hk]
  exact decide_eq_true hn

private theorem getElem?_send {k : Nat} (hk : k < l.sent.length) :
    (l.send a).sent[k]? = l.sent[k]? := List.getElem?_append_left hk

/-- A sending gets the next ticket. -/
theorem Tells.send (h : l.Tells c) (hc : c.closed = false) (a : α) :
    (l.send a).Tells (c.send a).2 := by
  obtain ⟨queued, hs, hq⟩ := h.line
  have hlt : ∀ k ∈ queued, k < l.sent.length := by
    intro k hk
    apply lt_of_mem_standing
    rw [hs]
    simp [hk]
  have hold : queued.map ((l.send a).sent[·]?) = c.items.map some := by
    rw [← hq]
    exact List.map_congr_left fun k hk ↦ getElem?_send (hlt k hk)
  have hnew : (l.send a).sent[l.sent.length]? = some a := by simp [Log.send]
  have hlen : (l.send a).sent.length = l.sent.length + 1 := by simp [Log.send]
  have hgone : ∀ k ∈ (l.send a).withdrawn, k < (l.send a).sent.length := by
    intro k hk
    have := h.gone k hk
    omega
  have hwait : ∀ w ∈ c.waiting, (l.send a).sent[w.1]? = some w.2 := by
    intro w hw
    have hw' := h.waits w hw
    rw [getElem?_send (List.getElem?_eq_some_iff.1 hw').1, hw']
  have ht := tidy_send h.tidy a
  have hi := h.issued
  by_cases hroom : c.HasRoom
  · simp only [Channel.send, if_pos hroom] at ht ⊢
    -- Nobody waits where there is room, so the sending goes right behind the items.
    have hw : c.waiting = [] := by
      by_cases hw : c.waiting = []
      · exact hw
      · have := h.tidy.2.2 hw hc
        have := hroom.2
        omega
    refine ⟨ht, by simp only; omega, hgone, ⟨queued ++ [l.sent.length], ?_, ?_⟩, hwait⟩
    · rw [h.standing_send, hs, hw]
      simp [Log.send]
    · rw [List.map_append, hold]
      simp [hnew]
  · simp only [Channel.send, if_neg hroom] at ht ⊢
    refine ⟨ht, by simp only; omega, hgone, ⟨queued, ?_, hold⟩, ?_⟩
    · rw [h.standing_send, hs]
      simp [Log.send, hi]
    · intro w hw
      rcases List.mem_append.1 hw with hw | hw
      · exact hwait w hw
      · cases List.mem_singleton.1 hw
        rw [hi]
        exact hnew

/-- A sending is not received at once. -/
theorem Tells.received_send (h : l.Tells c) (a : α) : (l.send a).received = l.received := by
  have hmap : ∀ m : Log α, m.received = (m.taken.map (m.sent[·]?)).filterMap id := by
    intro m
    rw [List.filterMap_map]
    rfl
  rw [hmap, hmap]
  congr 1
  exact List.map_congr_left fun k hk ↦ getElem?_send (h.lt_of_mem_taken hk)

/-- What is received is what was sent with the ticket that is received next. -/
theorem Tells.front (h : l.Tells c) (hr : c.receive = some (a, d)) :
    ∃ k, l.next? = some k ∧ l.sent[k]? = some a := by
  obtain ⟨queued, hs, hq⟩ := h.line
  obtain ⟨rest, hi, -⟩ := receive_cases hr
  rw [hi, List.map_cons] at hq
  obtain ⟨k, q, rfl, hk, -⟩ := List.map_eq_cons_iff.1 hq
  exact ⟨k, by simp [next?, hs], hk⟩

/-- What is received comes behind what was received before. -/
theorem Tells.received_receive (h : l.Tells c) (hr : c.receive = some (a, d)) :
    l.receive.received = l.received ++ [a] := by
  obtain ⟨k, hk, ha⟩ := h.front hr
  rw [received, received, Log.receive, hk, Option.toList_some, List.filterMap_append]
  simp [ha]

/-- Receiving takes the ticket that is received next. -/
theorem Tells.receive (h : l.Tells c) (hr : c.receive = some (a, d)) : l.receive.Tells d := by
  obtain ⟨queued, hs, hq⟩ := h.line
  have ht := tidy_receive h.tidy hr
  obtain ⟨rest, hi, hd⟩ := receive_cases hr
  rw [hi, List.map_cons] at hq
  obtain ⟨k, q, rfl, hk, hq⟩ := List.map_eq_cons_iff.1 hq
  have hnext : l.next? = some k := by simp [next?, hs]
  have hs' : l.receive.standing = l.receive.taken ++ (q ++ c.waiting.map Prod.fst) := by
    rw [show l.receive.standing = l.standing from rfl, hs]
    simp [Log.receive, hnext]
  rcases hd with rfl | ⟨⟨t, b⟩, ws, hw, rfl⟩
  · exact ⟨ht, h.issued, h.gone, ⟨q, hs', hq⟩, h.waits⟩
  · have hb : l.sent[t]? = some b := h.waits (t, b) (by rw [hw]; exact List.mem_cons_self)
    refine ⟨ht, h.issued, h.gone, ⟨q ++ [t], ?_, ?_⟩, ?_⟩
    · rw [hs', hw]
      simp
    · rw [List.map_append, List.map_append, ← hq]
      exact congrArg _ (congrArg (fun x ↦ [x]) hb)
    · intro w hm
      exact h.waits w (by rw [hw]; exact List.mem_cons_of_mem _ hm)

private theorem standing_withdraw (k : Nat) :
    ({ l with withdrawn := l.withdrawn ++ [k] } : Log α).standing =
      l.standing.filter (· != k) := by
  rw [standing, standing, List.filter_filter]
  refine List.filter_congr fun x _ ↦ ?_
  rw [Bool.eq_iff_iff]
  simp [and_comm]

/-- Who withdraws is no longer in the line, and everybody else keeps their place. -/
theorem Tells.withdraw (h : l.Tells c) (k : Nat) : (l.withdraw c k).Tells (c.withdraw k) := by
  obtain ⟨queued, hs, hq⟩ := h.line
  have htidy : (c.withdraw k).Tidy := by
    obtain ⟨h₁, h₂, h₃⟩ := h.tidy
    refine ⟨h₁, h₂, fun hw hc ↦ h₃ ?_ hc⟩
    rintro he
    exact hw (by simp [Channel.withdraw, he])
  have hwaits : ∀ w ∈ (c.withdraw k).waiting, l.sent[w.1]? = some w.2 :=
    fun w hw ↦ h.waits w (List.mem_filter.1 hw).1
  rw [Log.withdraw]
  split
  · next hd =>
    have hk := delivery_eq_accepted_iff.1 hd
    have hsame : (c.withdraw k).waiting = c.waiting := by
      refine List.filter_eq_self.2 fun w hw ↦ ?_
      have : w.1 ≠ k := fun he ↦ hk (he ▸ List.mem_map_of_mem hw)
      simpa using this
    exact ⟨htidy, h.issued, h.gone, ⟨queued, by rw [hsame]; exact hs, hq⟩, hwaits⟩
  · next hd =>
    have hk : k ∈ c.waiting.map Prod.fst := by
      rw [delivery_eq_accepted_iff] at hd
      exact Decidable.not_not.1 hd
    have hn := l.nodup_standing
    rw [hs, List.nodup_append, List.nodup_append] at hn
    obtain ⟨-, ⟨-, -, hqw⟩, htw⟩ := hn
    have hmem : k ∈ queued ++ c.waiting.map Prod.fst := List.mem_append_right _ hk
    refine ⟨htidy, h.issued, ?_, ⟨queued, ?_, hq⟩, hwaits⟩
    · intro j hj
      rcases List.mem_append.1 hj with hj | hj
      · exact h.gone j hj
      · cases List.mem_singleton.1 hj
        exact lt_of_mem_standing (l := l) (by rw [hs]; exact List.mem_append_right _ hmem)
    · have htaken : l.taken.filter (· != k) = l.taken :=
        List.filter_eq_self.2 fun j hj ↦ by simpa using htw j hj k hmem
      have hqueued : queued.filter (· != k) = queued :=
        List.filter_eq_self.2 fun j hj ↦ by simpa using hqw j hj k hk
      have hwait : (c.waiting.map Prod.fst).filter (· != k) =
        (c.withdraw k).waiting.map Prod.fst := by
        rw [Channel.withdraw, List.filter_map]
        rfl
      rw [standing_withdraw, hs, List.filter_append, List.filter_append, htaken, hqueued, hwait]

/-- The accepted tickets are those received and, behind them, those of the items. -/
theorem Tells.accepted (h : l.Tells c) :
    ∃ queued, l.accepted c = l.taken ++ queued ∧
      queued.map (l.sent[·]?) = c.items.map some := by
  obtain ⟨queued, hs, hq⟩ := h.line
  refine ⟨queued, ?_, hq⟩
  have hn := l.nodup_standing
  rw [hs, List.nodup_append, List.nodup_append] at hn
  obtain ⟨-, ⟨-, -, hqw⟩, htw⟩ := hn
  have hin : ∀ k ∈ l.taken ++ queued, c.delivery k = .accepted := by
    intro k hk
    rw [delivery_eq_accepted_iff]
    intro hw
    rcases List.mem_append.1 hk with hk | hk
    · exact htw k hk k (List.mem_append_right _ hw) rfl
    · exact hqw k hk k hw rfl
  have hout : ∀ k ∈ c.waiting.map Prod.fst, ¬ c.delivery k = .accepted := by
    intro k hk hd
    exact delivery_eq_accepted_iff.1 hd hk
  rw [Log.accepted, hs, ← List.append_assoc, List.filter_append,
    List.filter_eq_self.2 fun k hk ↦ decide_eq_true (hin k hk),
    List.filter_eq_nil_iff.2 fun k hk ↦ by simpa using hout k hk, List.append_nil]

private theorem filter_mem_append {xs ys : List Nat} (h : (xs ++ ys).Nodup) :
    (xs ++ ys).filter (· ∈ xs) = xs ∧ (xs ++ ys).filter (· ∉ xs) = ys := by
  rw [List.nodup_append] at h
  have hys : ∀ y ∈ ys, y ∉ xs := fun y hy hx ↦ h.2.2 y hx y hy rfl
  constructor
  · rw [List.filter_append, List.filter_eq_self.2 fun x hx ↦ decide_eq_true hx,
      List.filter_eq_nil_iff.2 fun y hy ↦ by simpa using hys y hy, List.append_nil]
  · rw [List.filter_append, List.filter_eq_nil_iff.2 fun x hx ↦ by simpa using hx,
      List.filter_eq_self.2 fun y hy ↦ decide_eq_true (hys y hy), List.nil_append]

/-- What has been received is found by the tickets that are in the line. -/
theorem Tells.filter_taken (h : l.Tells c) : l.standing.filter (· ∈ l.taken) = l.taken := by
  obtain ⟨queued, hs, -⟩ := h.line
  have hn := l.nodup_standing
  rw [hs] at hn ⊢
  exact (filter_mem_append hn).1

/-- The items are found by the tickets that have been let in and not been received. -/
theorem Tells.filter_queued (h : l.Tells c) :
    ((l.accepted c).filter (· ∉ l.taken)).map (l.sent[·]?) = c.items.map some := by
  obtain ⟨queued, ha, hq⟩ := h.accepted
  have hn : (l.accepted c).Nodup := l.nodup_standing.filter _
  rw [ha] at hn ⊢
  rw [(filter_mem_append hn).2, hq]

/-- Whoever still waits comes behind everybody who has been let in. -/
theorem Tells.lt_waiting (h : l.Tells c) {j : Nat} {w : Nat × α} (hj : j ∈ l.accepted c)
    (hw : w ∈ c.waiting) : j < w.1 := by
  obtain ⟨queued, hs, -⟩ := h.line
  have hp := l.pairwise_standing
  rw [hs, ← List.append_assoc, List.pairwise_append] at hp
  obtain ⟨hmem, hd⟩ := List.mem_filter.1 hj
  rw [hs, ← List.append_assoc] at hmem
  rcases List.mem_append.1 hmem with hmem | hmem
  · exact hp.2.2 j hmem w.1 (List.mem_map_of_mem hw)
  · exact absurd hmem (delivery_eq_accepted_iff.1 (of_decide_eq_true hd))

/-- What has been accepted is what has been received and, behind it, the items. -/
theorem Tells.filterMap_accepted (h : l.Tells c) :
    (l.accepted c).filterMap (l.sent[·]?) = l.received ++ c.items := by
  obtain ⟨queued, ha, hq⟩ := h.accepted
  rw [ha, List.filterMap_append, filterMap_of_map_eq hq]
  rfl

end Log

end EdgeGateway.Channel
