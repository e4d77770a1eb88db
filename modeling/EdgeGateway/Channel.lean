/-!
# Bounded channels

A channel holds a bounded number of items, first in, first out. A sender that finds it full waits
for room; those who wait are let in in the order in which they came. Every sending has a ticket, by
which the sender learns what became of it and may withdraw while it waits. When nobody will receive
any more the channel is closed, and whoever still waits is refused.

Main statements: `contents_send` and `contents_of_receive` say that the items, followed by what
waits, are a queue; `Tidy` says that nobody waits while there is room, and every operation keeps it.
-/

namespace EdgeGateway

/-- A bounded queue with those who wait for room in it. -/
structure Channel (α : Type) where
  capacity : Nat
  items : List α := []
  /-- The tickets of those who wait, with what they send. -/
  waiting : List (Nat × α) := []
  /-- The number of tickets given. -/
  issued : Nat := 0
  closed : Bool := false
  deriving Repr, DecidableEq

/-- What has become of a sending. -/
inductive Delivery where
  | accepted
  | pending
  | refused
  deriving Repr, DecidableEq

namespace Channel

variable {α : Type}

/-- An empty channel, which has room for at least one item. -/
def empty (capacity : Nat) : Channel α := { capacity := max capacity 1 }

/-- Is there room for an item? -/
def HasRoom (c : Channel α) : Prop := c.closed = false ∧ c.items.length < c.capacity

/-- Room is a matter of counting. -/
instance (c : Channel α) : Decidable c.HasRoom := inferInstanceAs (Decidable (_ ∧ _))

/-- Sends an item, and gives the ticket of the sending. -/
def send (c : Channel α) (a : α) : Nat × Channel α :=
  (c.issued,
    if c.HasRoom then { c with items := c.items ++ [a], issued := c.issued + 1 }
    else { c with waiting := c.waiting ++ [(c.issued, a)], issued := c.issued + 1 })

/-- Sends an item only if there is room, and loses it otherwise. -/
def offer (c : Channel α) (a : α) : Channel α :=
  if c.HasRoom then { c with items := c.items ++ [a] } else c

/-- What has become of the sending with a ticket. -/
def delivery (c : Channel α) (ticket : Nat) : Delivery :=
  if c.waiting.any (·.1 == ticket) then if c.closed then .refused else .pending else .accepted

/-- Lets the one who has waited longest in, if there is room. -/
def refill (c : Channel α) : Channel α :=
  match c.waiting with
  | [] => c
  | (_, a) :: rest => if c.HasRoom then { c with items := c.items ++ [a], waiting := rest } else c

/-- Takes the oldest item, and lets the one who has waited longest in. -/
def receive (c : Channel α) : Option (α × Channel α) :=
  match c.items with
  | [] => none
  | a :: rest => some (a, { c with items := rest }.refill)

/-- Takes back a sending that still waits. -/
def withdraw (c : Channel α) (ticket : Nat) : Channel α :=
  { c with waiting := c.waiting.filter fun w ↦ w.1 != ticket }

/-- Nobody receives any more, and what the channel holds is lost. -/
def close (c : Channel α) : Channel α := { c with closed := true, items := [] }

/-- The items and, behind them, what waits. -/
def contents (c : Channel α) : List α := c.items ++ c.waiting.map Prod.snd

/-- Nobody waits while there is room, and there is never more in a channel than it has room for. -/
def Tidy (c : Channel α) : Prop :=
  c.items.length ≤ c.capacity ∧ 0 < c.capacity ∧
    (c.waiting ≠ [] → c.closed = false → c.items.length = c.capacity)

/-- A new channel is tidy. -/
theorem tidy_empty (n : Nat) : (empty n : Channel α).Tidy := by
  refine ⟨Nat.zero_le _, ?_, fun h ↦ absurd rfl h⟩
  show 0 < max n 1
  omega

/-- To send leaves a channel tidy. -/
theorem tidy_send {c : Channel α} (h : c.Tidy) (a : α) : (c.send a).2.Tidy := by
  obtain ⟨h₁, h₂, h₃⟩ := h
  unfold send
  split
  · next hr =>
    refine ⟨by simp; exact hr.2, h₂, fun hw hc ↦ ?_⟩
    have := h₃ hw hc
    have := hr.2
    omega
  · next hr =>
    refine ⟨h₁, h₂, fun _ hc ↦ ?_⟩
    simp only [HasRoom, not_and] at hr
    have := hr hc
    simp only at h₁ ⊢
    omega

/-- To receive leaves a channel tidy. -/
theorem tidy_receive {c d : Channel α} {a : α} (h : c.Tidy) (hr : c.receive = some (a, d)) :
    d.Tidy := by
  obtain ⟨h₁, h₂, h₃⟩ := h
  unfold receive at hr
  split at hr
  · simp at hr
  · next x rest hi =>
    simp only [Option.some.injEq, Prod.mk.injEq] at hr
    obtain ⟨rfl, rfl⟩ := hr
    simp only [hi, List.length_cons] at h₁ h₃
    unfold refill
    split
    · next hw => exact ⟨by simp only; omega, h₂, fun h ↦ absurd hw h⟩
    · next t b ws hw =>
      split
      · next hroom =>
        refine ⟨by simp only [List.length_append, List.length_singleton]; omega, h₂, ?_⟩
        intro _ hc
        have := h₃ (by simp only at hw; rw [hw]; simp) hc
        simp only [List.length_append, List.length_singleton]
        omega
      · next hroom =>
        refine ⟨by simp only; omega, h₂, fun _ hc ↦ ?_⟩
        exact absurd ⟨hc, by simp only; omega⟩ hroom

/-- What is left of a channel when the oldest item is taken: the next one has been let in, if one
waited and there was room. -/
theorem receive_cases {c d : Channel α} {a : α} (h : c.receive = some (a, d)) :
    ∃ rest, c.items = a :: rest ∧ (d = { c with items := rest } ∨
      ∃ w ws, c.waiting = w :: ws ∧ d = { c with items := rest ++ [w.2], waiting := ws }) := by
  unfold receive at h
  split at h
  · cases h
  · next x rest hi =>
    cases h
    refine ⟨rest, hi, ?_⟩
    unfold refill
    split
    · exact .inl rfl
    · next t b ws hw =>
      split
      · exact .inr ⟨(t, b), ws, hw, rfl⟩
      · exact .inl rfl

/-- Sending neither opens nor closes a channel. -/
theorem closed_send (c : Channel α) (a : α) : (c.send a).2.closed = c.closed := by
  unfold send
  split <;> rfl

/-- Receiving neither opens nor closes a channel. -/
theorem closed_of_receive {c d : Channel α} {a : α} (h : c.receive = some (a, d)) :
    d.closed = c.closed := by
  obtain ⟨rest, -, rfl | ⟨w, ws, -, rfl⟩⟩ := receive_cases h <;> rfl

/-- A sending goes behind everything that is there. -/
theorem contents_send {c : Channel α} (h : c.Tidy) (hc : c.closed = false) (a : α) :
    (c.send a).2.contents = c.contents ++ [a] := by
  unfold send
  split
  · next hr =>
    have hw : c.waiting = [] := by
      by_cases hw : c.waiting = []
      · exact hw
      · have := h.2.2 hw hc
        have := hr.2
        omega
    simp [contents, hw]
  · simp [contents]

/-- What is received was in front of everything that is there. -/
theorem contents_of_receive {c d : Channel α} {a : α} (hr : c.receive = some (a, d)) :
    c.contents = a :: d.contents := by
  obtain ⟨rest, hi, rfl | ⟨w, ws, hw, rfl⟩⟩ := receive_cases hr
  · simp [contents, hi]
  · simp [contents, hi, hw]

end Channel

end EdgeGateway
