/-!
# Time

Time is counted in milliseconds from the start of a run. It passes in leaps from one instant at
which something falls due to the next.
-/

namespace EdgeGateway.Clock

/-- The first of the instants that lie after `now`. -/
def next? (now : Nat) (instants : List Nat) : Option Nat := (instants.filter (now < ·)).min?

/-- The next instant is in the future. -/
theorem lt_of_next? {now t : Nat} {instants : List Nat} (h : next? now instants = some t) :
    now < t := by
  have := List.min?_mem h
  simpa using (List.mem_filter.1 this).2

/-- Lets time pass from `now` to `target`, with a visit at each instant on the way at which
something falls due and one at the end. -/
def pass {σ : Type} (instants : σ → List Nat) (visit : Nat → σ → σ) (target now : Nat)
    (s : σ) : σ :=
  match _h : next? now (instants s) with
  | some t => if t < target then pass instants visit target t (visit t s) else visit target s
  | none => visit target s
termination_by target - now
decreasing_by
  have := lt_of_next? (by assumption)
  omega

/-- When a ticker that was due at `due` and taken up at `now` is due again. One that was taken up in
time keeps its pace, one that was late by more than five milliseconds starts over. -/
def nextTick (due now period : Nat) : Nat :=
  if due + 5 < now then now + period else due + period

end EdgeGateway.Clock
