/-!
# A schedule

A task is a step that may or may not be possible. This schedule gives each task in turn the chance
to work until it has to wait, and goes round until no task can do anything. It is one schedule among
many; what a scenario shows is what is left when all is at rest.
-/

namespace EdgeGateway.Schedule

/-- A bound on the steps of one task and on the rounds, which no scenario comes near. -/
def patience : Nat := 1 <<< 40

variable {σ : Type}

/-- Takes a step again and again as long as it is possible, and tells whether it ever was or
anything had moved before. -/
def exhaust (step : σ → Option σ) : (fuel : Nat) → (moved : Bool) → σ → Bool × σ
  | 0, moved, s => (moved, s)
  | fuel + 1, moved, s =>
    match step s with
    | none => (moved, s)
    | some s => exhaust step fuel true s

/-- Gives every task a turn, and tells whether any could do something. -/
def round (tasks : List (σ → Option σ)) (s : σ) : Bool × σ :=
  tasks.foldl (fun (moved, s) step ↦ exhaust step patience moved s) (false, s)

/-- Goes round until all is at rest. The tasks are those of the state at the start of each round. -/
def settle (tasks : σ → List (σ → Option σ)) : (rounds : Nat) → σ → σ
  | 0, s => s
  | rounds + 1, s =>
    match round (tasks s) s with
    | (true, s) => settle tasks rounds s
    | (false, s) => s

/-- The first of several steps that is possible. -/
def first (steps : List (σ → Option σ)) (s : σ) : Option σ := steps.findSome? (· s)

end EdgeGateway.Schedule
