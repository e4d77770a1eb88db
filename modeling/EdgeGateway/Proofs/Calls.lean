import Mathlib.Data.List.Forall2
import Mathlib.Data.List.Induction

/-!
# Calls and answers

What can only be called is known by its answers. `Calls.answers` gives them for any sequence of
calls. What every call keeps is kept by all (`Calls.log_induction`), and two things that answer
every call alike, as long as they stand in a relation that every call keeps, answer all sequences of
calls alike (`Calls.forall₂_answers`).
-/

namespace EdgeGateway.Calls

variable {σ τ κ α : Type}

/-- The answers to calls that are made one after the other, and what is left then. -/
def answers (perform : σ → κ → α × σ) : σ → List κ → List α × σ
  | s, [] => ([], s)
  | s, c :: cs =>
    let (a, s) := perform s c
    let (as, s) := answers perform s cs
    (a :: as, s)

variable {perform : σ → κ → α × σ} {perform' : τ → κ → α × τ}

/-- The first call is answered first, and the others by what it has left. -/
theorem answers_cons (s : σ) (c : κ) (cs : List κ) :
    answers perform s (c :: cs) =
      ((perform s c).1 :: (answers perform (perform s c).2 cs).1,
        (answers perform (perform s c).2 cs).2) :=
  rfl

/-- Calls go on where the calls before them have left off. -/
theorem answers_append (s : σ) (l r : List κ) :
    answers perform s (l ++ r) =
      ((answers perform s l).1 ++ (answers perform (answers perform s l).2 r).1,
        (answers perform (answers perform s l).2 r).2) := by
  induction l generalizing s with
  | nil => rfl
  | cons c l ih => rw [List.cons_append, answers_cons, answers_cons, ih, List.cons_append]

/-- Every call has one answer. -/
@[simp] theorem length_answers (s : σ) (cs : List κ) :
    (answers perform s cs).1.length = cs.length := by
  induction cs generalizing s with
  | nil => rfl
  | cons c cs ih => rw [answers_cons, List.length_cons, List.length_cons, ih]

/-- The calls, each with its answer. -/
def log (perform : σ → κ → α × σ) (s : σ) (cs : List κ) : List (κ × α) :=
  cs.zip (answers perform s cs).1

/-- Later calls do not change what has been answered. -/
theorem log_append (s : σ) (l r : List κ) :
    log perform s (l ++ r) = log perform s l ++ log perform (answers perform s l).2 r := by
  rw [log, answers_append, List.zip_append (length_answers s l).symm]
  rfl

/-- What holds before the first call and is kept by every call holds of the calls, their answers and
what is left. -/
theorem log_induction {P : σ → List κ → List (κ × α) → Prop} {s : σ} (start : P s [] [])
    (step : ∀ t cs l c, P t cs l → P (perform t c).2 (cs ++ [c]) (l ++ [(c, (perform t c).1)]))
    (cs : List κ) : P (answers perform s cs).2 cs (log perform s cs) := by
  induction cs using List.reverseRecOn with
  | nil => exact start
  | append_singleton cs c ih =>
    rw [answers_append, log_append]
    exact step _ _ _ c ih

/-- Things in a relation that every call keeps give answers that agree, if the answers to every
single call do. -/
theorem forall₂_answers {R : σ → τ → Prop} {Agree : α → α → Prop} {s : σ} {t : τ}
    (h : R s t)
    (step : ∀ s t c, R s t → Agree (perform s c).1 (perform' t c).1 ∧
      R (perform s c).2 (perform' t c).2)
    (cs : List κ) :
    List.Forall₂ Agree (answers perform s cs).1 (answers perform' t cs).1 ∧
      R (answers perform s cs).2 (answers perform' t cs).2 := by
  induction cs generalizing s t with
  | nil => exact ⟨.nil, h⟩
  | cons c cs ih =>
    obtain ⟨ha, hr⟩ := step s t c h
    obtain ⟨has, hrs⟩ := ih hr
    exact ⟨.cons ha has, hrs⟩

end EdgeGateway.Calls
