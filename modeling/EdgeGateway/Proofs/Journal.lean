/-!
# Journals

A journal tells the moves of a run, each with the state in which it was made. What has happened in a
run is read off its journal, so what is to hold of every run is shown by induction over journals:
`Journal.split` finds the part of the run that lies before a move and the part that lies behind it.
-/

namespace EdgeGateway

variable {σ μ : Type}

/-- The moves by which a run has come from one state to another. -/
inductive Journal (move? : σ → μ → Option σ) (a : σ) : List (σ × μ) → σ → Prop where
  | start : Journal move? a [] a
  | move {t : List (σ × μ)} {b c : σ} {m : μ} : Journal move? a t b → move? b m = some c →
    Journal move? a (t ++ [(b, m)]) c

namespace Journal

variable {move? : σ → μ → Option σ} {a b c : σ} {t u v : List (σ × μ)} {m : μ}

/-- A run consists of what was done up to a move, the move, and what was done from there. -/
theorem split (h : Journal move? a (u ++ (b, m) :: v) c) :
    Journal move? a u b ∧ ∃ d, move? b m = some d ∧ Journal move? d v c := by
  generalize ht : u ++ (b, m) :: v = t at h
  induction h generalizing v with
  | start => simp at ht
  | @move t e f n hj hm ih =>
    rcases v.eq_nil_or_concat with rfl | ⟨w, x, rfl⟩
    · obtain ⟨rfl, hx⟩ := List.append_inj' ht rfl
      cases hx
      exact ⟨hj, f, hm, .start⟩
    · rw [List.concat_eq_append, ← List.cons_append, ← List.append_assoc] at ht
      obtain ⟨hu, hx⟩ := List.append_inj' ht rfl
      cases hx
      obtain ⟨hj, d, hd, hv⟩ := ih hu
      rw [List.concat_eq_append]
      exact ⟨hj, d, hd, hv.move hm⟩

/-- Every move of a run has a part of the run before it and a part behind it. -/
theorem split_of_mem (h : Journal move? a t c) (hm : (b, m) ∈ t) :
    ∃ u v d, t = u ++ (b, m) :: v ∧ Journal move? a u b ∧ move? b m = some d ∧
      Journal move? d v c := by
  obtain ⟨u, v, rfl⟩ := List.append_of_mem hm
  obtain ⟨hu, d, hd, hv⟩ := h.split
  exact ⟨u, v, d, rfl, hu, hd, hv⟩

/-- What every move keeps is kept by a run. -/
theorem keeps {P : σ → Prop} (h : Journal move? a t b) (ha : P a)
    (kept : ∀ c d m, P c → move? c m = some d → P d) : P b := by
  induction h with
  | start => exact ha
  | move _ hm ih => exact kept _ _ _ ih hm

/-- What holds after a move, and is kept by all that is done from there, holds as long as the run
goes on. -/
theorem onward {P : σ → Prop} (h : Journal move? a (u ++ (b, m) :: v) c)
    (initially : ∀ d, move? b m = some d → P d)
    (kept : ∀ w d n e, Journal move? a (u ++ (b, m) :: w) d → P d → move? d n = some e →
      P e) : P c := by
  generalize ht : u ++ (b, m) :: v = t at h
  induction h generalizing v with
  | start => simp at ht
  | @move t d e n hj hm ih =>
    rcases v.eq_nil_or_concat with rfl | ⟨w, x, rfl⟩
    · obtain ⟨-, hx⟩ := List.append_inj' ht rfl
      cases hx
      exact initially e hm
    · rw [List.concat_eq_append, ← List.cons_append, ← List.append_assoc] at ht
      obtain ⟨rfl, hx⟩ := List.append_inj' ht rfl
      cases hx
      exact kept w d n e hj (ih rfl) hm

/-- The account that a journal gives, if every move adds to it what it does. -/
def account {ω : Type} (note : ω → σ → μ → ω) (o : ω) (t : List (σ × μ)) : ω :=
  t.foldl (fun o x ↦ note o x.1 x.2) o

/-- What is done last is added to the account of what was done before. -/
theorem account_append {ω : Type} (note : ω → σ → μ → ω) (o : ω) (t : List (σ × μ))
    (b : σ) (m : μ) : account note o (t ++ [(b, m)]) = note (account note o t) b m := by
  rw [account, List.foldl_append]
  rfl

/-- Makes moves one after the other, and keeps a journal. -/
def write? (move? : σ → μ → Option σ) (a : σ) : List μ → Option (List (σ × μ) × σ)
  | [] => some ([], a)
  | m :: ms => do
    let b ← move? a m
    let (t, c) ← write? move? b ms
    return ((a, m) :: t, c)

private theorem of_write?_from {ms : List μ} (h : Journal move? a t b)
    (hw : write? move? b ms = some (u, c)) :
    Journal move? a (t ++ u) c ∧ u.map Prod.snd = ms := by
  induction ms generalizing b t u with
  | nil =>
    cases hw
    rw [List.append_nil]
    exact ⟨h, rfl⟩
  | cons m ms ih =>
    obtain ⟨d, hd, hw⟩ := Option.bind_eq_some_iff.1 hw
    obtain ⟨⟨v, e⟩, hv, hw⟩ := Option.bind_eq_some_iff.1 hw
    cases hw
    obtain ⟨hj, hmoves⟩ := ih (h.move hd) hv
    rw [List.append_assoc] at hj
    exact ⟨hj, congrArg (m :: ·) hmoves⟩

/-- What is written that way is a journal. -/
theorem of_write? {ms : List μ} (h : write? move? a ms = some (t, c)) :
    Journal move? a t c ∧ t.map Prod.snd = ms := of_write?_from .start h

end Journal

end EdgeGateway
