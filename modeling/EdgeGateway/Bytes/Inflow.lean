import EdgeGateway.Bytes.BigEndian

/-!
# Bytes that arrive

Bytes arrive in chunks. A reader takes as many as it needs, wherever the cuts are.

Main statement: `take?_eq_none_iff` and `take?_flatten` say that taking bytes depends on the bytes
alone and not on the chunks.
-/

namespace EdgeGateway

/-- Bytes that have arrived and not been read, and whether these are the last. -/
structure Inflow where
  chunks : List Bytes := []
  ended : Bool := false
  deriving Repr, DecidableEq

namespace Inflow

/-- The first `n` bytes of some chunks, and the chunks behind them. -/
def takeChunks? (n : Nat) : List Bytes → Option (Bytes × List Bytes)
  | [] => if n = 0 then some ([], []) else none
  | c :: cs =>
    match c.split? n with
    | some (b, rest) => some (b, rest :: cs)
    | none => (takeChunks? (n - c.length) cs).map fun (b, rest) ↦ (c ++ b, rest)

/-- The bytes that have arrived and not been read. -/
def bytes (s : Inflow) : Bytes := s.chunks.flatten

/-- One more chunk arrives. -/
def push (s : Inflow) (c : Bytes) : Inflow := { s with chunks := s.chunks ++ [c] }

/-- No more bytes will arrive. -/
def finish (s : Inflow) : Inflow := { s with ended := true }

/-- Everything that has arrived is read. -/
def drain (s : Inflow) : Inflow := { s with chunks := [] }

/-- Takes `n` bytes, if they have arrived. -/
def take? (s : Inflow) (n : Nat) : Option (Bytes × Inflow) :=
  (takeChunks? n s.chunks).map fun (b, cs) ↦ (b, { s with chunks := cs })

/-- Taking bytes off chunks fails just when the chunks hold too few. -/
theorem takeChunks?_eq_none_iff {n : Nat} {cs : List Bytes} :
    takeChunks? n cs = none ↔ cs.flatten.length < n := by
  induction cs generalizing n with
  | nil => by_cases hn : n = 0 <;> simp [takeChunks?, hn]; omega
  | cons c cs ih =>
    simp only [takeChunks?, List.flatten_cons, List.length_append]
    split
    · next b rest h =>
      obtain ⟨rfl, rfl⟩ := Bytes.split?_eq_some.1 h
      simp
      omega
    · next h =>
      have hc : c.length < n := Bytes.split?_eq_none.1 h
      simp only [Option.map_eq_none_iff, ih]
      omega

/-- What is taken off chunks and what is left are the bytes of the chunks. -/
theorem takeChunks?_flatten {n : Nat} {cs rest : List Bytes} {b : Bytes}
    (h : takeChunks? n cs = some (b, rest)) : cs.flatten = b ++ rest.flatten ∧ b.length = n := by
  induction cs generalizing n b rest with
  | nil =>
    by_cases hn : n = 0
    · simp only [takeChunks?, hn, if_true, Option.some.injEq, Prod.mk.injEq] at h
      obtain ⟨rfl, rfl⟩ := h
      simp [hn]
    · simp [takeChunks?, hn] at h
  | cons c cs ih =>
    simp only [takeChunks?] at h
    split at h
    · next b' r hs =>
      simp only [Option.some.injEq, Prod.mk.injEq] at h
      obtain ⟨rfl, rfl⟩ := h
      obtain ⟨rfl, rfl⟩ := Bytes.split?_eq_some.1 hs
      simp
    · next hs =>
      have hc : c.length < n := Bytes.split?_eq_none.1 hs
      obtain ⟨⟨b', r⟩, hr, he⟩ := Option.map_eq_some_iff.1 h
      simp only [Prod.mk.injEq] at he
      obtain ⟨rfl, rfl⟩ := he
      obtain ⟨hf, hl⟩ := ih hr
      simp only [List.flatten_cons, hf, List.append_assoc, List.length_append, hl, true_and]
      omega

/-- Bytes cannot be taken exactly when fewer have arrived. -/
theorem take?_eq_none_iff {s : Inflow} {n : Nat} : s.take? n = none ↔ s.bytes.length < n := by
  simp [take?, bytes, takeChunks?_eq_none_iff]

/-- What is taken and what is left are together what there was. -/
theorem take?_flatten {s t : Inflow} {n : Nat} {b : Bytes} (h : s.take? n = some (b, t)) :
    s.bytes = b ++ t.bytes ∧ b.length = n ∧ t.ended = s.ended := by
  obtain ⟨⟨b', cs⟩, hc, he⟩ := Option.map_eq_some_iff.1 h
  simp only [Prod.mk.injEq] at he
  obtain ⟨rfl, rfl⟩ := he
  exact ⟨(takeChunks?_flatten hc).1, (takeChunks?_flatten hc).2, rfl⟩

end Inflow

end EdgeGateway
