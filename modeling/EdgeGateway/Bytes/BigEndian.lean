/-!
# Big-endian numbers in byte lists

A number takes a fixed count of bytes, the most significant first. Main statements: reading what
was written gives the number back modulo the width (`ofBigEndian_toBigEndian`), writing what was
read gives the bytes back (`toBigEndian_ofBigEndian`), and every byte list is below the bound that
its length sets (`ofBigEndian_lt`).
-/

namespace EdgeGateway

/-- A sequence of octets. -/
abbrev Bytes := List UInt8

namespace Bytes

/-- The number whose base-256 digits are the bytes, the most significant first. -/
def ofBigEndian (b : Bytes) : Nat := b.foldl (fun n x ↦ n * 256 + x.toNat) 0

/-- The last `width` base-256 digits of `n`, the most significant first. -/
def toBigEndian : (width n : Nat) → Bytes
  | 0, _ => []
  | w + 1, n => toBigEndian w (n / 256) ++ [UInt8.ofNat n]

/-- How many numbers `width` bytes can stand for. -/
def bound : (width : Nat) → Nat
  | 0 => 1
  | w + 1 => bound w * 256

/-- The number written in the `width` bytes at `offset`. -/
def field (b : Bytes) (offset width : Nat) : Nat := ofBigEndian ((b.drop offset).take width)

/-- The first `n` bytes and what follows them, if there are that many. -/
def split? (n : Nat) (b : Bytes) : Option (Bytes × Bytes) :=
  if (b.take n).length < n then none else some (b.take n, b.drop n)

/-- No bytes are the number 0. -/
@[simp] theorem ofBigEndian_nil : ofBigEndian [] = 0 := rfl

/-- A byte behind others is the last digit of the number. -/
theorem ofBigEndian_append_singleton (b : Bytes) (x : UInt8) :
    ofBigEndian (b ++ [x]) = ofBigEndian b * 256 + x.toNat := by
  simp [ofBigEndian, List.foldl_append]

/-- A number is written with as many bytes as asked for. -/
@[simp] theorem length_toBigEndian (w n : Nat) : (toBigEndian w n).length = w := by
  induction w generalizing n with
  | zero => rfl
  | succ w ih => simp [toBigEndian, ih]

/-- Reading back gives the number modulo what the width can hold. -/
theorem ofBigEndian_toBigEndian (w n : Nat) : ofBigEndian (toBigEndian w n) = n % bound w := by
  induction w generalizing n with
  | zero => simp [toBigEndian, bound, Nat.mod_one]
  | succ w ih =>
    rw [toBigEndian, ofBigEndian_append_singleton, ih, bound, Nat.mul_comm (bound w) 256,
      Nat.mod_mul, UInt8.toNat_ofNat']
    omega

private theorem exists_append_singleton {b : Bytes} {n : Nat} (h : b.length = n + 1) :
    ∃ a x, b = a ++ [x] ∧ a.length = n := by
  have hb : b ≠ [] := by intro h0; simp [h0] at h
  exact ⟨b.dropLast, b.getLast hb, (List.dropLast_concat_getLast hb).symm, by simp [h]⟩

/-- Writing what was read gives the bytes back. -/
theorem toBigEndian_ofBigEndian (b : Bytes) : toBigEndian b.length (ofBigEndian b) = b := by
  generalize hn : b.length = n
  induction n generalizing b with
  | zero => simp [List.eq_nil_of_length_eq_zero hn, toBigEndian]
  | succ n ih =>
    obtain ⟨a, x, rfl, ha⟩ := exists_append_singleton hn
    have hx := x.toNat_lt
    have hq : (ofBigEndian a * 256 + x.toNat) / 256 = ofBigEndian a := by omega
    have hr : UInt8.ofNat (ofBigEndian a * 256 + x.toNat) = x := by
      apply UInt8.toNat_inj.mp
      rw [UInt8.toNat_ofNat']
      omega
    rw [ofBigEndian_append_singleton, toBigEndian, hq, hr, ih a ha]

/-- A byte list stands for a number below the bound that its length sets. -/
theorem ofBigEndian_lt (b : Bytes) : ofBigEndian b < bound b.length := by
  generalize hn : b.length = n
  induction n generalizing b with
  | zero => simp [List.eq_nil_of_length_eq_zero hn, bound]
  | succ n ih =>
    obtain ⟨a, x, rfl, ha⟩ := exists_append_singleton hn
    have hx := x.toNat_lt
    have := ih a ha
    rw [ofBigEndian_append_singleton, bound]
    omega

/-- More bytes hold larger numbers. -/
theorem bound_mono {v w : Nat} (h : v ≤ w) : bound v ≤ bound w := by
  induction h with
  | refl => exact Nat.le_refl _
  | step _ ih =>
    rw [bound]
    omega

/-- Bytes are split behind the first `n` just when there are that many. -/
theorem split?_eq_some {n : Nat} {b front rest : Bytes} :
    split? n b = some (front, rest) ↔ b = front ++ rest ∧ front.length = n := by
  simp only [split?, List.length_take]
  constructor
  · intro h
    split at h
    · simp at h
    · simp only [Option.some.injEq, Prod.mk.injEq] at h
      obtain ⟨rfl, rfl⟩ := h
      exact ⟨(List.take_append_drop n b).symm, by simp; omega⟩
  · rintro ⟨rfl, rfl⟩
    simp

/-- Splitting fails exactly on a list that is too short. -/
theorem split?_eq_none {n : Nat} {b : Bytes} : split? n b = none ↔ b.length < n := by
  simp only [split?, List.length_take]
  split <;> simp <;> omega

end Bytes

end EdgeGateway
