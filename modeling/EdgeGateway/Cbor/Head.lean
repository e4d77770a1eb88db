import EdgeGateway.Bytes.BigEndian
import EdgeGateway.Fault

/-!
# Heads of CBOR items

Every item begins with a byte that holds a major type in its upper three bits and an argument, or
the width of the argument behind it, in its lower five. Main statement: a written head is read back
(`read_write`).
-/

namespace EdgeGateway.Cbor

/-- The argument of a head. -/
inductive Argument where
  /-- A number, and the count of bytes behind the first that it took. -/
  | value (width n : Nat)
  /-- No length: the content goes on until a break. -/
  | indefinite
  deriving Repr, DecidableEq

/-- The first part of an item. -/
inductive Head where
  | unsigned (n : Nat)
  | negative (n : Nat)
  | bytes (length : Option Nat)
  | text (length : Option Nat)
  | array (length : Option Nat)
  | map (length : Option Nat)
  | tag (n : Nat)
  | simple (n : Nat)
  | float (width bits : Nat)
  /-- Ends content of indefinite length. -/
  | stop
  deriving Repr, DecidableEq

namespace Argument

/-- The length that an argument stands for. -/
def length? : Argument → Option Nat
  | value _ n => some n
  | indefinite => none

/-- Reads the argument that the lower five bits announce. -/
def read (minor : Nat) (rest : Bytes) : Except CodecFault (Argument × Bytes) :=
  if minor < 24 then .ok (value 0 minor, rest)
  else if minor < 28 then
    match rest.split? (1 <<< (minor - 24)) with
    | none => .error .endOfInput
    | some (b, rest) => .ok (value (1 <<< (minor - 24)) b.ofBigEndian, rest)
  else if minor = 31 then .ok (indefinite, rest)
  else .error .illFormed

/-- Reading an argument gives back no more than there was. -/
theorem length_le_of_read {minor : Nat} {input rest : Bytes} {a : Argument}
    (h : read minor input = .ok (a, rest)) : rest.length ≤ input.length := by
  unfold read at h
  split at h
  · simp_all
  · split at h
    · split at h
      · simp at h
      · next b r hs =>
        simp only [Except.ok.injEq, Prod.mk.injEq] at h
        have := (Bytes.split?_eq_some.1 hs).1
        subst this
        simp [h.2]
    · split at h <;> simp_all

end Argument

namespace Head

/-- The head of a major type with an argument. Numbers and tags have no indefinite form. -/
def ofArgument : (major : Nat) → Argument → Except CodecFault Head
  | 0, .value _ n => .ok (unsigned n)
  | 1, .value _ n => .ok (negative n)
  | 2, a => .ok (bytes a.length?)
  | 3, a => .ok (text a.length?)
  | 4, a => .ok (array a.length?)
  | 5, a => .ok (map a.length?)
  | 6, .value _ n => .ok (tag n)
  | 7, .value width n => .ok (if width ≤ 1 then simple n else float width n)
  | 7, .indefinite => .ok stop
  | _, _ => .error .illFormed

/-- Reads one head. -/
def read : Bytes → Except CodecFault (Head × Bytes)
  | [] => .error .endOfInput
  | b :: rest =>
    match Argument.read (b.toNat % 32) rest with
    | .error e => .error e
    | .ok (a, rest) =>
      match ofArgument (b.toNat / 32) a with
      | .error e => .error e
      | .ok head => .ok (head, rest)

/-- The shortest head of a major type with the argument `n`, which is taken modulo 2^64. -/
def write (major n : Nat) : Bytes :=
  if n < 24 then [UInt8.ofNat (major * 32 + n)]
  else if n < UInt8.size then UInt8.ofNat (major * 32 + 24) :: Bytes.toBigEndian 1 n
  else if n < UInt16.size then UInt8.ofNat (major * 32 + 25) :: Bytes.toBigEndian 2 n
  else if n < UInt32.size then UInt8.ofNat (major * 32 + 26) :: Bytes.toBigEndian 4 n
  else UInt8.ofNat (major * 32 + 27) :: Bytes.toBigEndian 8 n

/-- Reading a head takes at least one byte. -/
theorem length_lt_of_read {input rest : Bytes} {head : Head} (h : read input = .ok (head, rest)) :
    rest.length < input.length := by
  unfold read at h
  split at h
  · simp at h
  · next b r =>
    split at h
    · simp at h
    · next a r' ha =>
      split at h
      · simp at h
      · simp only [Except.ok.injEq, Prod.mk.injEq] at h
        have := Argument.length_le_of_read ha
        simp only [List.length_cons, ← h.2]
        omega

/-- A head whose argument stands in the bytes behind it is read from them. -/
theorem read_wide (major minor n width : Nat) (t : Bytes) (hm : major < 8)
    (h24 : 24 ≤ minor) (h28 : minor < 28) (hw : 1 <<< (minor - 24) = width)
    (hn : n < Bytes.bound width) : read
      (UInt8.ofNat (major * 32 + minor) :: Bytes.toBigEndian width n ++ t) =
      (ofArgument major (.value width n)).map (fun h ↦ (h, t)) := by
  have hb : (UInt8.ofNat (major * 32 + minor)).toNat = major * 32 + minor := by
    rw [UInt8.toNat_ofNat']
    omega
  have h1 : (major * 32 + minor) % 32 = minor := by omega
  have h2 : (major * 32 + minor) / 32 = major := by omega
  have hs : (Bytes.toBigEndian width n ++ t).split? width = some (Bytes.toBigEndian width n, t) :=
    Bytes.split?_eq_some.2 ⟨rfl, by simp⟩
  have ha : Argument.read minor (Bytes.toBigEndian width n ++ t) = .ok (.value width n, t) := by
    rw [Argument.read, if_neg (by omega), if_pos h28]
    simp only [hw, hs, Bytes.ofBigEndian_toBigEndian, Nat.mod_eq_of_lt hn]
  simp only [List.cons_append, read, hb, h1, h2, ha]
  cases ofArgument major (.value width n) <;> rfl

/-- A written head is read back, whatever follows it. The width of the argument is the least. -/
theorem read_write (major n : Nat) (t : Bytes) (hm : major < 7) (hn : n < UInt64.size) :
    ∃ width, read (write major n ++ t) =
      (ofArgument major (.value width n)).map (fun h ↦ (h, t)) := by
  unfold write
  split
  · refine ⟨0, ?_⟩
    have hb : (UInt8.ofNat (major * 32 + n)).toNat = major * 32 + n := by
      rw [UInt8.toNat_ofNat']
      omega
    have h1 : (major * 32 + n) % 32 = n := by omega
    have h2 : (major * 32 + n) / 32 = major := by omega
    have ha : Argument.read n t = .ok (.value 0 n, t) := by
      rw [Argument.read, if_pos (by omega)]
    simp only [List.cons_append, List.nil_append, read, hb, h1, h2, ha]
    cases ofArgument major (.value 0 n) <;> rfl
  · split
    · exact ⟨1, read_wide major 24 n 1 t (by omega) (by omega) (by omega) rfl ‹_›⟩
    · split
      · exact ⟨2, read_wide major 25 n 2 t (by omega) (by omega) (by omega) rfl ‹_›⟩
      · split
        · exact ⟨4, read_wide major 26 n 4 t (by omega) (by omega) (by omega) rfl ‹_›⟩
        · exact ⟨8, read_wide major 27 n 8 t (by omega) (by omega) (by omega) rfl ‹_›⟩

end Head

end EdgeGateway.Cbor
