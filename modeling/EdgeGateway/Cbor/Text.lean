import EdgeGateway.Bytes.BigEndian
import EdgeGateway.Fault

/-!
# Text in byte strings

Text is UTF-8. A long text arrives in windows of 4096 bytes, each checked before the next is read,
and a character may lie across two windows. So when the input ends too early, what is wrong with the
text depends on whether a window before the end was already wrong.
-/

namespace EdgeGateway.Cbor.Text

/-- The UTF-8 bytes of a text. -/
def encode (s : String) : Bytes := s.toUTF8.data.toList

/-- The text that the bytes spell, if they are UTF-8. -/
def decode? (b : Bytes) : Option String := String.fromUTF8? b.toByteArray

/-- The number of bytes in the whole characters at the front of `b`, from position `i` on, looking
at no more than `fuel` of them. -/
def wholeFrom (b : ByteArray) : (fuel i : Nat) → Nat
  | 0, i => i
  | fuel + 1, i =>
    match b.utf8DecodeChar? i with
    | some c => wholeFrom b fuel (i + c.utf8Size)
    | none => i

/-- The bytes behind the last whole character at the front of `b`. -/
def unfinished (b : Bytes) : Bytes := b.drop (wholeFrom b.toByteArray b.length 0)

/-- The number of bytes that are checked at a time. -/
def window : Nat := 4096

/-- What is wrong with a text whose bytes end early: a window that no more bytes can mend, or the
end itself. -/
def truncated (input : Bytes) : CodecFault := go (input.length + 1) [] input
where
  go : Nat → Bytes → Bytes → CodecFault
  | 0, _, _ => .endOfInput
  | fuel + 1, kept, input =>
    match input.split? (window - kept.length) with
    | none => .endOfInput
    | some (piece, rest) =>
      let left := unfinished (kept ++ piece)
      if 3 < left.length then .illFormed else go fuel left rest

/-- Reads a text of `n` bytes. -/
def read (n : Nat) (input : Bytes) : Except CodecFault (String × Bytes) :=
  match input.split? n with
  | none => .error (truncated input)
  | some (b, rest) =>
    match decode? b with
    | none => .error .illFormed
    | some s => .ok (s, rest)

/-- A text is read from the bytes that spell it. -/
theorem decode?_encode (s : String) : decode? (encode s) = some s := by
  have h : (encode s).toByteArray = s.toByteArray := by
    apply ByteArray.ext
    simp [encode]
  have hv : s.toByteArray.IsValidUTF8 := s.isValidUTF8
  simp [decode?, String.fromUTF8?, h, hv, String.fromUTF8]

/-- A written text is read back, whatever follows it. -/
theorem read_encode (s : String) (t : Bytes) :
    read (encode s).length (encode s ++ t) = .ok (s, t) := by
  have h : (encode s ++ t).split? (encode s).length = some (encode s, t) :=
    Bytes.split?_eq_some.2 ⟨rfl, rfl⟩
  simp [read, h, decode?_encode]

/-- Reading a text of known length gives back no more than there was. -/
theorem length_le_of_read {n : Nat} {input rest : Bytes} {s : String}
    (h : read n input = .ok (s, rest)) : rest.length ≤ input.length := by
  unfold read at h
  split at h
  · simp at h
  · next b r hs =>
    split at h
    · simp at h
    · simp only [Except.ok.injEq, Prod.mk.injEq] at h
      have := (Bytes.split?_eq_some.1 hs).1
      subst this
      simp [h.2]

end EdgeGateway.Cbor.Text
