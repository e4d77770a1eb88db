import EdgeGateway.Proofs.Wire.Framing

/-!
# Headers, to the byte

Writing a header and reading one are inverse to each other wherever reading succeeds at all,
whatever the checksum is. Reading fails on too few bytes, on too long a body and on an unknown flag,
and on nothing else; what is wrong is looked for in this order. The fields that both headers have
stand in the same places. `headers_exact` puts this together for both.
-/

namespace EdgeGateway

namespace Bytes

/-- A field of one byte is that byte. -/
theorem field_one {b : Bytes} {offset : Nat} {v : UInt8} (h : b[offset]? = some v) :
    b.field offset 1 = v.toNat := by
  obtain ⟨hlt, rfl⟩ := List.getElem?_eq_some_iff.1 h
  rw [field, List.drop_eq_getElem_cons hlt, List.take_succ_cons, List.take_zero]
  simp [ofBigEndian]

end Bytes

namespace Flag

/-- A byte stands for no flag just when it is neither 0 nor 1. -/
theorem ofByte_eq_error_iff {v : UInt8} {cause : Malformed} :
    ofByte v = .error cause ↔ (v ≠ 0 ∧ v ≠ 1) ∧ cause = .unknownFlag v := by
  unfold ofByte
  split
  · simp
  · simp
  · next h0 h1 =>
    simp only [Except.error.injEq, eq_comm, iff_and_self]
    exact fun _ ↦ ⟨fun h ↦ h0 h, fun h ↦ h1 h⟩

end Flag

/-! ### Why bytes are no header -/

/-- The first thing that is wrong with bytes that are no header of a given size. -/
inductive Header.Defect (layer : Layer) (size : Nat) (b : Bytes) : Malformed → Prop
  | short : b.length < size → Defect layer size b (.short layer b.length size)
  | oversized : size ≤ b.length → maxBodyLength < b.field 9 4 →
    Defect layer size b (.oversized (b.field 9 4) maxBodyLength)
  | unknownFlag {v : UInt8} : size ≤ b.length → b.field 9 4 ≤ maxBodyLength →
    b[8]? = some v → v ≠ 0 → v ≠ 1 → Defect layer size b (.unknownFlag v)

namespace FrameHeader

/-- Fields are refused for the length that they announce, and else for their flag. -/
theorem ofFields_eq_error_iff {b : Bytes} {v : UInt8} {cause : Malformed} (hv : b[8]? = some v) :
    ofFields b = .error cause ↔
      maxBodyLength < b.field 9 4 ∧ cause = .oversized (b.field 9 4) maxBodyLength ∨
        b.field 9 4 ≤ maxBodyLength ∧ (v ≠ 0 ∧ v ≠ 1) ∧ cause = .unknownFlag v := by
  have hflag : UInt8.ofNat (b.field 8 1) = v := by rw [Bytes.field_one hv, UInt8.ofNat_toNat]
  simp only [ofFields, hflag]
  split
  · next hl =>
    have hnot : ¬ b.field 9 4 ≤ maxBodyLength := Nat.not_le.2 hl
    simp only [hl, hnot, true_and, false_and, or_false, Except.error.injEq, eq_comm]
  · next hl =>
    rw [← Flag.ofByte_eq_error_iff]
    simp only [hl, Nat.not_lt.1 hl, false_and, false_or, true_and]
    cases Flag.ofByte v <;> simp [bind, Except.bind, pure, Except.pure]

end FrameHeader

namespace Header

private theorem defect_iff {layer : Layer} {size : Nat} {b : Bytes} {cause : Malformed}
    (hsize : FrameHeader.size ≤ size) :
    Defect layer size b cause ↔ if b.length < size then cause = .short layer b.length size
      else FrameHeader.ofFields b = .error cause := by
  have h17 : FrameHeader.size = 17 := rfl
  split
  · next hs =>
    constructor
    · rintro (_ | ⟨hl, -⟩ | ⟨hl, -⟩)
      · rfl
      · omega
      · omega
    · rintro rfl
      exact .short hs
  · next hs =>
    have hl : size ≤ b.length := Nat.not_lt.1 hs
    have hv : b[8]? = some b[8] := List.getElem?_eq_getElem (by omega)
    rw [FrameHeader.ofFields_eq_error_iff hv]
    constructor
    · rintro (hs' | ⟨-, hlong⟩ | ⟨-, hfits, hv', h0, h1⟩)
      · exact absurd hs' hs
      · exact .inl ⟨hlong, rfl⟩
      · cases hv.symm.trans hv'
        exact .inr ⟨hfits, ⟨h0, h1⟩, rfl⟩
    · rintro (⟨hlong, rfl⟩ | ⟨hfits, ⟨h0, h1⟩, rfl⟩)
      · exact .oversized hl hlong
      · exact .unknownFlag hl hfits hv h0 h1

private theorem exists_defect_iff {layer : Layer} {size : Nat} {b : Bytes} :
    (∃ cause, Defect layer size b cause) ↔
      b.length < size ∨ maxBodyLength < b.field 9 4 ∨
        ∃ v, b[8]? = some v ∧ v ≠ 0 ∧ v ≠ 1 := by
  constructor
  · rintro ⟨_, hs | ⟨-, hlong⟩ | ⟨-, -, hv, h0, h1⟩⟩
    · exact .inl hs
    · exact .inr (.inl hlong)
    · exact .inr (.inr ⟨_, hv, h0, h1⟩)
  · intro h
    by_cases hs : b.length < size
    · exact ⟨_, .short hs⟩
    · by_cases hlong : maxBodyLength < b.field 9 4
      · exact ⟨_, .oversized (Nat.not_lt.1 hs) hlong⟩
      · obtain ⟨v, hv, h0, h1⟩ := (h.resolve_left hs).resolve_left hlong
        exact ⟨_, .unknownFlag (Nat.not_lt.1 hs) (Nat.not_lt.1 hlong) hv h0 h1⟩

/-- Writing and reading headers of a given size are inverse to each other, and it is known which
bytes are none. -/
structure Exact (H : Type) [Header H] (layer : Layer) (size : Nat) : Prop where
  length_encode (h : H) : (encode h).length = size
  /-- A written header is read back, whatever follows it, unless it announces too long a body. -/
  decode_encode_iff (h : H) (t : Bytes) :
    decode (encode h ++ t) = .ok h ↔ (shared h).length.toNat ≤ maxBodyLength
  /-- A header that is read is written as the bytes from which it was read. -/
  encode_of_decode {b : Bytes} {h : H} : decode b = .ok h → encode h = b.take size
  fails_iff (b : Bytes) : (∃ cause, decode (H := H) b = .error cause) ↔
    b.length < size ∨ maxBodyLength < b.field 9 4 ∨
      ∃ v, b[8]? = some v ∧ v ≠ 0 ∧ v ≠ 1
  cause_iff {b : Bytes} {cause : Malformed} :
    decode (H := H) b = .error cause ↔ Defect layer size b cause
  /-- The fields that both headers have are those that a frame header has in their place. -/
  shared_of_decode {b : Bytes} {h : H} : decode b = .ok h → FrameHeader.decode b = .ok (shared h)

private theorem exact_of_cause_iff {H : Type} [Header H] [LawfulHeader H] {layer : Layer}
    (cause_iff : ∀ {b : Bytes} {cause : Malformed},
      decode (H := H) b = .error cause ↔ Defect layer (Header.size H) b cause)
    (shared_of_decode : ∀ {b : Bytes} {h : H}, decode b = .ok h →
      FrameHeader.decode b = .ok (shared h)) :
    Exact H layer (Header.size H) where
  length_encode := LawfulHeader.length_encode
  decode_encode_iff h t := by
    refine ⟨fun hd ↦ ?_, LawfulHeader.decode_encode h t⟩
    have hs := shared_of_decode hd
    rw [FrameHeader.decode] at hs
    split at hs
    · cases hs
    · exact FrameHeader.length_le_of_ofFields hs
  encode_of_decode := LawfulHeader.encode_of_decode
  fails_iff b := by simp only [cause_iff, exists_defect_iff]
  cause_iff := cause_iff
  shared_of_decode := shared_of_decode

end Header

private theorem FrameHeader.cause_iff {b : Bytes} {cause : Malformed} :
    FrameHeader.decode b = .error cause ↔ Header.Defect .frame FrameHeader.size b cause := by
  rw [Header.defect_iff (Nat.le_refl _), FrameHeader.decode]
  split
  · rw [Except.error.injEq, eq_comm]
  · rfl

private theorem SessionHeader.cause_iff {b : Bytes} {cause : Malformed} :
    SessionHeader.decode b = .error cause ↔
      Header.Defect .session SessionHeader.size b cause := by
  rw [Header.defect_iff (by decide), SessionHeader.decode]
  split
  · rw [Except.error.injEq, eq_comm]
  · cases FrameHeader.ofFields b <;> simp [bind, Except.bind, pure, Except.pure]

private theorem SessionHeader.shared_of_decode {b : Bytes} {h : SessionHeader}
    (hd : SessionHeader.decode b = .ok h) : FrameHeader.decode b = .ok h.toFrameHeader := by
  rw [SessionHeader.decode] at hd
  split at hd
  · cases hd
  · next hl =>
    have hl' : ¬ b.length < FrameHeader.size := fun hs ↦ hl (Nat.lt_trans hs (by decide))
    rw [FrameHeader.decode, if_neg hl']
    cases hf : FrameHeader.ofFields b with
    | error cause =>
      rw [hf] at hd
      cases hd
    | ok shared =>
      rw [hf] at hd
      cases hd
      rfl

/-- Both headers are written and read exactly: 17 bytes in front of a frame, 33 in front of a
message. -/
theorem headers_exact :
    Header.Exact FrameHeader .frame 17 ∧ Header.Exact SessionHeader .session 33 :=
  ⟨Header.exact_of_cause_iff FrameHeader.cause_iff id,
    Header.exact_of_cause_iff SessionHeader.cause_iff SessionHeader.shared_of_decode⟩

end EdgeGateway
