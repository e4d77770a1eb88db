import EdgeGateway.Proofs.Wire.Framing

/-!
# What is read off a stream

A reader takes one whole frame after the other off its stream: a header that decodes, and as many
bytes behind it as the header announces. What the bytes are it does not change, so what it hands on
for the workers is what these bytes parse as.
-/

namespace EdgeGateway

/-- These bytes are a header that decodes and as many bytes behind it as it announces. -/
def WholeFrame (b : Bytes) : Prop :=
  ∃ h, FrameHeader.decode b = .ok h ∧ b.length = FrameHeader.size + h.length.toNat

/-- The frame for the workers that these bytes are, if they are one. -/
def userFrame? (b : Bytes) : Option Frame :=
  match (Packet.parse b : Except Malformed Frame) with
  | .ok f => if f.header.flag = .system then none else some f
  | .error _ => none

/-- A frame for the workers is not one of the transport's own, and carries the protocol's checksum.
-/
theorem of_userFrame? {b : Bytes} {f : Frame} (h : userFrame? b = some f) :
    f.header.flag = .user ∧ f.header.checksum = protocolChecksum ∧ f.bytes = b := by
  rw [userFrame?] at h
  split at h
  · next hp =>
    split at h <;> cases h
    next hf =>
    refine ⟨?_, (Packet.truthful_of_parse hp).checksum, Packet.bytes_of_parse hp⟩
    cases hflag : f.header.flag with
    | system => exact absurd hflag hf
    | user => rfl
  · cases h

namespace Inflow

variable {s rest : Inflow} {f : Frame}

private theorem bytes_of_takes {head body : Bytes} {behind : Inflow} {header : FrameHeader}
    (hh : s.take? FrameHeader.size = some (head, behind))
    (hd : FrameHeader.decode head = .ok header)
    (hb : behind.take? header.length.toNat = some (body, rest)) : s.bytes =
      (⟨header, body⟩ : Frame).bytes ++ rest.bytes ∧ header.length.toNat = body.length ∧
      header.length.toNat ≤ maxBodyLength := by
  obtain ⟨hs, hl, -⟩ := take?_flatten hh
  obtain ⟨hbehind, hlen, -⟩ := take?_flatten hb
  have hle : header.length.toNat ≤ maxBodyLength := by
    rw [FrameHeader.decode] at hd
    split at hd
    · cases hd
    · exact FrameHeader.length_le_of_ofFields hd
  have henc : header.encode = head := by
    rw [FrameHeader.encode_of_decode hd, ← hl, List.take_length]
  refine ⟨?_, hlen.symm, hle⟩
  rw [hs, hbehind, Packet.bytes, ← List.append_assoc]
  exact congrArg (· ++ body ++ rest.bytes) henc.symm

private theorem wholeFrame_bytes (hl : f.header.length.toNat = f.body.length)
    (hle : f.header.length.toNat ≤ maxBodyLength) : WholeFrame f.bytes := by
  refine ⟨f.header, FrameHeader.decode_encode f.header f.body hle, ?_⟩
  rw [Packet.length_bytes, Packet.size, hl]
  rfl

/-- A frame that is read is a whole frame off the front of the stream, and what its bytes parse as.
-/
theorem bytes_of_readFrame (h : s.readFrame = .frame f rest) :
    s.bytes = f.bytes ++ rest.bytes ∧ WholeFrame f.bytes ∧ Packet.parse f.bytes = .ok f := by
  rw [readFrame] at h
  split at h
  · rw [short] at h
    split at h <;> cases h
  · next head behind hh =>
    split at h
    · cases h
    · next header hd =>
      split at h
      · rw [short] at h
        split at h <;> cases h
      · next body rest' hb =>
        split at h <;> cases h
        next hc =>
        obtain ⟨hs, hl, hle⟩ := bytes_of_takes hh hd hb
        exact ⟨hs, wholeFrame_bytes hl hle, Packet.parse_bytes ⟨hl, hc⟩ (hl ▸ hle)⟩

/-- A frame that is dropped is a whole frame as well, but none for the workers. -/
theorem bytes_of_dropped (h : s.readFrame = .dropped rest) :
    ∃ b, s.bytes = b ++ rest.bytes ∧ WholeFrame b ∧ userFrame? b = none := by
  rw [readFrame] at h
  split at h
  · rw [short] at h
    split at h <;> cases h
  · next head behind hh =>
    split at h
    · cases h
    · next header hd =>
      split at h
      · rw [short] at h
        split at h <;> cases h
      · next body rest' hb =>
        split at h <;> cases h
        next hc =>
        obtain ⟨hs, hl, hle⟩ := bytes_of_takes hh hd hb
        refine ⟨_, hs, wholeFrame_bytes hl hle, ?_⟩
        rw [userFrame?]
        split
        · next f hp =>
          have hdec : FrameHeader.decode (header.encode ++ body) = .ok f.header :=
            (Packet.parse_eq_ok_iff.1 hp).1
          rw [FrameHeader.decode_encode header body hle, Except.ok.injEq] at hdec
          have hok : f.header.checksum = protocolChecksum := (Packet.truthful_of_parse hp).checksum
          rw [← hdec] at hok
          exact absurd hok hc
        · rfl

end Inflow

end EdgeGateway
