import EdgeGateway.Wire.FrameStream

/-!
# Reading written packets

A packet whose header tells the truth about its body, and that fits, is read back as it was written,
both from a byte string of its own and from the front of a stream. A header that announces more than
the limit is refused by every reader before anything behind it is looked at.
-/

namespace EdgeGateway

namespace FrameHeader

/-- Fields that decode announce no more than the limit. -/
theorem length_le_of_ofFields {b : Bytes} {h : FrameHeader} (hd : ofFields b = .ok h) :
    h.length.toNat ≤ maxBodyLength := by
  simp only [ofFields] at hd
  split at hd
  · cases hd
  · next hl =>
    cases hf : Flag.ofByte (UInt8.ofNat (b.field 8 1)) with
    | error e =>
      rw [hf] at hd
      cases hd
    | ok flag =>
      rw [hf] at hd
      cases hd
      have hlt : b.field 9 4 < UInt32.size := Bytes.field_lt b 9 4
      rw [UInt32.toNat_ofNat_of_lt' hlt]
      exact Nat.le_of_not_lt hl

/-- A written header that announces too much is refused, whatever follows it. -/
theorem ofFields_encode_of_lt (h : FrameHeader) (t : Bytes)
    (hl : maxBodyLength < h.length.toNat) :
    ofFields (h.encode ++ t) = .error (.oversized h.length.toNat maxBodyLength) := by
  have hf : Bytes.field (h.encode ++ t) 9 4 = h.length.toNat := by
    have hs := Bytes.field_of_append
      (Bytes.toBigEndian 4 h.cmd.toNat ++ Bytes.toBigEndian 4 h.nid.toNat ++ [h.flag.toByte])
      (Bytes.toBigEndian 4 h.length.toNat) (Bytes.toBigEndian 4 h.checksum.toNat ++ t) 9 4
      (by simp) (by simp)
    rw [Bytes.ofBigEndian_toBigEndian] at hs
    have hlt : h.length.toNat < Bytes.bound 4 := h.length.toNat_lt
    rw [Nat.mod_eq_of_lt hlt] at hs
    rw [← hs, encode]
    simp only [List.append_assoc]
  rw [ofFields]
  simp only [hf]
  rw [if_pos hl]

/-- The same for a header that is read from the front of bytes. -/
theorem decode_encode_of_lt (h : FrameHeader) (t : Bytes)
    (hl : maxBodyLength < h.length.toNat) :
    decode (h.encode ++ t) = .error (.oversized h.length.toNat maxBodyLength) := by
  rw [decode, if_neg (by simp), ofFields_encode_of_lt h t hl]

end FrameHeader

/-- A session header that decodes announces no more than the limit. -/
theorem SessionHeader.length_le_of_decode {b : Bytes} {h : SessionHeader}
    (hd : SessionHeader.decode b = .ok h) : h.length.toNat ≤ maxBodyLength := by
  unfold SessionHeader.decode at hd
  split at hd
  · cases hd
  · cases hf : FrameHeader.ofFields b with
    | error e =>
      rw [hf] at hd
      cases hd
    | ok shared =>
      rw [hf] at hd
      cases hd
      exact FrameHeader.length_le_of_ofFields hf

namespace Packet

variable {H : Type} [Header H]

/-- The header of a packet says how long its body is, and names the protocol. -/
structure Truthful (p : Packet H) : Prop where
  length : (Header.shared p.header).length.toNat = p.body.length
  checksum : (Header.shared p.header).checksum = protocolChecksum

/-- The bytes of a packet are as many as its header and its body have. -/
theorem length_bytes [LawfulHeader H] (p : Packet H) : p.bytes.length = p.size := by
  rw [bytes, List.length_append, LawfulHeader.length_encode, size]

/-- A truthful packet within the limit parses as itself. -/
theorem parse_bytes [LawfulHeader H] {p : Packet H} (ht : p.Truthful)
    (hl : p.body.length ≤ maxBodyLength) : parse p.bytes = .ok p := by
  rw [parse_eq_ok_iff]
  refine ⟨?_, ?_, ?_, ht.length⟩
  · exact LawfulHeader.decode_encode p.header p.body (by rw [ht.length]; exact hl)
  · rw [FrameHeader.validate, if_pos ht.checksum]
  · rw [bytes, ← LawfulHeader.length_encode p.header, List.drop_left]

/-- Whatever parses is truthful. -/
theorem truthful_of_parse {b : Bytes} {p : Packet H} (h : parse b = .ok p) : p.Truthful := by
  obtain ⟨_, hv, _, hl⟩ := parse_eq_ok_iff.1 h
  refine ⟨hl, ?_⟩
  rw [FrameHeader.validate] at hv
  split at hv
  · assumption
  · cases hv

end Packet

/-- A message that parses has a body within the limit. -/
theorem Message.length_body_le_of_parse {b : Bytes} {m : Message}
    (h : Packet.parse b = .ok m) : m.body.length ≤ maxBodyLength := by
  obtain ⟨hd, _, _, hl⟩ := Packet.parse_eq_ok_iff.1 h
  rw [← hl]
  exact SessionHeader.length_le_of_decode hd

/-- The header of a frame says how long its body is, and the body is within the limit. -/
structure Frame.Sized (f : Frame) : Prop where
  length : f.header.length.toNat = f.body.length
  fits : f.body.length ≤ maxBodyLength

namespace Inflow

/-- As many bytes as there are in front of the rest are taken off as one piece. -/
theorem take?_of_append {s : Inflow} {b t : Bytes} (h : s.bytes = b ++ t) :
    ∃ rest, s.take? b.length = some (b, rest) ∧ rest.bytes = t ∧ rest.ended = s.ended := by
  cases ht : s.take? b.length with
  | none =>
    have hlt := take?_eq_none_iff.1 ht
    rw [h, List.length_append] at hlt
    omega
  | some p =>
    obtain ⟨c, rest⟩ := p
    obtain ⟨hb, hl, he⟩ := take?_flatten ht
    rw [h] at hb
    obtain ⟨rfl, rfl⟩ := List.append_inj hb hl.symm
    exact ⟨rest, rfl, rfl, he⟩

/-- A frame whose header tells the length of its body is taken off the front of a stream, and what
follows is left. It is dropped if its checksum is wrong. -/
theorem readFrame_of_sized {s : Inflow} {f : Frame} {t : Bytes} (h : s.bytes = f.bytes ++ t)
    (hf : f.Sized) :
    ∃ rest,
      s.readFrame =
      (if f.header.checksum = protocolChecksum then .frame f rest else .dropped rest) ∧
      rest.bytes = t ∧ rest.ended = s.ended := by
  have hb : s.bytes = f.header.encode ++ (f.body ++ t) := by
    rw [h, Packet.bytes, List.append_assoc]
    rfl
  obtain ⟨behind, h₁, hbehind, he₁⟩ := take?_of_append hb
  rw [FrameHeader.length_encode] at h₁
  obtain ⟨rest, h₂, hrest, he₂⟩ := take?_of_append hbehind
  rw [← hf.length] at h₂
  have hd : FrameHeader.decode f.header.encode = .ok f.header := by
    have hle : f.header.length.toNat ≤ maxBodyLength := hf.length ▸ hf.fits
    simpa using FrameHeader.decode_encode f.header [] hle
  refine ⟨rest, ?_, hrest, he₂.trans he₁⟩
  rw [readFrame, h₁]
  simp only [hd, h₂]

/-- A truthful frame within the limit is read off the front of a stream, and what follows is left.
-/
theorem readFrame_of_bytes {s : Inflow} {f : Frame} {t : Bytes} (h : s.bytes = f.bytes ++ t)
    (ht : f.Truthful) (hl : f.body.length ≤ maxBodyLength) :
    ∃ rest, s.readFrame = .frame f rest ∧ rest.bytes = t ∧ rest.ended = s.ended := by
  have hc : f.header.checksum = protocolChecksum := ht.checksum
  simpa only [if_pos hc] using readFrame_of_sized h ⟨ht.length, hl⟩

/-- A frame that announces too much breaks the stream behind its header. -/
theorem readFrame_of_oversized {s : Inflow} {f : Frame} {t : Bytes} (h : s.bytes = f.bytes ++ t)
    (hl : maxBodyLength < f.header.length.toNat) :
    ∃ rest, s.readFrame =
      .broken (.malformedFrame (.oversized f.header.length.toNat maxBodyLength)) rest := by
  have hb : s.bytes = f.header.encode ++ (f.body ++ t) := by
    rw [h, Packet.bytes, List.append_assoc]
    rfl
  obtain ⟨behind, h₁, _, _⟩ := take?_of_append hb
  rw [FrameHeader.length_encode] at h₁
  have hd : FrameHeader.decode f.header.encode =
      .error (.oversized f.header.length.toNat maxBodyLength) := by
    simpa using FrameHeader.decode_encode_of_lt f.header [] hl
  refine ⟨behind, ?_⟩
  rw [readFrame, h₁]
  simp only [hd]

end Inflow

end EdgeGateway
