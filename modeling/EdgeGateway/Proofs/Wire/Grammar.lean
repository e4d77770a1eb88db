import EdgeGateway.Proofs.Wire.Framing

/-!
# The grammar of packets

A byte string is a packet when it is a header that names the protocol and, behind it, a body that is
as long as the header says and within the limit. `packets_exact` says that parsing accepts these
byte strings and no others, for both kinds of header, and that there is one way only to take such a
string apart.
-/

namespace EdgeGateway

namespace Packet

variable {H : Type} [Header H]

/-- The bytes are the header and the body behind it, and the header is right about the body. -/
structure Spells (h : H) (body b : Bytes) : Prop where
  checksum : (Header.shared h).checksum = protocolChecksum
  length : (Header.shared h).length.toNat = body.length
  fits : body.length ≤ maxBodyLength
  bytes : b = Header.encode h ++ body

/-- What parsing does with every byte string. The causes of its errors are those of a malformed
frame. -/
structure ParsesExactly (H : Type) [Header H] : Prop where
  accepts_iff (b : Bytes) :
    (∃ p : Packet H, parse b = .ok p) ↔ ∃ (h : H) (body : Bytes), Spells h body b
  unique {b body body' : Bytes} {h h' : H} :
    Spells h body b → Spells h' body' b → h = h' ∧ body = body'
  /-- What spells the bytes is what parsing makes of them. -/
  parses {b body : Bytes} {h : H} : Spells h body b → parse b = .ok ⟨h, body⟩
  /-- The parts of the result spell the bytes, and it is written as it was read. -/
  result {b : Bytes} {p : Packet H} : parse b = .ok p →
    Spells p.header p.body b ∧ p.bytes = b ∧ p.size = b.length
  refuses {b : Bytes} : (¬ ∃ (h : H) (body : Bytes), Spells h body b) →
    ∃ cause : Malformed, parse (H := H) b = .error cause

variable [LawfulHeader H] {b body : Bytes} {h : H}

private theorem Spells.parse_eq (hs : Spells h body b) : parse b = .ok ⟨h, body⟩ := by
  rw [hs.bytes]
  exact parse_bytes (p := ⟨h, body⟩) ⟨hs.length, hs.checksum⟩ hs.fits

private theorem spells_of_parse {p : Packet H} (hp : parse b = .ok p)
    (hfits : p.body.length ≤ maxBodyLength) : Spells p.header p.body b := by
  have ht := truthful_of_parse hp
  exact ⟨ht.checksum, ht.length, hfits, (bytes_of_parse hp).symm⟩

private theorem parsesExactly
    (hfits : ∀ {b : Bytes} {p : Packet H}, parse b = .ok p → p.body.length ≤ maxBodyLength) :
    ParsesExactly H where
  accepts_iff b := by
    constructor
    · rintro ⟨p, hp⟩
      exact ⟨p.header, p.body, spells_of_parse hp (hfits hp)⟩
    · rintro ⟨h, body, hs⟩
      exact ⟨⟨h, body⟩, hs.parse_eq⟩
  unique hs hs' := by
    cases hs.parse_eq.symm.trans hs'.parse_eq
    exact ⟨rfl, rfl⟩
  parses hs := hs.parse_eq
  result {b p} hp := by
    have hb : p.bytes = b := bytes_of_parse hp
    exact ⟨spells_of_parse hp (hfits hp), hb, by rw [← hb, length_bytes]⟩
  refuses {b} hno := by
    cases hp : parse (H := H) b with
    | error cause => exact ⟨cause, rfl⟩
    | ok p => exact absurd ⟨_, _, spells_of_parse hp (hfits hp)⟩ hno

end Packet

/-- A frame that parses has a body within the limit. -/
theorem Frame.length_body_le_of_parse {b : Bytes} {f : Frame} (h : Packet.parse b = .ok f) :
    f.body.length ≤ maxBodyLength := by
  obtain ⟨hd, -, -, hl⟩ := Packet.parse_eq_ok_iff.1 h
  replace hd : FrameHeader.decode b = .ok f.header := hd
  rw [FrameHeader.decode] at hd
  split at hd
  · cases hd
  · rw [← hl]
    exact FrameHeader.length_le_of_ofFields hd

/-- Frames and messages are parsed exactly. -/
theorem packets_exact : Packet.ParsesExactly FrameHeader ∧ Packet.ParsesExactly SessionHeader :=
  ⟨Packet.parsesExactly Frame.length_body_le_of_parse,
    Packet.parsesExactly Message.length_body_le_of_parse⟩

end EdgeGateway
