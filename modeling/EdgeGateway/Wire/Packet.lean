import EdgeGateway.Wire.Header

/-!
# Packets

A packet is a header with a body. Forwarder links carry frames; clients exchange messages, and a
frame that carries session traffic has one message as its body.

Main statements: a packet that parses is written as the bytes it was parsed from (`bytes_of_parse`),
and readdressing changes the session and the node alone.
-/

namespace EdgeGateway

/-- A header and the body behind it. -/
structure Packet (H : Type) where
  header : H
  body : Bytes
  deriving Repr, DecidableEq

/-- A unit of the forwarder protocol. -/
abbrev Frame := Packet FrameHeader

/-- A unit of the session protocol. -/
abbrev Message := Packet SessionHeader

namespace Packet

variable {H : Type} [Header H]

/-- The packet on the wire. -/
def bytes (p : Packet H) : Bytes := Header.encode p.header ++ p.body

/-- The number of bytes on the wire. -/
def size (p : Packet H) : Nat := Header.size H + p.body.length

/-- The command in the header. -/
def cmd (p : Packet H) : Command := (Header.shared p.header).cmd

/-- Reads one whole packet. The header must decode and carry the protocol's checksum, and the body
must have the length that the header announces. -/
def parse (b : Bytes) : Except Malformed (Packet H) := do
  let header ← Header.decode (H := H) b
  let shared := Header.shared header
  shared.validate
  let body := b.drop (Header.size H)
  let actual := body.length
  if shared.length.toNat = actual then return ⟨header, body⟩
  else throw (.lengthMismatch shared.length.toNat actual)

/-- Bytes parse as a packet just when its header stands in front, is valid and announces the body
behind it. -/
theorem parse_eq_ok_iff {b : Bytes} {p : Packet H} :
    parse b = .ok p ↔
      Header.decode b = .ok p.header ∧ (Header.shared p.header).validate = .ok () ∧
        p.body = b.drop (Header.size H) ∧
        (Header.shared p.header).length.toNat = p.body.length := by
  obtain ⟨header, body⟩ := p
  simp only [parse, bind, Except.bind]
  cases Header.decode (H := H) b with
  | error e => simp
  | ok h =>
    cases hv : (Header.shared h).validate with
    | error e =>
      simp only [hv, Except.ok.injEq, reduceCtorEq, false_iff, not_and]
      rintro rfl hw
      rw [hv] at hw
      cases hw
    | ok u =>
      simp only [hv]
      split
      · next hl =>
        simp only [pure, Except.pure, Except.ok.injEq, mk.injEq]
        constructor
        · rintro ⟨rfl, rfl⟩
          exact ⟨rfl, hv, rfl, hl⟩
        · rintro ⟨rfl, _, rfl, _⟩
          exact ⟨rfl, rfl⟩
      · next hl =>
        simp only [throw, throwThe, MonadExceptOf.throw, reduceCtorEq, Except.ok.injEq, false_iff,
          not_and]
        rintro rfl _ rfl
        exact hl

/-- A packet that parses is written as the bytes it was parsed from. -/
theorem bytes_of_parse [LawfulHeader H] {b : Bytes} {p : Packet H} (h : parse b = .ok p) :
    p.bytes = b := by
  obtain ⟨hd, _, hb, _⟩ := parse_eq_ok_iff.1 h
  rw [bytes, LawfulHeader.encode_of_decode hd, hb, List.take_append_drop]

end Packet

namespace Frame

/-- The frame of `nid` for `cmd` that carries `body`. -/
def make (cmd : Command) (nid : UInt32) (flag : Flag) (body : Bytes) : Frame :=
  ⟨{ cmd, nid, flag, length := UInt32.ofNat body.length }, body⟩

end Frame

namespace Message

/-- The message of `sid` for `cmd` that carries `body`. -/
def make (cmd : Command) (nid : UInt32) (sid : UInt64) (body : Bytes) : Message :=
  ⟨{ cmd, nid, flag := .user, length := UInt32.ofNat body.length, sid, seq := 0 }, body⟩

/-- The session in the header. -/
def sid (m : Message) : UInt64 := m.header.sid

/-- The same message with another session and node. -/
def readdress (m : Message) (sid : UInt64) (nid : UInt32) : Message :=
  { m with header := { m.header with sid, nid } }

/-- The frame that carries a message: same command, the gateway's node, the whole message as body.
-/
def wrap (m : Message) (nid : UInt32) : Frame := Frame.make m.cmd nid .user m.bytes

/-- A message that is readdressed is of the session that it was readdressed to. -/
@[simp] theorem sid_readdress (m : Message) (s : UInt64) (n : UInt32) :
    (m.readdress s n).sid = s := rfl

end Message

end EdgeGateway
