import EdgeGateway.Client.Socket
import EdgeGateway.Link.Pool
import EdgeGateway.Proofs.Wire.Readdressing

/-!
# Relaying what clients send

A message of a client travels as the body of a frame. Both formats have the same limit for a body,
and the frame needs the room of one session header more, so the longest messages that are taken from
clients do not fit: `arrives_relay_iff` says which do. A frame that does not fit breaks the link
that carries it.
-/

namespace EdgeGateway

/-- A frame that whoever reads it takes for what it is, on its own and in a stream. -/
def Frame.Arrives (f : Frame) : Prop :=
  Packet.parse f.bytes = .ok f ∧
    ∀ (s : Inflow) (t : Bytes), s.bytes = f.bytes ++ t →
      ∃ rest, s.readFrame = .frame f rest ∧ rest.bytes = t

/-- A frame that ends the stream in which it stands, because its body is too long. -/
def Frame.BreaksStream (f : Frame) : Prop :=
  ∀ (s : Inflow) (t : Bytes), s.bytes = f.bytes ++ t →
    ∃ rest, s.readFrame =
      .broken (.malformedFrame (.oversized f.body.length maxBodyLength)) rest

/-- What arrives does not break its stream. -/
theorem Frame.Arrives.not_breaksStream {f : Frame} (ha : f.Arrives) : ¬ f.BreaksStream := by
  intro hb
  let s : Inflow := { chunks := [f.bytes] }
  have hs : s.bytes = f.bytes ++ [] := by simp [s, Inflow.bytes]
  obtain ⟨_, h₁, _⟩ := ha.2 s [] hs
  obtain ⟨_, h₂⟩ := hb s [] hs
  rw [h₁] at h₂
  cases h₂

/-- What parses as a message is taken from a client: the limit on socket messages refuses no sound
one. -/
theorem received?_of_parse {b : Bytes} {m : Message} (hp : Packet.parse b = .ok m) :
    (SocketEvent.binary b).received? = some (.message b) := by
  have hl : ¬ maxMessageLength < b.length := by
    have hm := Message.length_body_le_of_parse hp
    rw [← Packet.bytes_of_parse hp, Packet.length_bytes, Packet.size, maxMessageLength]
    have h33 : Header.size SessionHeader = SessionHeader.size := rfl
    omega
  rw [SocketEvent.received?, if_neg hl]

namespace Pool

variable {κ : Type}

/-- The frame in which a client's message is relayed for a session. -/
def relay (p : Pool κ) (m : Message) (sid : UInt64) (nid : UInt32) : Frame :=
  p.frame m.cmd (m.readdress sid nid).bytes

@[simp] private theorem body_relay (p : Pool κ) (m : Message) (sid : UInt64) (nid : UInt32) :
    (p.relay m sid nid).body = (m.readdress sid nid).bytes := rfl

private theorem length_body_relay (p : Pool κ) (m : Message) (sid : UInt64) (nid : UInt32) :
    (p.relay m sid nid).body.length = m.bytes.length := by
  rw [body_relay, Packet.length_bytes, Packet.length_bytes]
  rfl

/-- The header of a relaying frame announces what its body has. -/
theorem length_relay (p : Pool κ) {m : Message} (hm : m.body.length ≤ maxBodyLength)
    (sid : UInt64) (nid : UInt32) : (p.relay m sid nid).header.length.toNat = m.bytes.length := by
  have hs : m.bytes.length < UInt32.size := by
    rw [Packet.length_bytes, Packet.size]
    have h33 : Header.size SessionHeader = 33 := rfl
    have hmax : maxBodyLength = 1048576 := rfl
    have h32 : UInt32.size = 4294967296 := rfl
    omega
  rw [← p.length_body_relay m sid nid] at hs ⊢
  exact UInt32.toNat_ofNat_of_lt' hs

private theorem truthful_relay (p : Pool κ) {m : Message} (hm : m.body.length ≤ maxBodyLength)
    (sid : UInt64) (nid : UInt32) : (p.relay m sid nid).Truthful :=
  ⟨(p.length_relay hm sid nid).trans (p.length_body_relay m sid nid).symm, rfl⟩

/-- What a frame carries for a client parses as the message with its new address. -/
theorem parse_body_relay (p : Pool κ) {b : Bytes} {m : Message} (hp : Packet.parse b = .ok m)
    (sid : UInt64) (nid : UInt32) :
    Packet.parse (p.relay m sid nid).body = .ok (m.readdress sid nid) :=
  Message.parse_readdress hp sid nid

/-- A message whose bytes fit a body arrives. -/
theorem arrives_relay (p : Pool κ) {m : Message} (hl : m.bytes.length ≤ maxBodyLength)
    (sid : UInt64) (nid : UInt32) : (p.relay m sid nid).Arrives := by
  have hm : m.body.length ≤ maxBodyLength := by
    rw [Packet.length_bytes, Packet.size] at hl
    omega
  have ht := p.truthful_relay hm sid nid
  have hb : (p.relay m sid nid).body.length ≤ maxBodyLength := by
    rw [length_body_relay]
    exact hl
  refine ⟨Packet.parse_bytes ht hb, ?_⟩
  intro s t hs
  obtain ⟨rest, hr, ht, _⟩ := Inflow.readFrame_of_bytes hs ht hb
  exact ⟨rest, hr, ht⟩

/-- A message whose bytes do not fit a body breaks the stream of its link. -/
theorem breaksStream_relay (p : Pool κ) {m : Message} (hm : m.body.length ≤ maxBodyLength)
    (hl : maxBodyLength < m.bytes.length) (sid : UInt64) (nid : UInt32) :
    (p.relay m sid nid).BreaksStream := by
  have ht := p.truthful_relay hm sid nid
  intro s t hs
  rw [← p.length_relay hm sid nid] at hl
  rw [show (p.relay m sid nid).body.length = (p.relay m sid nid).header.length.toNat from
    ht.length.symm]
  exact Inflow.readFrame_of_oversized hs hl

end Pool

/-- Of the messages that are taken from clients, exactly those arrive at the backend that fit the
body of a frame; every other one breaks the stream of the link on which it is relayed. -/
theorem arrives_relay_iff {κ : Type} (p : Pool κ) {b : Bytes} {m : Message}
    (hr : (SocketEvent.binary b).received? = some (.message b)) (hp : Packet.parse b = .ok m)
    (sid : UInt64) (nid : UInt32) :
    Packet.parse (p.relay m sid nid).body = .ok (m.readdress sid nid) ∧
      ((p.relay m sid nid).Arrives ↔ b.length ≤ maxBodyLength) ∧
      ((p.relay m sid nid).BreaksStream ↔
        maxBodyLength < b.length ∧ b.length ≤ maxBodyLength + SessionHeader.size) := by
  have hb : m.bytes = b := Packet.bytes_of_parse hp
  have hm := Message.length_body_le_of_parse hp
  have hlong : b.length ≤ maxBodyLength + SessionHeader.size := by
    simp only [SocketEvent.received?] at hr
    split at hr
    · cases hr
    · next hl => exact Nat.le_of_not_lt hl
  have small : b.length ≤ maxBodyLength → (p.relay m sid nid).Arrives := fun hl ↦
    p.arrives_relay (by rw [hb]; exact hl) sid nid
  have large : maxBodyLength < b.length → (p.relay m sid nid).BreaksStream := fun hl ↦
    p.breaksStream_relay hm (by rw [hb]; exact hl) sid nid
  refine ⟨p.parse_body_relay hp sid nid, ⟨?_, small⟩, ⟨?_, fun h ↦ large h.1⟩⟩
  · intro ha
    exact Nat.le_of_not_lt fun hl ↦ ha.not_breaksStream (large hl)
  · intro hbr
    exact ⟨Nat.lt_of_not_le fun hl ↦ (small hl).not_breaksStream hbr, hlong⟩

namespace Message

/-- A client's question whether its session is alive, with a body of zeros behind it. -/
def padded (n : Nat) : Message := .make .ping 0 0 (List.replicate n 0)

private theorem length_bytes_padded (n : Nat) : (padded n).bytes.length = 33 + n := by
  rw [Packet.length_bytes, Packet.size]
  show 33 + (List.replicate n (0 : UInt8)).length = 33 + n
  rw [List.length_replicate]

private theorem parse_padded {n : Nat} (hn : n ≤ maxBodyLength) :
    Packet.parse (padded n).bytes = .ok (padded n) := by
  have hl : (padded n).body.length = n := List.length_replicate
  have hs : n < UInt32.size := Nat.lt_of_le_of_lt hn (by decide)
  have hlen : (padded n).header.length.toNat = (padded n).body.length := by
    show (UInt32.ofNat (List.replicate n (0 : UInt8)).length).toNat = _
    rw [hl, List.length_replicate]
    exact UInt32.toNat_ofNat_of_lt' hs
  exact Packet.parse_bytes ⟨hlen, rfl⟩ (by rw [hl]; exact hn)

end Message

/-- The longest message that arrives fills the body of its frame. -/
theorem arrives_relay_longest :
    (SocketEvent.binary (Message.padded 1048543).bytes).received? =
        some (.message (Message.padded 1048543).bytes) ∧
      Packet.parse (Message.padded 1048543).bytes = .ok (Message.padded 1048543) ∧
      ((Pool.fresh {} : Pool Unit).relay (Message.padded 1048543) 42 3).Arrives := by
  have hp := Message.parse_padded (n := 1048543) (by decide)
  have hr := received?_of_parse hp
  refine ⟨hr, hp, (arrives_relay_iff _ hr hp 42 3).2.1.2 ?_⟩
  rw [Message.length_bytes_padded]
  decide

/-- One byte more is still taken from the client, and breaks the link. -/
theorem breaksStream_relay_longer :
    (SocketEvent.binary (Message.padded 1048544).bytes).received? =
        some (.message (Message.padded 1048544).bytes) ∧
      Packet.parse (Message.padded 1048544).bytes = .ok (Message.padded 1048544) ∧
      ¬ ((Pool.fresh {} : Pool Unit).relay (Message.padded 1048544) 42 3).Arrives ∧
      ((Pool.fresh {} : Pool Unit).relay (Message.padded 1048544) 42 3).BreaksStream := by
  have hp := Message.parse_padded (n := 1048544) (by decide)
  have hl : maxBodyLength < (Message.padded 1048544).bytes.length := by
    rw [Message.length_bytes_padded]
    decide
  have hb := (Pool.fresh {} : Pool Unit).breaksStream_relay
    (Message.length_body_le_of_parse hp) hl 42 3
  exact ⟨received?_of_parse hp, hp, fun ha ↦ ha.not_breaksStream hb, hb⟩

end EdgeGateway
