import EdgeGateway.Cbor.Record

/-!
# Message bodies

The bodies that the gateway looks into are CBOR records; all others it relays unread. A body type
names its fields and says how its values fill them.
-/

namespace EdgeGateway

open Cbor (Field Kind Value)

/-- A type of message body. -/
class Body (α : Type) where
  fields : List Field
  /-- The contents of the fields, in order. -/
  values : α → List Value
  ofValues : List Value → Option α

namespace Body

variable {α : Type} [Body α]

/-- The bytes of a body. -/
def encode (a : α) : Bytes := (Cbor.recordItem (fields α) (values a)).encode

/-- Reads a body. Bytes behind it are not looked at. -/
def decode (b : Bytes) : Except CodecFault α :=
  match Cbor.readRecord (fields α) b with
  | .error e => .error e
  | .ok vs =>
    match ofValues vs with
    | some a => .ok a
    | none => .error .unsuitable

end Body

namespace Cbor.Field

/-- A number field with 64 bits. -/
def u64 (name : String) (optional : Bool := false) : Field :=
  ⟨name, .number (UInt64.size - 1), optional⟩

/-- A number field with 32 bits. -/
def u32 (name : String) (optional : Bool := false) : Field :=
  ⟨name, .number (UInt32.size - 1), optional⟩

/-- A number field with 16 bits. -/
def u16 (name : String) (optional : Bool := false) : Field :=
  ⟨name, .number (UInt16.size - 1), optional⟩

/-- A text field. -/
def text (name : String) (optional : Bool := false) : Field := ⟨name, .text, optional⟩

end Cbor.Field

end EdgeGateway
