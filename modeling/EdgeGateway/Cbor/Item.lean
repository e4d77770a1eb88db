import EdgeGateway.Cbor.Head
import EdgeGateway.Cbor.Text

/-!
# CBOR items

The values that a record is written with, and that an unknown entry of a record may hold. An item is
written with definite lengths and the shortest heads.
-/

namespace EdgeGateway.Cbor

/-- A CBOR value without tags. -/
inductive Item where
  | unsigned (n : UInt64)
  /-- The number `-1 - n`. -/
  | negative (n : UInt64)
  | bytes (b : Bytes)
  | text (s : String)
  | array (items : List Item)
  | map (entries : List (Item × Item))
  | bool (b : Bool)
  | null
  /-- A double by its bits. -/
  | double (bits : UInt64)

namespace Item

mutual
/-- The bytes of an item. -/
def encode : Item → Bytes
  | unsigned n => Head.write 0 n.toNat
  | negative n => Head.write 1 n.toNat
  | bytes b => Head.write 2 b.length ++ b
  | text s => Head.write 3 (Text.encode s).length ++ Text.encode s
  | array items => Head.write 4 items.length ++ encodeItems items
  | map entries => Head.write 5 entries.length ++ encodeEntries entries
  | bool false => [0xf4]
  | bool true => [0xf5]
  | null => [0xf6]
  | double bits => 0xfb :: Bytes.toBigEndian 8 bits.toNat

/-- The bytes of items, one after the other. -/
def encodeItems : List Item → Bytes
  | [] => []
  | i :: is => encode i ++ encodeItems is

/-- The bytes of entries, each key before its value. -/
def encodeEntries : List (Item × Item) → Bytes
  | [] => []
  | (k, v) :: es => encode k ++ encode v ++ encodeEntries es
end

end Item

end EdgeGateway.Cbor
