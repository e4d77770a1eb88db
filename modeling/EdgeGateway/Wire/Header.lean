import EdgeGateway.Bytes.BigEndian
import EdgeGateway.Fault
import EdgeGateway.Wire.Command

/-!
# Headers

A frame header has 17 bytes: command, node, flag, body length and checksum. A session header has
33: the same five fields, then the session and a sequence number. All numbers are big-endian. The
checksum is a constant that names the version of the protocol and says nothing about the body.

Main statements: `FrameHeader.decode_encode` and `FrameHeader.encode_of_decode`, and the same two
for `SessionHeader`, say that reading and writing are inverse to each other.
-/

namespace EdgeGateway

/-- The constant that every header carries. -/
def protocolChecksum : UInt32 := 0x1ED952B1

/-- The longest body that a header may announce, in bytes. -/
def maxBodyLength : Nat := 1048576

/-- Who a frame or a message is for. -/
inductive Flag where
  /-- Traffic of the transport itself. -/
  | system
  /-- Traffic of the application. -/
  | user
  deriving Repr, DecidableEq

namespace Flag

/-- The byte that stands for a flag. -/
def toByte : Flag → UInt8
  | system => 0
  | user => 1

/-- The flag that a byte stands for. -/
def ofByte : UInt8 → Except Malformed Flag
  | 0 => .ok system
  | 1 => .ok user
  | v => .error (.unknownFlag v)

/-- The name of a flag. -/
def name : Flag → String
  | system => "System"
  | user => "User"

/-- A flag is read from its byte. -/
@[simp] theorem ofByte_toByte (f : Flag) : ofByte f.toByte = .ok f := by cases f <;> rfl

/-- The byte of a flag is the one from which it is read. -/
theorem toByte_of_ofByte {v : UInt8} {f : Flag} (h : ofByte v = .ok f) : f.toByte = v := by
  unfold ofByte at h
  split at h <;> simp_all [toByte] <;> subst h <;> rfl

end Flag

/-- The fields that both headers share, which are all that a frame header has. -/
structure FrameHeader where
  cmd : Command
  nid : UInt32
  flag : Flag
  length : UInt32
  checksum : UInt32 := protocolChecksum
  deriving Repr, DecidableEq

/-- A frame header's fields with the session a message belongs to and its sequence number. -/
structure SessionHeader extends FrameHeader where
  sid : UInt64
  seq : UInt64
  deriving Repr, DecidableEq

namespace FrameHeader

/-- The size of an encoded frame header. -/
def size : Nat := 17

/-- The bytes of the header, field after field. -/
def encode (h : FrameHeader) : Bytes :=
  Bytes.toBigEndian 4 h.cmd.toNat ++ Bytes.toBigEndian 4 h.nid.toNat ++ [h.flag.toByte] ++
    Bytes.toBigEndian 4 h.length.toNat ++ Bytes.toBigEndian 4 h.checksum.toNat

/-- Reads the fields at their offsets. A body length beyond the limit is refused before an unknown
flag is. -/
def ofFields (b : Bytes) : Except Malformed FrameHeader :=
  let length := b.field 9 4
  if maxBodyLength < length then .error (.oversized length maxBodyLength)
  else do
    let flag ← Flag.ofByte (UInt8.ofNat (b.field 8 1))
    return {
      cmd := UInt32.ofNat (b.field 0 4)
      nid := UInt32.ofNat (b.field 4 4)
      flag
      length := UInt32.ofNat length
      checksum := UInt32.ofNat (b.field 13 4) }

/-- Reads a header from the first 17 bytes. What follows them is not looked at. -/
def decode (b : Bytes) : Except Malformed FrameHeader :=
  if b.length < size then .error (.short .frame b.length size) else ofFields b

end FrameHeader

namespace SessionHeader

/-- The size of an encoded session header. -/
def size : Nat := 33

/-- The bytes of the header, field after field. -/
def encode (h : SessionHeader) : Bytes :=
  h.toFrameHeader.encode ++ Bytes.toBigEndian 8 h.sid.toNat ++ Bytes.toBigEndian 8 h.seq.toNat

/-- Reads a header from the first 33 bytes. What follows them is not looked at. -/
def decode (b : Bytes) : Except Malformed SessionHeader :=
  if b.length < size then .error (.short .session b.length size)
  else do
    let shared ← FrameHeader.ofFields b
    return {
      toFrameHeader := shared
      sid := UInt64.ofNat (b.field 17 8)
      seq := UInt64.ofNat (b.field 25 8) }

end SessionHeader

/-- A fixed-size header in front of a body. -/
class Header (H : Type) where
  /-- The number of bytes of every encoded header. -/
  size : Nat
  /-- The fields that both headers share. -/
  shared : H → FrameHeader
  encode : H → Bytes
  decode : Bytes → Except Malformed H

/-- The layout of frames. -/
instance : Header FrameHeader where
  size := FrameHeader.size
  shared := id
  encode := FrameHeader.encode
  decode := FrameHeader.decode

/-- The layout of messages. -/
instance : Header SessionHeader where
  size := SessionHeader.size
  shared := SessionHeader.toFrameHeader
  encode := SessionHeader.encode
  decode := SessionHeader.decode

namespace FrameHeader

/-- Refuses a header of another protocol version. -/
def validate (h : FrameHeader) : Except Malformed Unit :=
  if h.checksum = protocolChecksum then .ok ()
  else .error (.badChecksum h.checksum protocolChecksum)

/-- A frame header has a fixed size. -/
@[simp] theorem length_encode (h : FrameHeader) : h.encode.length = size := by
  simp [encode, size]

end FrameHeader

/-- A session header has a fixed size. -/
@[simp] theorem SessionHeader.length_encode (h : SessionHeader) :
    h.encode.length = SessionHeader.size := by
  simp [encode, size, FrameHeader.size]

/-! ### Reading what was written -/

namespace Bytes

/-- A field is the number in the stretch at its offset. -/
theorem field_of_append (a x t : Bytes) (offset width : Nat) (ha : a.length = offset)
    (hx : x.length = width) : field (a ++ x ++ t) offset width = ofBigEndian x := by
  subst ha hx
  simp [field]

/-- Writing a field gives the stretch at its offset. -/
theorem toBigEndian_field (b : Bytes) {offset width : Nat} (h : offset + width ≤ b.length) :
    toBigEndian width (field b offset width) = (b.drop offset).take width := by
  have hl : ((b.drop offset).take width).length = width := by simp; omega
  have := toBigEndian_ofBigEndian ((b.drop offset).take width)
  rwa [hl] at this

/-- A field of some bytes holds a number that fits in them. -/
theorem field_lt (b : Bytes) (offset width : Nat) : field b offset width < bound width := by
  have h := ofBigEndian_lt ((b.drop offset).take width)
  exact Nat.lt_of_lt_of_le h (bound_mono (List.length_take_le ..))

end Bytes

namespace FrameHeader

private theorem bound_four : Bytes.bound 4 = 4294967296 := rfl

private theorem ofNat_toNat_field32 (x : UInt32) (a t : Bytes) (offset : Nat)
    (ha : a.length = offset) :
    Bytes.field (a ++ Bytes.toBigEndian 4 x.toNat ++ t) offset 4 = x.toNat := by
  rw [Bytes.field_of_append a _ t offset _ ha (Bytes.length_toBigEndian ..),
    Bytes.ofBigEndian_toBigEndian, bound_four]
  exact Nat.mod_eq_of_lt x.toNat_lt

/-- The fields of a written header are the header, whatever follows it. -/
theorem ofFields_encode (h : FrameHeader) (t : Bytes) (hl : h.length.toNat ≤ maxBodyLength) :
    ofFields (h.encode ++ t) = .ok h := by
  obtain ⟨cmd, nid, flag, length, checksum⟩ := h
  have e0 := ofNat_toNat_field32 cmd [] (Bytes.toBigEndian 4 nid.toNat ++ [flag.toByte] ++
    Bytes.toBigEndian 4 length.toNat ++ Bytes.toBigEndian 4 checksum.toNat ++ t) 0 rfl
  have e4 := ofNat_toNat_field32 nid (Bytes.toBigEndian 4 cmd.toNat) ([flag.toByte] ++
    Bytes.toBigEndian 4 length.toNat ++ Bytes.toBigEndian 4 checksum.toNat ++ t)
    4 (by simp)
  have e8 := Bytes.field_of_append (Bytes.toBigEndian 4 cmd.toNat ++ Bytes.toBigEndian 4 nid.toNat)
    [flag.toByte] (Bytes.toBigEndian 4 length.toNat ++ Bytes.toBigEndian 4 checksum.toNat ++ t)
    8 1 (by simp) rfl
  have e9 := ofNat_toNat_field32 length (Bytes.toBigEndian 4 cmd.toNat ++
    Bytes.toBigEndian 4 nid.toNat ++ [flag.toByte]) (Bytes.toBigEndian 4 checksum.toNat ++ t)
    9 (by simp)
  have e13 := ofNat_toNat_field32 checksum (Bytes.toBigEndian 4 cmd.toNat ++
    Bytes.toBigEndian 4 nid.toNat ++ [flag.toByte] ++ Bytes.toBigEndian 4 length.toNat) t
    13 (by simp)
  simp only [List.append_assoc, List.nil_append, List.cons_append] at e0 e4 e8 e9 e13
  have hl' : ¬ maxBodyLength < length.toNat := by simpa using hl
  have hf : UInt8.ofNat (Bytes.ofBigEndian [flag.toByte]) = flag.toByte := by
    cases flag <;> rfl
  simp only [ofFields, encode, List.append_assoc, List.cons_append, List.nil_append, e0, e4, e8,
    e9, e13, hl', if_false, hf, Flag.ofByte_toByte, UInt32.ofNat_toNat]
  rfl

/-- A decoded header is written as the bytes it was read from. -/
theorem encode_of_ofFields {b : Bytes} {h : FrameHeader} (hb : size ≤ b.length)
    (hd : ofFields b = .ok h) : h.encode = b.take size := by
  simp only [ofFields] at hd
  split at hd
  · simp at hd
  · cases hf : Flag.ofByte (UInt8.ofNat (b.field 8 1)) with
    | error e => rw [hf] at hd; simp [bind, Except.bind] at hd
    | ok flag =>
      rw [hf] at hd
      simp only [bind, Except.bind, pure, Except.pure, Except.ok.injEq] at hd
      subst hd
      have hs : size = 17 := rfl
      have w4 : ∀ o, (UInt32.ofNat (b.field o 4)).toNat = b.field o 4 := fun o ↦ by
        rw [UInt32.toNat_ofNat']
        exact Nat.mod_eq_of_lt (Bytes.field_lt b o 4)
      have h1 : [flag.toByte] = (b.drop 8).take 1 := by
        rw [Flag.toByte_of_ofByte hf, ← Bytes.toBigEndian_field b (by omega)]
        simp [Bytes.toBigEndian]
      rw [encode, w4, w4, w4, w4, h1, Bytes.toBigEndian_field b (by omega),
        Bytes.toBigEndian_field b (by omega), Bytes.toBigEndian_field b (by omega),
        Bytes.toBigEndian_field b (by omega), List.drop_zero, hs]
      have join : ∀ m n, b.take m ++ (b.drop m).take n = b.take (m + n) :=
        fun m n ↦ List.take_add.symm
      rw [join, join, join, join]

/-- A frame header that announces a body within the limit is read from its bytes. -/
theorem decode_encode (h : FrameHeader) (t : Bytes) (hl : h.length.toNat ≤ maxBodyLength) :
    decode (h.encode ++ t) = .ok h := by
  rw [decode, if_neg (by simp), ofFields_encode h t hl]

/-- A frame header that was read is written as the bytes it was read from. -/
theorem encode_of_decode {b : Bytes} {h : FrameHeader} (hd : decode b = .ok h) :
    h.encode = b.take size := by
  unfold decode at hd
  split at hd
  · simp at hd
  · exact encode_of_ofFields (by omega) hd

end FrameHeader

namespace SessionHeader

private theorem bound_eight : Bytes.bound 8 = 18446744073709551616 := rfl

private theorem ofNat_toNat_field64 (x : UInt64) (a t : Bytes) (offset : Nat)
    (ha : a.length = offset) :
    Bytes.field (a ++ Bytes.toBigEndian 8 x.toNat ++ t) offset 8 = x.toNat := by
  rw [Bytes.field_of_append a _ t offset _ ha (Bytes.length_toBigEndian ..),
    Bytes.ofBigEndian_toBigEndian, bound_eight]
  exact Nat.mod_eq_of_lt x.toNat_lt

/-- A session header that announces a body within the limit is read from its bytes. -/
theorem decode_encode (h : SessionHeader) (t : Bytes) (hl : h.length.toNat ≤ maxBodyLength) :
    decode (h.encode ++ t) = .ok h := by
  obtain ⟨shared, sid, seq⟩ := h
  have e17 := ofNat_toNat_field64 sid shared.encode (Bytes.toBigEndian 8 seq.toNat ++ t)
    17 (by simp [FrameHeader.size])
  have e25 := ofNat_toNat_field64 seq (shared.encode ++ Bytes.toBigEndian 8 sid.toNat) t
    25 (by simp [FrameHeader.size])
  simp only [List.append_assoc] at e17 e25
  rw [decode, if_neg (by simp)]
  simp only [encode, List.append_assoc]
  rw [FrameHeader.ofFields_encode shared _ hl, e17, e25]
  simp [bind, Except.bind, pure, Except.pure]

/-- A session header that was read is written as the bytes it was read from. -/
theorem encode_of_decode {b : Bytes} {h : SessionHeader} (hd : decode b = .ok h) :
    h.encode = b.take size := by
  unfold decode at hd
  split at hd
  · simp at hd
  · next hb =>
    have hs : size = 33 := rfl
    cases hf : FrameHeader.ofFields b with
    | error e => rw [hf] at hd; simp [bind, Except.bind] at hd
    | ok shared =>
      rw [hf] at hd
      simp only [bind, Except.bind, pure, Except.pure, Except.ok.injEq] at hd
      subst hd
      have w8 : ∀ o, (UInt64.ofNat (b.field o 8)).toNat = b.field o 8 := fun o ↦ by
        rw [UInt64.toNat_ofNat']
        exact Nat.mod_eq_of_lt (Bytes.field_lt b o 8)
      have h17 : shared.encode = b.take 17 :=
        FrameHeader.encode_of_ofFields (by rw [show FrameHeader.size = 17 from rfl]; omega) hf
      rw [encode, w8, w8, h17, Bytes.toBigEndian_field b (by omega),
        Bytes.toBigEndian_field b (by omega), hs]
      have join : ∀ m n, b.take m ++ (b.drop m).take n = b.take (m + n) :=
        fun m n ↦ List.take_add.symm
      rw [join, join]

end SessionHeader

/-- A header whose reading and writing are inverse to each other. -/
class LawfulHeader (H : Type) [Header H] : Prop where
  length_encode (h : H) : (Header.encode h).length = Header.size H
  decode_encode (h : H) (t : Bytes) :
    (Header.shared h).length.toNat ≤ maxBodyLength →
      Header.decode (Header.encode h ++ t) = .ok h
  encode_of_decode {b : Bytes} {h : H} :
    Header.decode b = .ok h → Header.encode h = b.take (Header.size H)

/-- Frame headers are written and read alike. -/
instance : LawfulHeader FrameHeader where
  length_encode := FrameHeader.length_encode
  decode_encode := FrameHeader.decode_encode
  encode_of_decode := FrameHeader.encode_of_decode

/-- Session headers are written and read alike. -/
instance : LawfulHeader SessionHeader where
  length_encode := SessionHeader.length_encode
  decode_encode := SessionHeader.decode_encode
  encode_of_decode := SessionHeader.encode_of_decode

end EdgeGateway
