import EdgeGateway.Body.Room
import EdgeGateway.Body.Session
import EdgeGateway.Body.System
import EdgeGateway.Proofs.Cbor.Records

/-!
# Laws of message bodies

A body type is lawful if its fields have different short names and if its values are exactly the
lists of contents that fit the fields. All nine body types are.
-/

namespace EdgeGateway

namespace Cbor

variable {fields : List Field} {vs : List Value} {name : String} {optional : Bool}

/-- No fields hold no values. -/
theorem fits_nil : Fits [] vs ↔ vs = [] := List.forall₂_nil_left_iff

private theorem fits_cons {f : Field} :
    Fits (f :: fields) vs ↔ ∃ v vs', f.kind.Holds v ∧ Fits fields vs' ∧ vs = v :: vs' :=
  List.forall₂_cons_left_iff

private theorem fits_number_cons {size : Nat} {α : Type} (toNat : α → Nat)
    (h : ∀ n, n ≤ size - 1 ↔ ∃ a, toNat a = n) :
    Fits (⟨name, .number (size - 1), optional⟩ :: fields) vs ↔
      ∃ a vs', vs = .number (toNat a) :: vs' ∧ Fits fields vs' := by
  rw [fits_cons]
  constructor
  · rintro ⟨_ | _, vs', hv, hfits, rfl⟩
    · obtain ⟨a, rfl⟩ := (h _).1 hv
      exact ⟨a, vs', rfl, hfits⟩
    · cases hv
  · rintro ⟨a, vs', rfl, hfits⟩
    have hle := (h _).2 ⟨a, rfl⟩
    exact ⟨.number (toNat a), vs', hle, hfits, rfl⟩

/-- The first value of fields that begin with a 64-bit number is one. -/
theorem fits_u64_cons :
    Fits (.u64 name optional :: fields) vs ↔
      ∃ (n : UInt64) (vs' : List Value), vs = .number n.toNat :: vs' ∧ Fits fields vs' := by
  refine fits_number_cons UInt64.toNat fun n ↦ ⟨fun h ↦ ⟨.ofNat n, ?_⟩, ?_⟩
  · exact UInt64.toNat_ofNat_of_lt' (Nat.lt_of_le_sub_one (by decide) h)
  · rintro ⟨a, rfl⟩
    exact Nat.le_sub_one_of_lt a.toNat_lt

/-- The first value of fields that begin with a 32-bit number is one. -/
theorem fits_u32_cons :
    Fits (.u32 name optional :: fields) vs ↔
      ∃ (n : UInt32) (vs' : List Value), vs = .number n.toNat :: vs' ∧ Fits fields vs' := by
  refine fits_number_cons UInt32.toNat fun n ↦ ⟨fun h ↦ ⟨.ofNat n, ?_⟩, ?_⟩
  · exact UInt32.toNat_ofNat_of_lt' (Nat.lt_of_le_sub_one (by decide) h)
  · rintro ⟨a, rfl⟩
    exact Nat.le_sub_one_of_lt a.toNat_lt

/-- The first value of fields that begin with a 16-bit number is one. -/
theorem fits_u16_cons :
    Fits (.u16 name optional :: fields) vs ↔
      ∃ (n : UInt16) (vs' : List Value), vs = .number n.toNat :: vs' ∧ Fits fields vs' := by
  refine fits_number_cons UInt16.toNat fun n ↦ ⟨fun h ↦ ⟨.ofNat n, ?_⟩, ?_⟩
  · exact UInt16.toNat_ofNat_of_lt' (Nat.lt_of_le_sub_one (by decide) h)
  · rintro ⟨a, rfl⟩
    exact Nat.le_sub_one_of_lt a.toNat_lt

/-- The first value of fields that begin with a text is one. -/
theorem fits_text_cons :
    Fits (.text name optional :: fields) vs ↔
      ∃ (s : String) (vs' : List Value), vs = .text s :: vs' ∧ Fits fields vs' := by
  rw [fits_cons]
  constructor
  · rintro ⟨_ | s, vs', hv, hfits, rfl⟩
    · cases hv
    · exact ⟨s, vs', rfl, hfits⟩
  · rintro ⟨s, vs', rfl, hfits⟩
    exact ⟨.text s, vs', trivial, hfits, rfl⟩

end Cbor

open Cbor (Field Fits Value)

/-- What a field of this kind holds is written as one item without a tag. -/
def Cbor.Kind.Plain : Cbor.Kind → Prop
  | .number max => max < UInt64.size
  | .text => True

/-- Whether a kind is plain can be seen. -/
instance : DecidablePred Cbor.Kind.Plain
  | .number _ => inferInstanceAs (Decidable (_ < _))
  | .text => inferInstanceAs (Decidable True)

/-- Whether the names of fields are distinct can be computed. -/
instance (fields : List Field) : Decidable (Field.Distinct fields) :=
  inferInstanceAs (Decidable (List.Nodup _))

/-- A body type whose fields can be told apart, and whose values are what fits them. -/
class LawfulBody (α : Type) [Body α] : Prop where
  distinct : Field.Distinct (Body.fields α) := by decide
  short : ∀ f ∈ Body.fields α, (Cbor.Text.encode f.name).length ≤ Cbor.maxKeyLength := by
    decide
  plain : ∀ f ∈ Body.fields α, f.kind.Plain := by decide
  few : (Body.fields α).length < UInt64.size := by decide
  fits_iff (vs : List Value) : Fits (Body.fields α) vs ↔ ∃ a : α, Body.values a = vs
  ofValues_values (a : α) : Body.ofValues (Body.values a) = some a

/-! ### Sessions -/

/-- A request for a session is what its entries say. -/
instance : LawfulBody OnlineRequest where
  fits_iff vs := by
    simp only [Body.fields, Cbor.fits_u64_cons, Cbor.fits_text_cons, Cbor.fits_nil]
    constructor
    · rintro ⟨sid, _, rfl, uid, _, rfl, token, _, rfl, app, _, rfl, version, _, rfl, cid, _,
        rfl, rfl⟩
      exact ⟨⟨sid, uid, token, app, version, cid⟩, rfl⟩
    · rintro ⟨a, rfl⟩
      exact ⟨_, _, rfl, _, _, rfl, _, _, rfl, _, _, rfl, _, _, rfl, _, _, rfl, rfl⟩
  ofValues_values a := by simp only [Body.ofValues, Body.values, UInt64.ofNat_toNat]

/-- A verdict on such a request is what its entries say. -/
instance : LawfulBody OnlineAck where
  fits_iff vs := by
    simp only [Body.fields, Cbor.fits_u64_cons, Cbor.fits_u32_cons, Cbor.fits_text_cons,
      Cbor.fits_nil]
    constructor
    · rintro ⟨sid, _, rfl, uid, _, rfl, cid, _, rfl, code, _, rfl, errmsg, _, rfl, rfl⟩
      exact ⟨⟨sid, uid, cid, code, errmsg⟩, rfl⟩
    · rintro ⟨a, rfl⟩
      exact ⟨_, _, rfl, _, _, rfl, _, _, rfl, _, _, rfl, _, _, rfl, rfl⟩
  ofValues_values a := by
    simp only [Body.ofValues, Body.values, UInt64.ofNat_toNat, UInt32.ofNat_toNat]

/-- A notice that a session has been ended is what its entries say. -/
instance : LawfulBody KickNotice where
  fits_iff vs := by
    simp only [Body.fields, Cbor.fits_u32_cons, Cbor.fits_text_cons, Cbor.fits_nil]
    constructor
    · rintro ⟨code, _, rfl, errmsg, _, rfl, rfl⟩
      exact ⟨⟨code, errmsg⟩, rfl⟩
    · rintro ⟨a, rfl⟩
      exact ⟨_, _, rfl, _, _, rfl, rfl⟩
  ofValues_values a := by simp only [Body.ofValues, Body.values, UInt32.ofNat_toNat]

/-! ### Rooms -/

/-- A verdict on entering a room is what its entries say. -/
instance : LawfulBody RoomJoinAck where
  fits_iff vs := by
    simp only [Body.fields, Cbor.fits_u64_cons, Cbor.fits_u32_cons, Cbor.fits_text_cons,
      Cbor.fits_nil]
    constructor
    · rintro ⟨rid, _, rfl, gid, _, rfl, code, _, rfl, errmsg, _, rfl, rfl⟩
      exact ⟨⟨rid, gid, code, errmsg⟩, rfl⟩
    · rintro ⟨a, rfl⟩
      exact ⟨_, _, rfl, _, _, rfl, _, _, rfl, _, _, rfl, rfl⟩
  ofValues_values a := by
    simp only [Body.ofValues, Body.values, UInt64.ofNat_toNat, UInt32.ofNat_toNat]

/-- A request to leave a room is what its entry says. -/
instance : LawfulBody RoomQuit where
  fits_iff vs := by
    simp only [Body.fields, Cbor.fits_u64_cons, Cbor.fits_nil]
    constructor
    · rintro ⟨rid, _, rfl, rfl⟩
      exact ⟨⟨rid⟩, rfl⟩
    · rintro ⟨a, rfl⟩
      exact ⟨_, _, rfl, rfl⟩
  ofValues_values a := by simp only [Body.ofValues, Body.values, UInt64.ofNat_toNat]

/-- The address of a room is what its entries say. -/
instance : LawfulBody RoomAddress where
  fits_iff vs := by
    simp only [Body.fields, Cbor.fits_u64_cons, Cbor.fits_u32_cons, Cbor.fits_nil]
    constructor
    · rintro ⟨rid, _, rfl, gid, _, rfl, rfl⟩
      exact ⟨⟨rid, gid⟩, rfl⟩
    · rintro ⟨a, rfl⟩
      exact ⟨_, _, rfl, _, _, rfl, rfl⟩
  ofValues_values a := by
    simp only [Body.ofValues, Body.values, UInt64.ofNat_toNat, UInt32.ofNat_toNat]

/-! ### Links -/

/-- An introduction is what its entries say. -/
instance : LawfulBody LinkAuthRequest where
  fits_iff vs := by
    simp only [Body.fields, Cbor.fits_u32_cons, Cbor.fits_text_cons, Cbor.fits_nil]
    constructor
    · rintro ⟨nid, _, rfl, usr, _, rfl, passwd, _, rfl, rfl⟩
      exact ⟨⟨nid, usr, passwd⟩, rfl⟩
    · rintro ⟨a, rfl⟩
      exact ⟨_, _, rfl, _, _, rfl, _, _, rfl, rfl⟩
  ofValues_values a := by simp only [Body.ofValues, Body.values, UInt32.ofNat_toNat]

/-- A verdict on an introduction is what its entries say. -/
instance : LawfulBody LinkAuthAck where
  fits_iff vs := by
    simp only [Body.fields, Cbor.fits_u32_cons, Cbor.fits_text_cons, Cbor.fits_nil]
    constructor
    · rintro ⟨code, _, rfl, errmsg, _, rfl, rfl⟩
      exact ⟨⟨code, errmsg⟩, rfl⟩
    · rintro ⟨a, rfl⟩
      exact ⟨_, _, rfl, _, _, rfl, rfl⟩
  ofValues_values a := by simp only [Body.ofValues, Body.values, UInt32.ofNat_toNat]

/-- A report is what its entries say. -/
instance : LawfulBody LivenessReport where
  fits_iff vs := by
    simp only [Body.fields, Cbor.fits_u64_cons, Cbor.fits_u32_cons, Cbor.fits_u16_cons,
      Cbor.fits_text_cons, Cbor.fits_nil]
    constructor
    · rintro ⟨nid, _, rfl, ip, _, rfl, port, _, rfl, connections, _, rfl, rfl⟩
      exact ⟨⟨nid, ip, port, connections⟩, rfl⟩
    · rintro ⟨a, rfl⟩
      exact ⟨_, _, rfl, _, _, rfl, _, _, rfl, _, _, rfl, rfl⟩
  ofValues_values a := by
    simp only [Body.ofValues, Body.values, UInt64.ofNat_toNat, UInt32.ofNat_toNat,
      UInt16.ofNat_toNat]

end EdgeGateway
