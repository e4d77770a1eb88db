import EdgeGateway.Proofs.Body.Laws

/-!
# Bodies round-trip

What a body is written as is one of the ways to spell its entries, with the shortest heads and the
fields in order. So reading gives it back, whatever stands behind it.
-/

namespace EdgeGateway

namespace Cbor

/-- The shortest spelling of a value. -/
def Value.spelling : Value → Spelling
  | number n => .unsigned .inner (.ofNat n)
  | text s => .text (.whole .inner s)

/-- The entries that a record is written with. -/
def written (fields : List Field) (vs : List Value) : List Entry :=
  (fields.zip vs).map fun p ↦ ⟨.inner, p.1.name, p.2.spelling⟩

/-- A head can announce the length of every text, as it can of every text in memory. -/
def Announceable (vs : List Value) : Prop :=
  ∀ s, .text s ∈ vs → (Text.encode s).length < UInt64.size

variable {fields : List Field} {vs : List Value}

private theorem encode_spelling (v : Value) : v.spelling.encode = v.toItem.encode := by
  cases v with
  | number n => exact List.append_nil _
  | text s => rfl

private theorem encode_recordItem (fields : List Field) (vs : List Value) :
    (recordItem fields vs).encode =
      (Spelling.map (some .inner) ((written fields vs).map Entry.pair)).encode := by
  have hes : Item.encodeEntries (List.zipWith (fun f v ↦ (.text f.name, v.toItem)) fields vs) =
      Spelling.encodeEntries ((written fields vs).map Entry.pair) := by
    induction fields generalizing vs with
    | nil => rfl
    | cons f fs ih =>
      cases vs with
      | nil => rfl
      | cons v vs =>
        have hv := encode_spelling v
        rw [Spelling.encode] at hv
        simp only [written, List.zipWith_cons_cons, List.zip_cons_cons, List.map_cons, Entry.pair,
          Item.encodeEntries, Spelling.encodeEntries, hv, ih vs]
        rfl
  rw [recordItem, Item.encode, hes, Spelling.encode, Spelling.opening, Spelling.body]
  simp only [written, List.length_map, List.length_zipWith, List.length_zip, Head.closing,
    List.append_nil]
  rfl

private theorem exists_of_mem_written {e : Entry} (he : e ∈ written fields vs) :
    ∃ f ∈ fields, ∃ v ∈ vs, e = ⟨.inner, f.name, v.spelling⟩ := by
  obtain ⟨⟨f, v⟩, hp, rfl⟩ := List.mem_map.1 he
  obtain ⟨hf, hv⟩ := List.of_mem_zip hp
  exact ⟨f, hf, v, hv, rfl⟩

private theorem occurrences_written_of_notMem {name : String} (h : name ∉ fields.map Field.name) :
    occurrences (written fields vs) name = [] := by
  rw [occurrences, List.filterMap_eq_nil_iff]
  intro e he
  obtain ⟨f, hf, v, -, rfl⟩ := exists_of_mem_written he
  refine if_neg ?_
  rintro rfl
  exact h (List.mem_map_of_mem hf)

private theorem value?_spelling {kind : Kind} {v : Value} (hp : kind.Plain) (h : kind.Holds v) :
    v.spelling.value? kind = some v := by
  cases kind with
  | number max =>
    cases v with
    | number n =>
      have hn : n ≤ max := h
      have hto : (UInt64.ofNat n).toNat = n := UInt64.toNat_ofNat_of_lt' (Nat.lt_of_le_of_lt hn hp)
      rw [Value.spelling, Spelling.value?, hto, if_pos hn]
    | text s => cases h
  | text =>
    cases v with
    | number n => cases h
    | text s => rfl

private theorem contents?_written (hd : Field.Distinct fields) (hp : ∀ f ∈ fields, f.kind.Plain)
    (hv : Fits fields vs) : contents? fields (written fields vs) = some vs := by
  rw [contents?_eq_some_iff]
  induction hv with
  | nil => exact .nil
  | @cons f v fs vs hf _ ih =>
    obtain ⟨hnot, hd⟩ := List.nodup_cons.1 (show (f.name :: fs.map Field.name).Nodup from hd)
    have ih := ih hd fun g hg ↦ hp g (List.mem_cons_of_mem _ hg)
    have hcons : written (f :: fs) (v :: vs) = ⟨.inner, f.name, v.spelling⟩ :: written fs vs :=
      rfl
    rw [hcons]
    refine .cons ?_ ?_
    · have hself := occurrences_cons_self ⟨.inner, f.name, v.spelling⟩ (written fs vs)
      simp only [occurrences_written_of_notMem hnot] at hself
      rw [hself]
      exact value?_spelling (hp f List.mem_cons_self) hf
    · -- The entry in front is under none of the other keys.
      have hne : ∀ g ∈ fs, f.name ≠ g.name :=
        fun g hg h ↦ hnot (h ▸ List.mem_map_of_mem hg)
      refine ((List.forall₂_and_left fs vs).2 ⟨hne, ih⟩).imp ?_
      rintro g w ⟨hg, hw⟩
      rw [occurrences_cons_of_ne hg]
      exact hw

private theorem regular_written
    (hshort : ∀ f ∈ fields, (Text.encode f.name).length ≤ maxKeyLength)
    (ha : Announceable vs) : ∀ e ∈ written fields vs, e.Regular := by
  intro e he
  obtain ⟨f, hf, v, hv, rfl⟩ := exists_of_mem_written he
  cases v with
  | number n => exact ⟨hshort f hf, Nat.zero_lt_succ _, trivial⟩
  | text s => exact ⟨hshort f hf, Nat.zero_lt_succ _, ha s hv⟩

end Cbor

open Cbor

namespace Body

/-- Every value of the type is what is read from its bytes, whatever stands behind them. -/
def RoundTrips (α : Type) [Body α] : Prop :=
  ∀ (a : α) (t : Bytes), Announceable (values a) → decode (encode a ++ t) = .ok a

variable {α : Type} [Body α] [LawfulBody α]

/-- Every lawful body type round-trips. -/
theorem roundTrips : RoundTrips α := by
  intro a t ha
  have hd := LawfulBody.distinct (α := α)
  have hv : Fits (fields α) (values a) := (LawfulBody.fits_iff _).2 ⟨a, rfl⟩
  have hl : (written (fields α) (values a)).length < UInt64.size := by
    rw [written, List.length_map, List.length_zip]
    exact Nat.lt_of_le_of_lt (Nat.min_le_left _ _) LawfulBody.few
  have hr := readRecord_entries hd (some .inner) (written (fields α) (values a)) t hl
    (regular_written LawfulBody.short ha)
  rw [← encode_recordItem, contents?_written hd LawfulBody.plain hv, Option.elim_some] at hr
  rw [decode, encode, hr]
  simp only [LawfulBody.ofValues_values]

end Body

open Body

/-- Texts are read window by window, and every body type round-trips. -/
theorem bodies_round_trip :
    (∀ n input, Text.read n input = Text.readWindows n ⟨[], Nat.zero_le _⟩ "" input) ∧
    RoundTrips OnlineRequest ∧ RoundTrips OnlineAck ∧ RoundTrips KickNotice ∧
    RoundTrips RoomJoinAck ∧ RoundTrips RoomQuit ∧ RoundTrips RoomAddress ∧
    RoundTrips LinkAuthRequest ∧ RoundTrips LinkAuthAck ∧ RoundTrips LivenessReport :=
  ⟨Text.read_eq_readWindows, roundTrips, roundTrips, roundTrips, roundTrips, roundTrips,
    roundTrips, roundTrips, roundTrips, roundTrips⟩

/-- A text whose last character lies across two windows, and the largest code. -/
theorem bodies_round_trip_across :
    ∃ a : LinkAuthAck, a.code = 4294967295 ∧
      a.errmsg = .ofList (.replicate 4095 'a' ++ ['é']) ∧ Announceable (values a) ∧
      ∀ t, decode (encode a ++ t) = .ok a := by
  obtain ⟨-, -, -, -, -, -, -, -, h, -⟩ := bodies_round_trip
  have hl := Text.length_encode_ofList_le (.replicate 4095 'a' ++ ['é'])
  rw [List.length_append, List.length_replicate] at hl
  generalize String.ofList (.replicate 4095 'a' ++ ['é']) = s at hl
  have ha : Announceable (values (⟨4294967295, s⟩ : LinkAuthAck)) := by
    intro s' hs
    simp only [values, List.mem_cons, reduceCtorEq, Value.text.injEq, List.not_mem_nil, or_false,
      false_or] at hs
    rw [hs]
    exact Nat.lt_of_le_of_lt hl (by decide)
  exact ⟨⟨4294967295, s⟩, rfl, rfl, ha, fun t ↦ h _ t ha⟩

end EdgeGateway
