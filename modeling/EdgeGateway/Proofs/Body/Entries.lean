import EdgeGateway.Proofs.Body.Laws

/-!
# Bodies from any entries

A body is read from the entries under its fields' names alone. Their order, the way the map is
written and all other entries make no difference: `bodies_from_entries`.
-/

namespace EdgeGateway

namespace Cbor

/-- An item that a field of this kind takes. -/
def Spelling.Suits : Kind → Spelling → Prop
  | .number max, unsigned _ n => n.toNat ≤ max
  | .text, text _ => True
  | _, _ => False

private theorem Spelling.suits_iff {kind : Kind} {i : Spelling} :
    i.Suits kind ↔ ∃ v, i.value? kind = some v := by
  cases kind with
  | number max => cases i <;> simp [Suits, value?]
  | text => cases i <;> simp [Suits, value?]

namespace Field

/-- The items under a field's name are what the field takes. -/
structure FilledBy (f : Field) (is : List Spelling) : Prop where
  required : f.optional = false → is.length = 1
  once : is.length ≤ 1
  suits : ∀ i ∈ is, i.Suits f.kind

/-- The content of a field from the item under its name, or what stands for its absence. -/
def filling (f : Field) (is : List Spelling) : Value :=
  (is.head?.bind fun i ↦ i.value? f.kind).getD f.kind.absent

variable {f : Field} {is : List Spelling}

private theorem content?_of_filledBy (h : f.FilledBy is) : f.content? is = some (f.filling is) := by
  match is, h with
  | [], h =>
    cases ho : f.optional with
    | true => rw [content?, if_pos ho]; rfl
    | false => cases h.required ho
  | [i], h =>
    obtain ⟨v, hv⟩ := Spelling.suits_iff.1 (h.suits i List.mem_cons_self)
    rw [content?, filling, List.head?_cons, Option.bind_some, hv, Option.getD_some]
  | _ :: _ :: _, h => exact absurd h.once (Nat.not_succ_le_zero _ ∘ Nat.le_of_succ_le_succ)

private theorem filledBy_of_content? {v : Value} (h : f.content? is = some v) : f.FilledBy is := by
  match is, h with
  | [], h =>
    rw [content?] at h
    split at h
    · next ho =>
      exact ⟨fun hf ↦ absurd (hf.symm.trans ho) Bool.false_ne_true, Nat.zero_le 1,
        List.forall_mem_nil _⟩
    · cases h
  | [i], h =>
    refine ⟨fun _ ↦ rfl, Nat.le_refl 1, ?_⟩
    intro j hj
    rw [List.mem_singleton.1 hj]
    exact Spelling.suits_iff.2 ⟨v, h⟩

private theorem content?_perm {is' : List Spelling} (h : is.Perm is') :
    f.content? is = f.content? is' := by
  match is, is', h.length_eq with
  | [], [], _ => rfl
  | [i], [j], _ => rw [List.singleton_perm_singleton.1 h]
  | _ :: _ :: _, _ :: _ :: _, _ => rfl

end Field

/-- Every field is filled. -/
def Filled (fields : List Field) (es : List Entry) : Prop :=
  ∀ f ∈ fields, f.FilledBy (occurrences es f.name)

/-- The entries under the names of fields. -/
def known (fields : List Field) (es : List Entry) : List Entry :=
  es.filter fun e ↦ fields.any (·.name == e.key)

variable {fields : List Field} {es es' : List Entry}

private theorem contents?_of_filled (h : Filled fields es) :
    contents? fields es = some (fields.map fun f ↦ f.filling (occurrences es f.name)) := by
  rw [contents?_eq_some_iff, List.forall₂_map_right_iff, List.forall₂_same]
  exact fun f hf ↦ Field.content?_of_filledBy (h f hf)

private theorem contents?_of_not_filled (h : ¬ Filled fields es) : contents? fields es = none := by
  rw [contents?_eq_none_iff]
  by_contra hne
  refine h fun f hf ↦ ?_
  obtain ⟨v, hv⟩ := Option.ne_none_iff_exists'.1 fun hnone ↦ hne ⟨f, hf, hnone⟩
  exact Field.filledBy_of_content? hv

private theorem occurrences_known {f : Field} (hf : f ∈ fields) (es : List Entry) :
    occurrences (known fields es) f.name = occurrences es f.name := by
  rw [occurrences, occurrences, known, List.filterMap_filter]
  congr 1
  funext e
  by_cases he : e.key = f.name
  · have hk : (fields.any fun g ↦ g.name == e.key) = true :=
      List.any_eq_true.2 ⟨f, hf, beq_iff_eq.2 he.symm⟩
    rw [if_pos hk]
  · rw [if_neg he, ite_self]

private theorem contents?_known (fields : List Field) (es : List Entry) :
    contents? fields (known fields es) = contents? fields es :=
  contents?_congr fun f hf ↦ by rw [occurrences_known hf]

private theorem contents?_perm (h : (known fields es).Perm (known fields es')) :
    contents? fields es = contents? fields es' := by
  rw [← contents?_known fields es, ← contents?_known fields es']
  exact contents?_congr fun f _ ↦ Field.content?_perm (h.filterMap _)

end Cbor

open Cbor

namespace Body

/-- A map with these entries, in this form, with any bytes behind it, as a body. -/
def decodeEntries (α : Type) [Body α] (form : Option Width) (es : List Entry) (t : Bytes) :
    Except CodecFault α :=
  decode ((Spelling.map form (es.map Entry.pair)).encode ++ t)

/-- A body is read from the entries under the names of its fields. -/
structure ReadFrom (α : Type) [Body α] (form : Option Width) (es : List Entry)
    (t : Bytes) : Prop where
  succeeds_iff : (∃ a, decodeEntries α form es t = .ok a) ↔ Filled (fields α) es
  values {a : α} : decodeEntries α form es t = .ok a →
    values a = (fields α).map fun f ↦ f.filling (occurrences es f.name)
  refuses : ¬ Filled (fields α) es → decodeEntries α form es t = .error .unsuitable
  /-- Order and unknown entries make no difference. -/
  independent {form' : Option Width} {es' : List Entry} {t' : Bytes} :
    Head.Announces form' es'.length → (∀ e ∈ es', e.Regular) →
    (known (fields α) es).Perm (known (fields α) es') →
    decodeEntries α form es t = decodeEntries α form' es' t'

variable {α : Type} [Body α] [LawfulBody α] {form : Option Width} {es : List Entry}

private theorem decodeEntries_eq (hform : Head.Announces form es.length)
    (hes : ∀ e ∈ es, e.Regular) (t : Bytes) :
    decodeEntries α form es t =
      ((contents? (fields α) es).bind Body.ofValues).elim (.error .unsuitable) .ok := by
  rw [decodeEntries, decode, readRecord_entries LawfulBody.distinct form es t hform hes]
  cases hc : contents? (fields α) es with
  | none => rfl
  | some vs =>
    simp only [Option.elim_some, Option.bind_some]
    cases (ofValues vs : Option α) <;> rfl

private theorem readFrom (hform : Head.Announces form es.length) (hes : ∀ e ∈ es, e.Regular)
    (t : Bytes) : ReadFrom α form es t := by
  have hd := decodeEntries_eq (α := α) hform hes t
  have hfilled (h : Filled (fields α) es) : ∃ a : α, decodeEntries α form es t = .ok a ∧
      values a = (fields α).map fun f ↦ f.filling (occurrences es f.name) := by
    have hc := contents?_of_filled h
    obtain ⟨a, ha⟩ := (LawfulBody.fits_iff _).1 (fits_of_contents? hc)
    refine ⟨a, ?_, ha⟩
    rw [hd, hc, ← ha, Option.bind_some, LawfulBody.ofValues_values, Option.elim_some]
  have hrefused (h : ¬ Filled (fields α) es) : decodeEntries α form es t =
    .error .unsuitable := by
    rw [hd, contents?_of_not_filled h, Option.bind_none, Option.elim_none]
  refine ⟨⟨?_, fun h ↦ ?_⟩, fun {a} ha ↦ ?_, hrefused, fun hform' hes' hp ↦ ?_⟩
  · rintro ⟨a, ha⟩
    by_contra h
    cases ha.symm.trans (hrefused h)
  · obtain ⟨a, ha, -⟩ := hfilled h
    exact ⟨a, ha⟩
  · by_cases h : Filled (fields α) es
    · obtain ⟨b, hb, hv⟩ := hfilled h
      cases ha.symm.trans hb
      exact hv
    · cases ha.symm.trans (hrefused h)
  · rw [hd, decodeEntries_eq hform' hes', contents?_perm hp]

end Body

open Body

/-- Every body type is read from the entries under its fields' names, from any map of regular
entries. -/
theorem bodies_from_entries (form : Option Width) (es : List Entry) (t : Bytes)
    (hform : Head.Announces form es.length) (hes : ∀ e ∈ es, e.Regular) :
    ReadFrom OnlineRequest form es t ∧ ReadFrom OnlineAck form es t ∧
      ReadFrom KickNotice form es t ∧
    ReadFrom RoomJoinAck form es t ∧ ReadFrom RoomQuit form es t ∧
    ReadFrom RoomAddress form es t ∧ ReadFrom LinkAuthRequest form es t ∧
    ReadFrom LinkAuthAck form es t ∧ ReadFrom LivenessReport form es t :=
  ⟨readFrom hform hes t, readFrom hform hes t, readFrom hform hes t, readFrom hform hes t,
    readFrom hform hes t, readFrom hform hes t, readFrom hform hes t, readFrom hform hes t,
    readFrom hform hes t⟩

/-- The address of a room behind entries that no body has, one of them nested and in pieces. -/
theorem bodies_from_entries_shuffled :
    ∃ es : List Entry, es.map Entry.key = ["future", "gid", "future", "rid"] ∧
      Head.Announces none es.length ∧ (∀ e ∈ es, e.Regular) ∧
      ∀ t, decodeEntries RoomAddress none es t = .ok ⟨7, 9⟩ := by
  let nested : Spelling := .array none
    [.map (some .two) [(.text (.pieces [(.inner, "deep"), (.one, "er")]), .null)],
      .bytes (.whole .four [1, 2])]
  let es : List Entry := [⟨.two, "future", nested⟩, ⟨.inner, "gid", .unsigned .four 9⟩,
    ⟨.inner, "future", .double 0⟩, ⟨.one, "rid", .unsigned .eight 7⟩]
  have hnested : nested.Sized := by
    simp only [nested, Spelling.Sized, Spelling.SizedItems, Spelling.SizedEntries, Head.Announces,
      Run.Sized]
    decide
  have hes : ∀ e ∈ es, e.Regular := by
    simp only [es, List.forall_mem_cons]
    exact ⟨⟨by decide, by decide, hnested⟩, ⟨by decide, by decide, trivial⟩,
      ⟨by decide, by decide, trivial⟩, ⟨by decide, by decide, trivial⟩,
      List.forall_mem_nil _⟩
  refine ⟨es, rfl, trivial, hes, fun t ↦ ?_⟩
  obtain ⟨-, -, -, -, -, h, -⟩ := bodies_from_entries none es t trivial hes
  have hfilled : Filled (fields RoomAddress) es := by
    simp only [Filled, fields, List.forall_mem_cons]
    have hrid : ∀ i ∈ [Spelling.unsigned .eight 7], i.Suits (.number (UInt64.size - 1)) :=
      List.forall_mem_singleton.2 (show (7 : UInt64).toNat ≤ UInt64.size - 1 by decide)
    have hgid : ∀ i ∈ [Spelling.unsigned .four 9], i.Suits (.number (UInt32.size - 1)) :=
      List.forall_mem_singleton.2 (show (9 : UInt64).toNat ≤ UInt32.size - 1 by decide)
    exact ⟨⟨fun _ ↦ rfl, Nat.le_refl 1, hrid⟩, ⟨fun _ ↦ rfl, Nat.le_refl 1, hgid⟩,
      List.forall_mem_nil _⟩
  obtain ⟨a, ha⟩ := h.succeeds_iff.2 hfilled
  -- The values of a body determine it.
  have hv : values a = values (⟨7, 9⟩ : RoomAddress) := h.values ha
  have hof := congrArg (ofValues (α := RoomAddress)) hv
  rw [LawfulBody.ofValues_values, LawfulBody.ofValues_values] at hof
  cases hof
  exact ha

end EdgeGateway
