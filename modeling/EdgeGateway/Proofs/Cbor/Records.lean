import EdgeGateway.Cbor.Record
import Mathlib.Data.List.Forall2
import Mathlib.Data.List.Nodup
import EdgeGateway.Proofs.Cbor.Skipping
import EdgeGateway.Proofs.Cbor.Windows

/-!
# What a record is read as

The entries of a record come in any order, each with a text key and any item. Of an entry whose key
is a field the item must suit the field; all other entries are passed over. `readRecord_entries`
says what the whole record is read as: the contents of the fields, each of which depends on nothing
but the items under its own key.
-/

namespace EdgeGateway.Cbor

variable {input rest : Bytes} {head : Head}

/-! ### Items as contents of fields -/

/-- The content of a field of this kind that an item stands for. -/
def Spelling.value? : Kind → Spelling → Option Value
  | .number max, unsigned _ n => if n.toNat ≤ max then some (.number n.toNat) else none
  | .text, text r => some (.text r.text)
  | _, _ => none

/-- What a kind of field can hold. -/
def Kind.Holds : Kind → Value → Prop
  | .number max, .number n => n ≤ max
  | .text, .text _ => True
  | _, _ => False

/-- What an item says to a field of a kind is a value of that kind. -/
theorem Spelling.holds_of_value? {kind : Kind} {i : Spelling} {v : Value}
    (h : i.value? kind = some v) : kind.Holds v := by
  unfold value? at h
  split at h
  · split at h
    · next hn =>
      cases h
      exact hn
    · cases h
  · cases h
    trivial
  · cases h

private theorem readNumber_of_read {max : Nat} (h : Head.read input = .ok (head, rest))
    (ht : ∀ n, head ≠ .tag n) :
    readNumber max input =
      match head with
      | .unsigned n => if n ≤ max then .ok (n, rest) else .error .unsuitable
      | _ => .error .unsuitable := by
  rw [readNumber]
  split
  · next h' => cases h.symm.trans h'
  · next h' =>
    cases h.symm.trans h'
    cases head with
    | tag n => exact absurd rfl (ht n)
    | _ => rfl

private theorem readString_of_read (h : Head.read input = .ok (head, rest))
    (ht : ∀ n, head ≠ .tag n) : readString input =
      match head with
      | .text length => readText length rest
      | _ => .error .unsuitable := by
  rw [readString]
  split
  · next h' => cases h.symm.trans h'
  · next h' =>
    cases h.symm.trans h'
    cases head with
    | tag n => exact absurd rfl (ht n)
    | _ => rfl

private theorem Spelling.head_ne_tag (i : Spelling) (n : Nat) : i.head ≠ .tag n := by
  cases i with
  | bool b => cases b <;> exact nofun
  | _ => exact nofun

/-- An item is read as what it stands for. An item that does not suit is the only fault there is. -/
theorem readValue_encode (kind : Kind) (i : Spelling) (t : Bytes) (hs : i.Sized) :
    readValue kind (i.encode ++ t) =
      (i.value? kind).elim (.error .unsuitable) fun v ↦ .ok (v, t) := by
  have hr := i.read_opening (i.body ++ t) hs
  rw [Spelling.encode, List.append_assoc]
  cases kind with
  | number max =>
    rw [readValue, readNumber_of_read hr i.head_ne_tag]
    cases i with
    | unsigned w n =>
      by_cases hn : n.toNat ≤ max <;>
        simp [Spelling.value?, Spelling.head, Spelling.body, hn, Except.map]
    | bool b => cases b <;> rfl
    | _ => rfl
  | text =>
    rw [readValue, readString_of_read hr i.head_ne_tag]
    cases i with
    | text r =>
      simp only [Spelling.head, Spelling.body, Run.readText_body r t hs]
      rfl
    | bool b => cases b <;> rfl
    | _ => rfl

/-! ### Entries -/

/-- An entry of a record. -/
structure Entry where
  /-- The width of the key's length. -/
  width : Width
  key : String
  item : Spelling

namespace Entry

/-- The key and the value. -/
def pair (e : Entry) : Spelling × Spelling := (.text (.whole e.width e.key), e.item)

/-- The key is one that a reader of records accepts, and the item stays within the limit on nesting.
-/
structure Regular (e : Entry) : Prop where
  key : (Text.encode e.key).length ≤ maxKeyLength
  depth : e.item.depth < maxDepth
  sized : e.item.Sized

end Entry

/-- The items under a key, in order. -/
def occurrences (es : List Entry) (name : String) : List Spelling :=
  es.filterMap fun e ↦ if e.key = name then some e.item else none

private theorem read_key (w : Width) (key : String) (t : Bytes)
    (hk : (Text.encode key).length ≤ maxKeyLength) :
    Head.read ((Spelling.text (.whole w key)).encode ++ t) =
      .ok (.text (some (Text.encode key).length), Text.encode key ++ t) := by
  have hs : (Spelling.text (.whole w key)).Sized := by
    simp only [maxKeyLength] at hk
    simp only [Spelling.Sized, Run.Sized, UInt64.size]
    omega
  rw [Spelling.encode, List.append_assoc]
  exact Spelling.read_opening _ _ hs

private theorem readKey_text (w : Width) (key : String) (t : Bytes)
    (hk : (Text.encode key).length ≤ maxKeyLength) :
    readKey ((Spelling.text (.whole w key)).encode ++ t) = .ok (Text.encode key, t) := by
  have hr := read_key w key t hk
  rw [readKey]
  split
  · next h' => cases hr.symm.trans h'
  · next h' =>
    cases hr.symm.trans h'
    have hb : (Text.encode key ++ t).split? (Text.encode key).length = some (Text.encode key, t) :=
      Bytes.split?_eq_some.2 ⟨rfl, rfl⟩
    simp only [hb, if_pos hk, Text.decode?_encode, Option.isSome_some, if_true]

private theorem entryBegins_text (form : Option Width) (n : Nat) (w : Width) (key : String)
    (t : Bytes) (hk : (Text.encode key).length ≤ maxKeyLength) :
    entryBegins (form.map fun _ ↦ n + 1) ((Spelling.text (.whole w key)).encode ++ t) =
      .ok (true, (Spelling.text (.whole w key)).encode ++ t) := by
  cases form with
  | some _ => rfl
  | none => simp only [Option.map_none, entryBegins, read_key w key t hk]

variable {fields : List Field} {left : Option Nat} {found : Found}

private theorem readEntries_of_ends (hb : entryBegins left input = .ok (false, rest)) :
    readEntries fields left found input = .ok found := by
  rw [readEntries]
  split
  · next hb' => cases hb.symm.trans hb'
  · rfl
  · next hb' => cases hb.symm.trans hb'

private theorem readEntries_of_begins {start key : Bytes}
    (hb : entryBegins left input = .ok (true, start)) (hk : readKey start = .ok (key, rest)) :
    readEntries fields left found input =
      match fields.find? (fun f ↦ Text.encode f.name == key) with
      | none => skipItem rest >>= readEntries fields (left.map (· - 1)) found
      | some f =>
        if (found.lookup f.name).isSome then .error .unsuitable
        else readValue f.kind rest >>= fun p ↦
          readEntries fields (left.map (· - 1)) ((f.name, p.1) :: found) p.2 := by
  rw [readEntries]
  split
  · next hb' => cases hb.symm.trans hb'
  · next hb' => cases hb.symm.trans hb'
  · next hb' =>
    cases hb.symm.trans hb'
    split
    · next hk' => cases hk.symm.trans hk'
    · next hk' =>
      cases hk.symm.trans hk'
      simp only
      cases fields.find? (fun f ↦ Text.encode f.name == key) with
      | none =>
        simp only
        split <;> next hs => rw [hs]; rfl
      | some f =>
        simp only
        congr 1
        split <;> next hv => rw [hv]; rfl

/-- What is known of a record once more entries have been read. -/
def collect (fields : List Field) (found : Found) : List Entry → Option Found
  | [] => some found
  | e :: es =>
    match fields.find? (·.name == e.key) with
    | none => collect fields found es
    | some f =>
      if (found.lookup f.name).isSome then none
      else (e.item.value? f.kind).bind fun v ↦ collect fields ((f.name, v) :: found) es

private theorem find?_encode (fields : List Field) (key : String) :
    fields.find? (fun f ↦ Text.encode f.name == Text.encode key) =
      fields.find? (·.name == key) := by
  congr 1
  funext f
  rw [Bool.eq_iff_iff, beq_iff_eq, beq_iff_eq, Text.encode_inj]

private theorem readEntries_encode (fields : List Field) (form : Option Width) (found : Found)
    (es : List Entry) (t : Bytes) (hes : ∀ e ∈ es, e.Regular) :
    readEntries fields (form.map fun _ ↦ es.length) found
        (Spelling.encodeEntries (es.map Entry.pair) ++ (Head.closing form ++ t)) =
      (collect fields found es).elim (.error .unsuitable) .ok := by
  induction es generalizing found with
  | nil =>
    have hends : entryBegins (form.map fun _ ↦ 0) (Head.closing form ++ t) = .ok (false, t) := by
      cases form <;> rfl
    exact readEntries_of_ends hends
  | cons e es ih =>
    obtain ⟨hkey, hdepth, hsized⟩ := hes e List.mem_cons_self
    have ih := fun found ↦ ih found fun e' he ↦ hes e' (List.mem_cons_of_mem _ he)
    have hsplit : Spelling.encodeEntries ((e :: es).map Entry.pair) ++ (Head.closing form ++ t) =
        (Spelling.text (.whole e.width e.key)).encode ++ (e.item.encode ++
          (Spelling.encodeEntries (es.map Entry.pair) ++ (Head.closing form ++ t))) := by
      simp only [List.map_cons, Entry.pair, Spelling.encodeEntries, Spelling.encode,
        List.append_assoc]
    have hbegins := entryBegins_text form es.length e.width e.key (e.item.encode ++
      (Spelling.encodeEntries (es.map Entry.pair) ++ (Head.closing form ++ t))) hkey
    have hleft : (form.map fun _ ↦ es.length + 1).map (· - 1) =
      form.map fun _ ↦ es.length := by
      cases form <;> rfl
    rw [hsplit, List.length_cons, readEntries_of_begins hbegins (readKey_text _ _ _ hkey),
      collect, hleft, find?_encode]
    cases hf : fields.find? (·.name == e.key) with
    | none =>
      simp only [skipItem_encode _ _ hdepth hsized]
      exact ih found
    | some f =>
      simp only [readValue_encode _ _ _ hsized]
      split
      · rfl
      · cases e.item.value? f.kind with
        | none => rfl
        | some v => exact ih _

/-! ### Fields -/

namespace Field

/-- What is known of a field once the items under its key have been read, if it is filled at most
once and suitably. -/
def settle (f : Field) (known : Option Value) : List Spelling → Option (Option Value)
  | [] => some known
  | i :: is => if known.isSome then none else (i.value? f.kind).bind fun v ↦ f.settle (some v) is

/-- The content of a field under whose key these items stand. -/
def content? (f : Field) : List Spelling → Option Value
  | [] => if f.optional then some f.kind.absent else none
  | [i] => i.value? f.kind
  | _ => none

/-- The content of a field is of its kind, also where it is absent. -/
theorem holds_of_content? {f : Field} {is : List Spelling} {v : Value}
    (h : f.content? is = some v) : f.kind.Holds v := by
  unfold content? at h
  split at h
  · split at h
    · cases h
      cases f.kind with
      | number max => exact Nat.zero_le max
      | text => trivial
    · cases h
  · exact Spelling.holds_of_value? h
  · cases h

/-- No two fields have the same name. -/
def Distinct (fields : List Field) : Prop := (fields.map Field.name).Nodup

private theorem settle_of_isSome {f : Field} {known : Option Value} (h : known.isSome)
    (i : Spelling) (is : List Spelling) : f.settle known (i :: is) = none := if_pos h

private theorem pick_eq {f : Field} {is : List Spelling}
    (h : f.settle none is = some (found.lookup f.name)) :
    f.pick found = (f.content? is).elim (.error .unsuitable) .ok := by
  match is with
  | [] =>
    rw [pick, ← Option.some.inj h, content?]
    cases f.optional <;> rfl
  | [i] =>
    cases hv : i.value? f.kind with
    | none =>
      rw [settle, hv] at h
      cases h
    | some v =>
      have hl : some v = found.lookup f.name := by
        rw [settle, hv] at h
        exact Option.some.inj h
      rw [pick, ← hl, content?, hv]
      rfl
  | i :: j :: is =>
    cases hv : i.value? f.kind <;> rw [settle, hv] at h <;> cases h

private theorem content?_eq_none {f : Field} {is : List Spelling} (h : f.settle none is = none) :
    f.content? is = none := by
  match is with
  | [] => cases h
  | [i] =>
    cases hv : i.value? f.kind with
    | none => rw [content?, hv]
    | some v =>
      rw [settle, hv] at h
      cases h
  | i :: j :: is => rfl

end Field

/-- An entry in front comes first under its own key. -/
theorem occurrences_cons_self (e : Entry) (es : List Entry) :
    occurrences (e :: es) e.key = e.item :: occurrences es e.key := by
  rw [occurrences, List.filterMap_cons, if_pos rfl]
  rfl

/-- An entry in front does not matter under another key. -/
theorem occurrences_cons_of_ne {e : Entry} {name : String} (h : e.key ≠ name) (es : List Entry) :
    occurrences (e :: es) name = occurrences es name := by
  rw [occurrences, List.filterMap_cons, if_neg h]
  rfl

private theorem collect_spec (hd : Field.Distinct fields) (es : List Entry) (found : Found) :
    (∀ found', collect fields found es = some found' → ∀ f ∈ fields,
      f.settle (found.lookup f.name) (occurrences es f.name) = some (found'.lookup f.name)) ∧
    (collect fields found es = none → ∃ f ∈ fields,
      f.settle (found.lookup f.name) (occurrences es f.name) = none) := by
  induction es generalizing found with
  | nil =>
    refine ⟨?_, nofun⟩
    rintro found' ⟨⟩ f -
    rfl
  | cons e es ih =>
    rw [collect]
    cases hf : fields.find? (·.name == e.key) with
    | none =>
      have ho : ∀ f ∈ fields, occurrences (e :: es) f.name = occurrences es f.name := by
        intro f hmem
        refine occurrences_cons_of_ne (fun heq ↦ ?_) es
        have := List.find?_eq_none.1 hf f hmem
        exact this (beq_iff_eq.2 heq.symm)
      refine ⟨fun found' hc f hmem ↦ ?_, fun hc ↦ ?_⟩
      · rw [ho f hmem]
        exact (ih found).1 found' hc f hmem
      · obtain ⟨f, hmem, h⟩ := (ih found).2 hc
        exact ⟨f, hmem, by rw [ho f hmem, h]⟩
    | some g =>
      have hg : g ∈ fields := List.mem_of_find?_eq_some hf
      have hkey : g.name = e.key := by simpa using List.find?_some hf
      have hgo : occurrences (e :: es) g.name = e.item :: occurrences es g.name := by
        rw [hkey, occurrences_cons_self]
      simp only
      split
      · next hl =>
        exact ⟨nofun, fun _ ↦ ⟨g, hg, by rw [hgo, Field.settle_of_isSome hl]⟩⟩
      · next hl =>
        have hl : found.lookup g.name = none := Option.not_isSome_iff_eq_none.1 hl
        cases hv : e.item.value? g.kind with
        | none => exact ⟨nofun, fun _ ↦ ⟨g, hg, by rw [hgo, hl, Field.settle, hv]; rfl⟩⟩
        | some v =>
          -- The entry settles its own field and no other.
          have hstep : ∀ f ∈ fields,
            f.settle (found.lookup f.name) (occurrences (e :: es) f.name) =
              f.settle (((g.name, v) :: found).lookup f.name) (occurrences es f.name) := by
            intro f hmem
            by_cases hn : f.name = g.name
            · obtain rfl := List.inj_on_of_nodup_map hd hmem hg hn
              rw [hgo, hl, Field.settle, hv, List.lookup_cons, beq_self_eq_true]
              rfl
            · rw [occurrences_cons_of_ne (fun h ↦ hn (h.symm.trans hkey.symm)), List.lookup_cons,
                beq_eq_false_iff_ne.2 hn]
          refine ⟨fun found' hc f hmem ↦ ?_, fun hc ↦ ?_⟩
          · rw [hstep f hmem]
            exact (ih _).1 found' hc f hmem
          · obtain ⟨f, hmem, h⟩ := (ih _).2 hc
            exact ⟨f, hmem, by rw [hstep f hmem, h]⟩

/-! ### Records -/

private theorem readMapHead_of_read {length : Option Nat}
    (h : Head.read input = .ok (.map length, rest)) : readMapHead input = .ok (length, rest) := by
  rw [readMapHead]
  split
  · next h' => cases h.symm.trans h'
  · next h' =>
    cases h.symm.trans h'
    rfl

/-- The contents of fields, from the items under their keys. -/
def contents? (fields : List Field) (es : List Entry) : Option (List Value) :=
  fields.mapM fun f ↦ f.content? (occurrences es f.name)

/-- Entries that say the same about every field have the same contents. -/
theorem contents?_congr {es es' : List Entry}
    (h : ∀ f ∈ fields, f.content? (occurrences es f.name) =
      f.content? (occurrences es' f.name)) : contents? fields es = contents? fields es' := by
  unfold contents?
  induction fields with
  | nil => rfl
  | cons f fs ih =>
    rw [List.mapM_cons, List.mapM_cons, h f List.mem_cons_self,
      ih fun g hg ↦ h g (List.mem_cons_of_mem _ hg)]

/-- The contents are what the entries say about the fields, one by one. -/
theorem contents?_eq_some_iff {es : List Entry} {vs : List Value} :
    contents? fields es = some vs ↔
      List.Forall₂ (fun f v ↦ f.content? (occurrences es f.name) = some v) fields vs := by
  unfold contents?
  induction fields generalizing vs with
  | nil =>
    rw [List.mapM_nil, List.forall₂_nil_left_iff]
    exact ⟨fun h ↦ (Option.some.inj h).symm, fun h ↦ congrArg some h.symm⟩
  | cons f fs ih =>
    simp only [List.mapM_cons, bind, Option.bind_eq_some_iff, List.forall₂_cons_left_iff, ih]
    constructor
    · rintro ⟨v, hv, vs, hvs, ⟨⟩⟩
      exact ⟨v, vs, hv, hvs, rfl⟩
    · rintro ⟨v, vs, hv, hvs, rfl⟩
      exact ⟨v, hv, vs, hvs, rfl⟩

/-- There are no contents just when the entries say nothing about some field. -/
theorem contents?_eq_none_iff {es : List Entry} :
    contents? fields es = none ↔ ∃ f ∈ fields, f.content? (occurrences es f.name) = none := by
  unfold contents?
  induction fields with
  | nil => exact ⟨nofun, nofun⟩
  | cons f fs ih =>
    rw [List.mapM_cons]
    cases hf : f.content? (occurrences es f.name) with
    | none => exact ⟨fun _ ↦ ⟨f, List.mem_cons_self, hf⟩, fun _ ↦ rfl⟩
    | some v =>
      simp only [List.mem_cons, exists_eq_or_imp, hf, reduceCtorEq, false_or, ← ih]
      cases fs.mapM fun f : Field ↦ f.content? (occurrences es f.name) <;> simp

/-- A list of contents, each of its field's kind. -/
def Fits : List Field → List Value → Prop := List.Forall₂ fun f v ↦ f.kind.Holds v

/-- The contents are values of the kinds of their fields. -/
theorem fits_of_contents? {es : List Entry} {vs : List Value} (h : contents? fields es = some vs) :
    Fits fields vs :=
  (contents?_eq_some_iff.1 h).imp fun _ _ ↦ Field.holds_of_content?

private theorem mapM_pick {es : List Entry}
    (h : ∀ f ∈ fields, f.pick found =
      (f.content? (occurrences es f.name)).elim (.error .unsuitable) .ok) :
    fields.mapM (Field.pick found) = (contents? fields es).elim (.error .unsuitable) .ok := by
  unfold contents?
  induction fields with
  | nil => rfl
  | cons f fs ih =>
    have ih := ih fun g hg ↦ h g (List.mem_cons_of_mem _ hg)
    rw [List.mapM_cons, List.mapM_cons, h f List.mem_cons_self, ih]
    cases f.content? (occurrences es f.name) with
    | none => rfl
    | some v => cases fs.mapM fun f : Field ↦ f.content? (occurrences es f.name) <;> rfl

/-- A record is read as the contents of its fields, each from the items under its own key. -/
theorem readRecord_entries (hd : Field.Distinct fields) (form : Option Width) (es : List Entry)
    (t : Bytes) (hform : Head.Announces form es.length) (hes : ∀ e ∈ es, e.Regular) :
    readRecord fields ((Spelling.map form (es.map Entry.pair)).encode ++ t) =
      (contents? fields es).elim (.error .unsuitable) .ok := by
  have hr := Head.read_announce_map form es.length
    (Spelling.encodeEntries (es.map Entry.pair) ++ (Head.closing form ++ t)) hform
  have hb : (Spelling.map form (es.map Entry.pair)).encode ++ t = Head.announce form 5 es.length ++
      (Spelling.encodeEntries (es.map Entry.pair) ++ (Head.closing form ++ t)) := by
    simp only [Spelling.encode, Spelling.opening, Spelling.body, List.length_map, List.append_assoc]
  rw [hb, readRecord, readMapHead_of_read hr]
  simp only [bind, Except.bind, readEntries_encode fields form [] es t hes]
  obtain ⟨hsome, hnone⟩ := collect_spec hd es []
  cases hc : collect fields [] es with
  | none =>
    obtain ⟨f, hf, hs⟩ := hnone hc
    rw [contents?_eq_none_iff.2 ⟨f, hf, Field.content?_eq_none hs⟩]
    rfl
  | some found =>
    exact mapM_pick fun f hf ↦ Field.pick_eq (hsome found hc f hf)

end EdgeGateway.Cbor
