import EdgeGateway.Cbor.Text

/-!
# Reading a text window by window

A text is read as a whole here, but it arrives in windows of a bounded size, and a window may end
within a character. `read_eq_readWindows` says that this makes no difference: taking one window
after the other, spelling the whole characters in it and carrying what is left over to the next
gives the same text, the same rest and the same faults, for every input.
-/

namespace EdgeGateway.Cbor.Text

/-! ### Texts and their bytes -/

/-- Two texts one after the other are spelled one after the other. -/
theorem encode_append (s t : String) : encode (s ++ t) = encode s ++ encode t := by
  rw [encode, String.toUTF8, String.toByteArray_append, ByteArray.toList_data_append]
  rfl

/-- The bytes that spell a text are those it is stored as. -/
theorem toByteArray_encode (s : String) : (encode s).toByteArray = s.toByteArray := by
  apply ByteArray.ext
  simp [encode]

/-- A text has one spelling. -/
theorem encode_inj {s t : String} : encode s = encode t ↔ s = t := by
  constructor
  · intro h
    rw [← String.toByteArray_inj, ← toByteArray_encode, h, toByteArray_encode]
  · exact congrArg encode

/-- Characters are spelled one after the other. -/
theorem encode_ofList (cs : List Char) : encode (String.ofList cs) = cs.utf8Encode.data.toList := by
  rw [encode, String.toUTF8, String.toByteArray_ofList]

/-- A character has at most four bytes. -/
theorem length_encode_ofList_le (cs : List Char) :
    (encode (String.ofList cs)).length ≤ 4 * cs.length := by
  induction cs with
  | nil => exact Nat.le_refl 0
  | cons c cs ih =>
    have hc := c.utf8Size_le_four
    rw [encode_ofList] at ih
    rw [encode_ofList, List.utf8Encode_cons, List.utf8Encode_singleton,
      ByteArray.toList_data_append, List.length_append, List.length_cons, Nat.mul_succ]
    simp only [List.data_toByteArray, List.toList_toArray, String.length_utf8EncodeChar]
    omega

/-- Bytes spell at most one text. -/
theorem decode?_eq_some_iff {b : Bytes} {s : String} : decode? b = some s ↔ encode s = b := by
  constructor
  · intro h
    rw [decode?, String.fromUTF8?] at h
    split at h
    · cases h
      simp [encode, String.fromUTF8]
    · cases h
  · rintro rfl
    exact decode?_encode s

/-- What follows a text in the spelling of a longer one is the spelling of the difference. -/
theorem exists_eq_append {s t : String} {b : Bytes} (h : encode s ++ b = encode t) :
    ∃ r, t = s ++ r ∧ encode r = b := by
  have hb : s.toList.utf8Encode ++ b.toByteArray = t.toList.utf8Encode := by
    apply ByteArray.ext
    apply Array.toList_inj.1
    rw [ByteArray.toList_data_append, ← encode_ofList, ← encode_ofList, String.ofList_toList,
      String.ofList_toList, ← h]
    simp
  obtain ⟨m, hm⟩ := List.isPrefix_of_utf8Encode_append_eq_utf8Encode _ hb
  have ht : t = s ++ String.ofList m := by
    rw [← String.ofList_toList (s := t), ← hm, String.ofList_append, String.ofList_toList]
  refine ⟨String.ofList m, ht, ?_⟩
  rw [ht, encode_append] at h
  exact (List.append_cancel_left h).symm

/-- Behind a text the rest is decoded by itself. -/
theorem decode?_append (s : String) (b : Bytes) :
    decode? (encode s ++ b) = (decode? b).map (s ++ ·) := by
  cases hd : decode? b with
  | some r =>
    rw [Option.map_some, decode?_eq_some_iff, encode_append, decode?_eq_some_iff.1 hd]
  | none =>
    rw [Option.map_none, Option.eq_none_iff_forall_ne_some]
    intro t ht
    obtain ⟨r, -, hr⟩ := exists_eq_append (decode?_eq_some_iff.1 ht).symm
    rw [decode?_eq_some_iff.2 hr] at hd
    cases hd

/-! ### Whole and unfinished characters -/

/-- No whole character stands in front. -/
def Unwhole (b : Bytes) : Prop := b.toByteArray.utf8DecodeChar? 0 = none

private theorem unwhole_nil : Unwhole [] := rfl

-- Without a whole character in front, bytes spell a text only if there are none, and there are
-- no more than three that begin one.
private theorem Unwhole.of_append {b c : Bytes} {t : String} (hb : Unwhole b)
    (h : b ++ c = encode t) : b.length ≤ 3 ∧ (c = [] → b = []) := by
  cases ht : t.toList with
  | nil =>
    have he : b ++ c = [] := by
      rw [h, ← String.ofList_toList (s := t), ht, encode_ofList]
      rfl
    rw [(List.append_eq_nil_iff.1 he).1]
    exact ⟨Nat.zero_le _, fun _ ↦ rfl⟩
  | cons x xs =>
    have hs : b ++ c = String.utf8EncodeChar x ++ encode (String.ofList xs) := by
      rw [h, ← String.ofList_toList (s := t), ht, encode_ofList, encode_ofList,
        List.utf8Encode_cons, ByteArray.toList_data_append, List.utf8Encode_singleton]
      simp
    -- Were the first character whole within `b`, it would be found there.
    have hlt : b.length < x.utf8Size := by
      apply Nat.lt_of_not_le
      intro hle
      rw [← String.length_utf8EncodeChar] at hle
      obtain ⟨d, rfl⟩ := List.prefix_of_prefix_length_le (List.prefix_append _ _)
        (hs ▸ List.prefix_append b c) hle
      have hx := ByteArray.utf8DecodeChar?_utf8EncodeChar_append (b := d.toByteArray) (c := x)
      rw [Unwhole, List.toByteArray_append, hx] at hb
      cases hb
    refine ⟨by have := x.utf8Size_le_four; omega, ?_⟩
    rintro rfl
    have hl := congrArg List.length hs
    rw [List.append_nil, List.length_append, String.length_utf8EncodeChar] at hl
    omega

private theorem wholeFrom_spec (b : ByteArray) (fuel i : Nat) (hi : i ≤ b.size)
    (hf : b.size - i ≤ fuel) : ∃ cs : List Char,
      b.extract i b.size = cs.utf8Encode ++ b.extract (wholeFrom b fuel i) b.size ∧
      b.utf8DecodeChar? (wholeFrom b fuel i) = none ∧ wholeFrom b fuel i ≤ b.size := by
  induction fuel generalizing i with
  | zero =>
    have hnone : b.utf8DecodeChar? i = none := by
      rw [← Option.not_isSome_iff_eq_none]
      intro hs
      have := ByteArray.lt_size_of_isSome_utf8DecodeChar? hs
      omega
    exact ⟨[], by simp [wholeFrom], hnone, hi⟩
  | succ fuel ih =>
    rw [wholeFrom]
    split
    · next c hc =>
      have hle := ByteArray.le_size_of_utf8DecodeChar?_eq_some hc
      have hpos := c.utf8Size_pos
      obtain ⟨cs, hcs, hnone, hw⟩ := ih (i + c.utf8Size) hle (by omega)
      refine ⟨c :: cs, ?_, hnone, hw⟩
      rw [ByteArray.utf8DecodeChar?_eq_utf8DecodeChar?_extract] at hc
      have he := ByteArray.eq_of_utf8DecodeChar?_eq_some hc
      rw [he, List.utf8Encode_cons, List.utf8Encode_singleton, ByteArray.append_assoc, ← hcs]
      congr 1
      rw [ByteArray.extract_extract]
      congr 1
      simp
      omega
    · next hc => exact ⟨[], by simp, hc, hi⟩

/-- The text that the whole characters at the front of `b` spell. -/
def finished (b : Bytes) : String := (decode? (b.take (b.length - (unfinished b).length))).getD ""

private theorem exists_finished (b : Bytes) :
    ∃ s, b = encode s ++ unfinished b ∧ Unwhole (unfinished b) := by
  obtain ⟨cs, hcs, hnone, -⟩ :=
    wholeFrom_spec b.toByteArray b.length 0 (Nat.zero_le _) (by simp)
  have hu : (unfinished b).toByteArray =
      b.toByteArray.extract (wholeFrom b.toByteArray b.length 0) b.toByteArray.size := by
    apply ByteArray.ext
    apply Array.toList_inj.1
    rw [ByteArray.data_extract, Array.toList_extract, List.extract_eq_take_drop,
      List.take_of_length_le (by simp)]
    simp [unfinished]
  refine ⟨String.ofList cs, ?_, ?_⟩
  · rw [ByteArray.extract_zero_size, ← hu] at hcs
    have hl := congrArg (fun b : ByteArray ↦ b.data.toList) hcs
    simpa [encode_ofList, ByteArray.toList_data_append] using hl
  · rw [Unwhole, hu, ← ByteArray.utf8DecodeChar?_eq_utf8DecodeChar?_extract]
    exact hnone

/-- Bytes are the whole characters at their front and what is left behind them. -/
theorem encode_finished_append (b : Bytes) : encode (finished b) ++ unfinished b = b := by
  obtain ⟨s, hs, -⟩ := exists_finished b
  have hf : finished b = s := by
    have hl : b.length - (unfinished b).length = (encode s).length := by
      have := congrArg List.length hs
      rw [List.length_append] at this
      omega
    have ht : b.take (encode s).length = encode s := by
      rw [hs]
      exact List.take_left
    rw [finished, hl, ht, decode?_encode, Option.getD_some]
  rw [hf, ← hs]

private theorem unwhole_unfinished (b : Bytes) : Unwhole (unfinished b) :=
  (exists_finished b).choose_spec.2

/-! ### Windows -/

/-- Reads the `n` bytes that are left of a text. Up to three bytes are kept from the window before,
the beginning of a character; `s` is what the windows so far have spelled. -/
def readWindows (n : Nat) (kept : { b : Bytes // b.length ≤ 3 }) (s : String) (input : Bytes) :
    Except CodecFault (String × Bytes) :=
  if _hn : n = 0 then
    if kept.1 = [] then .ok (s, input) else .error .illFormed
  else
    let size := min (window - kept.1.length) n
    match input.split? size with
    | none => .error .endOfInput
    | some (piece, rest) =>
      if h : (unfinished (kept.1 ++ piece)).length ≤ 3 then
        readWindows (n - size) ⟨_, h⟩ (s ++ finished (kept.1 ++ piece)) rest
      else .error .illFormed
termination_by n
decreasing_by
  have := kept.2
  simp only [window]
  omega

private theorem readWindows_of_length (n : Nat) (kept : { b : Bytes // b.length ≤ 3 })
    (s : String) (b rest : Bytes) (hk : Unwhole kept.1) (hb : b.length = n) :
    readWindows n kept s (b ++ rest) =
      (decode? (kept.1 ++ b)).elim (.error .illFormed) fun t ↦ .ok (s ++ t, rest) := by
  induction n using Nat.strongRecOn generalizing kept s b with
  | ind n ih =>
  rw [readWindows]
  split
  · next hn =>
    -- What is kept at the end is no text unless it is nothing.
    obtain rfl : b = [] := List.eq_nil_of_length_eq_zero (hb.trans hn)
    rw [List.append_nil, List.nil_append]
    split
    · next h =>
      rw [h, show decode? [] = some "" from decode?_encode "", Option.elim_some,
        String.append_empty]
    · next h =>
      have hd : decode? kept.1 = none := by
        rw [Option.eq_none_iff_forall_ne_some]
        intro t ht
        refine h ((hk.of_append (c := []) (t := t) ?_).2 rfl)
        rw [List.append_nil, decode?_eq_some_iff.1 ht]
      rw [hd, Option.elim_none]
  · next hn =>
    generalize hsize : min (window - kept.1.length) n = size
    have hpos : 0 < size := by
      have := kept.2
      simp only [window] at hsize
      omega
    have hle : size ≤ n := hsize ▸ Nat.min_le_right _ _
    have hs : (b ++ rest).split? size = some (b.take size, b.drop size ++ rest) := by
      rw [Bytes.split?_eq_some, ← List.append_assoc, List.take_append_drop]
      exact ⟨rfl, by rw [List.length_take]; omega⟩
    have hu := unwhole_unfinished (kept.1 ++ b.take size)
    have hd : decode? (kept.1 ++ b) =
        (decode? (unfinished (kept.1 ++ b.take size) ++ b.drop size)).map
          (finished (kept.1 ++ b.take size) ++ ·) := by
      rw [← decode?_append, ← List.append_assoc, encode_finished_append, List.append_assoc,
        List.take_append_drop]
    simp only [hs, hd]
    split
    · next h =>
      rw [ih (n - size) (by omega) ⟨_, h⟩ _ (b.drop size) hu (by rw [List.length_drop]; omega)]
      cases decode? (unfinished (kept.1 ++ b.take size) ++ b.drop size) with
      | none => rfl
      | some t => simp [String.append_assoc]
    · next h =>
      have hnone : decode? (unfinished (kept.1 ++ b.take size) ++ b.drop size) = none := by
        rw [Option.eq_none_iff_forall_ne_some]
        intro t ht
        exact h (hu.of_append (decode?_eq_some_iff.1 ht).symm).1
      rw [hnone]
      rfl

private theorem readWindows_of_lt (fuel n : Nat) (kept : { b : Bytes // b.length ≤ 3 })
    (s : String) (input : Bytes) (hn : input.length < n) (hf : input.length < fuel) :
    readWindows n kept s input = .error (truncated.go fuel kept.1 input) := by
  induction fuel generalizing n kept s input with
  | zero => omega
  | succ fuel ih =>
    have hk := kept.2
    rw [readWindows, dif_neg (by omega), truncated.go]
    by_cases hw : window - kept.1.length ≤ n
    · simp only [Nat.min_eq_left hw]
      cases hs : input.split? (window - kept.1.length) with
      | none => rfl
      | some p =>
        obtain ⟨piece, rest⟩ := p
        obtain ⟨rfl, hl⟩ := Bytes.split?_eq_some.1 hs
        simp only [window] at hl
        rw [List.length_append] at hn hf
        by_cases h : (unfinished (kept.1 ++ piece)).length ≤ 3
        · simp only [dif_pos h, if_neg (Nat.not_lt_of_le h)]
          exact ih _ ⟨_, h⟩ _ _ (by simp only [window]; omega) (by omega)
        · simp only [dif_neg h, if_pos (Nat.lt_of_not_le h)]
    · have hs := Bytes.split?_eq_none.2 (Nat.lt_trans hn (Nat.lt_of_not_le hw))
      simp only [Nat.min_eq_right (Nat.le_of_not_le hw), Bytes.split?_eq_none.2 hn, hs]

/-- Reading a text as a whole is reading it window by window. -/
theorem read_eq_readWindows (n : Nat) (input : Bytes) :
    read n input = readWindows n ⟨[], Nat.zero_le _⟩ "" input := by
  rw [read]
  cases hs : input.split? n with
  | none =>
    rw [readWindows_of_lt (input.length + 1) n _ _ input (Bytes.split?_eq_none.1 hs)
      (Nat.lt_succ_self _)]
    rfl
  | some p =>
    obtain ⟨b, rest⟩ := p
    obtain ⟨rfl, hb⟩ := Bytes.split?_eq_some.1 hs
    rw [readWindows_of_length n _ _ b rest unwhole_nil hb]
    simp only [List.nil_append]
    cases decode? b with
    | none => rfl
    | some t => simp

end EdgeGateway.Cbor.Text
