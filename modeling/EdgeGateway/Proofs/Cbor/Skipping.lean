import EdgeGateway.Proofs.Cbor.Spelling

/-!
# Strings and items are passed in full

However a string or an item is spelled, a reader takes exactly its bytes. A text read gives the
text; an item passed leaves what stands behind it, whatever is open around it, if the nesting stays
within the limit. Main statements: `Run.readText_body` and `skipItem_encode`.
-/

namespace EdgeGateway.Cbor

/-! ### Strings -/

variable {input rest : Bytes} {head : Head}

private theorem split?_append (b t : Bytes) : (b ++ t).split? b.length = some (b, t) :=
  Bytes.split?_eq_some.2 ⟨rfl, rfl⟩

private theorem skipBytesRun_of_read {depth : Nat} (h : Head.read input = .ok (head, rest)) :
    skipBytesRun depth input =
      match Chunk.ofBytesHead head with
      | none => .error .illFormed
      | some .deeper => skipBytesRun (depth + 1) rest
      | some .stop => if depth = 0 then .ok rest else skipBytesRun (depth - 1) rest
      | some (.piece n) =>
        (rest.split? n).elim (.error .endOfInput) fun p ↦ skipBytesRun depth p.2 := by
  rw [skipBytesRun]
  split
  · next h' => cases h.symm.trans h'
  · next h' =>
    cases h.symm.trans h'
    simp only
    obtain _ | n | _ | _ := Chunk.ofBytesHead head
    · rfl
    · simp only
      split
      · next hs => rw [hs, Option.elim_none]
      · next hs => rw [hs, Option.elim_some]
    · rfl
    · rfl

private theorem readTextRun_of_read {depth : Nat} {s : String}
    (h : Head.read input = .ok (head, rest)) : readTextRun depth s input =
      match Chunk.ofTextHead head with
      | none => .error .illFormed
      | some .deeper => readTextRun (depth + 1) s rest
      | some .stop => if depth = 0 then .ok (s, rest) else readTextRun (depth - 1) s rest
      | some (.piece n) => Text.read n rest >>= fun p ↦ readTextRun depth (s ++ p.1) p.2 := by
  rw [readTextRun]
  split
  · next h' => cases h.symm.trans h'
  · next h' =>
    cases h.symm.trans h'
    simp only
    obtain _ | n | _ | _ := Chunk.ofTextHead head
    · rfl
    · simp only
      split
      · next hs =>
        rw [hs]
        rfl
      · next hs =>
        rw [hs]
        rfl
    · rfl
    · rfl

namespace Run

/-- A byte string is passed, as a whole or piece by piece. -/
theorem skipBytes_body (r : Run Bytes) (t : Bytes) (hs : r.Sized id) :
    skipBytes (r.length? id) (r.body 2 id ++ t) = .ok t := by
  cases r with
  | whole w b =>
    simp only [length?, body, id, skipBytes, split?_append]
  | pieces ps =>
    rw [length?, skipBytes]
    induction ps with
    | nil =>
      have hstop : Head.read ((pieces []).body 2 (@id Bytes) ++ t) = .ok (.stop, t) := rfl
      rw [skipBytesRun_of_read hstop]
      rfl
    | cons p ps ih =>
      have hp : p.2.length < UInt64.size := hs p List.mem_cons_self
      have hps := ih fun q hq ↦ hs q (List.mem_cons_of_mem _ hq)
      simp only [body, id, List.flatMap_cons, List.append_assoc] at hps ⊢
      obtain ⟨_, hr⟩ := Head.read_spell p.1 2 p.2.length _ (by decide) hp
      rw [skipBytesRun_of_read hr]
      simp only [Chunk.ofBytesHead, Argument.length?, split?_append, Option.elim_some, hps]

/-- A text is read, as a whole or piece by piece. -/
theorem readText_body (r : Run String) (t : Bytes) (hs : r.Sized Text.encode) :
    readText (r.length? Text.encode) (r.body 3 Text.encode ++ t) = .ok (r.text, t) := by
  cases r with
  | whole w s => exact Text.read_encode s t
  | pieces ps =>
    -- What was read before is in front of what is read now.
    suffices h : ∀ s, readTextRun 0 s ((pieces ps).body 3 Text.encode ++ t) =
      .ok (s ++ joined ps, t) by
      rw [length?, readText, h, String.empty_append, text]
    induction ps with
    | nil =>
      intro s
      have hstop : Head.read ((pieces []).body 3 Text.encode ++ t) = .ok (.stop, t) := rfl
      rw [readTextRun_of_read hstop, joined, String.append_empty]
      rfl
    | cons p ps ih =>
      intro s
      have hp : (Text.encode p.2).length < UInt64.size := hs p List.mem_cons_self
      have hps := ih fun q hq ↦ hs q (List.mem_cons_of_mem _ hq)
      simp only [body, List.flatMap_cons, List.append_assoc] at hps ⊢
      obtain ⟨_, hr⟩ := Head.read_spell p.1 3 (Text.encode p.2).length _ (by decide) hp
      rw [readTextRun_of_read hr]
      simp only [Chunk.ofTextHead, Argument.length?, Text.read_encode, joined]
      rw [← String.append_assoc]
      exact hps _

end Run

/-! ### Items -/

namespace Pending

/-- What is to come once `n` more items have begun. -/
def after (p : Pending) : (n : Nat) → Pending
  | 0 => p
  | n + 1 => p.advance.after n

/-- Whether `n` more items may begin. -/
def Takes : Pending → (n : Nat) → Prop
  | count m, n => n ≤ m
  | _, _ => True

/-- Where one more item may begin there is something to come. -/
theorem Takes.ne_count_zero {p : Pending} {n : Nat} (h : p.Takes (n + 1)) : p ≠ count 0 := by
  rintro rfl
  exact Nat.not_succ_le_zero n h

/-- Once an item has begun one fewer may begin. -/
theorem Takes.advance {p : Pending} {n : Nat} (h : p.Takes (n + 1)) : p.advance.Takes n := by
  cases p with
  | count m => exact Nat.le_sub_one_of_lt h
  | items => trivial
  | entries atKey => trivial

/-- Where some items may begin fewer may begin. -/
theorem Takes.mono {p : Pending} {m n : Nat} (h : p.Takes n) (hm : m ≤ n) : p.Takes m := by
  cases p with
  | count k => exact Nat.le_trans hm h
  | items => trivial
  | entries atKey => trivial

/-- Of counted items as many fewer are to come as have begun. -/
theorem after_count (m n : Nat) : (count m).after n = count (m - n) := by
  induction n generalizing m with
  | zero => rfl
  | succ n ih => rw [after, Pending.advance, ih, Nat.sub_sub, Nat.add_comm]

/-- Of items without a count any number is to come. -/
theorem after_items (n : Nat) : items.after n = items := by
  induction n with
  | zero => rfl
  | succ n ih => exact ih

/-- Whole entries leave a map without a count as it was. -/
theorem after_entries (atKey : Bool) (n : Nat) : (entries atKey).after (2 * n) = entries atKey := by
  induction n with
  | zero => rfl
  | succ n ih =>
    have h : (entries atKey).after (2 * (n + 1)) = (entries (!!atKey)).after (2 * n) := rfl
    rw [h, Bool.not_not, ih]

end Pending

section Passing

variable {top : Pending} {outer : List Pending}

private theorem skipPending_of_read (ht : top ≠ .count 0)
    (h : Head.read input = .ok (head, rest)) : skipPending (top :: outer) input =
      match head with
      | .unsigned _ | .negative _ | .float _ _ => skipPending (top.advance :: outer) rest
      | .simple n =>
        if 20 ≤ n ∧ n ≤ 23 then
          skipPending (top.advance :: outer) rest
        else .error .unsuitable
      | .stop => if top.closable then skipPending outer rest else .error .unsuitable
      | .bytes length => skipBytes length rest >>= skipPending (top.advance :: outer)
      | .text length => readText length rest >>= fun p ↦ skipPending (top.advance :: outer) p.2
      | .array length =>
        if maxDepth ≤ outer.length + 1 then .error .tooDeep
        else skipPending ((length.map .count).getD .items :: top.advance :: outer) rest
      | .map length =>
        if maxDepth ≤ outer.length + 1 then .error .tooDeep
        else skipPending
          ((length.map fun n ↦ .count (2 * n)).getD (.entries true) :: top.advance :: outer) rest
      | .tag tag =>
        skipBignum tag rest >>= fun
          | some rest' => skipPending (top.advance :: outer) rest'
          | none =>
            if maxDepth ≤ outer.length + 1 then .error .tooDeep
            else skipPending (.count 1 :: top.advance :: outer) rest := by
  rw [skipPending.eq_def]
  split
  · next heq => cases heq
  · next heq =>
    cases heq
    exact absurd rfl ht
  · next heq =>
    cases heq
    split
    · next h' => cases h.symm.trans h'
    · next h' =>
      cases h.symm.trans h'
      cases head with
      | bytes length => simp only; split <;> next hs => rw [hs]; rfl
      | text length => simp only; split <;> next hs => rw [hs]; rfl
      | tag tag => simp only; split <;> next hs => rw [hs]; rfl
      | _ => rfl

private theorem skipPending_count_zero (t : Bytes) :
    skipPending (.count 0 :: outer) t = skipPending outer t := by
  rw [skipPending]

private theorem skipPending_stop (hc : top.closable = true) (t : Bytes) :
    skipPending (top :: outer) (Head.closing none ++ t) = skipPending outer t := by
  have ht : top ≠ .count 0 := by
    rintro rfl
    cases hc
  have hstop : Head.read (Head.closing none ++ t) = .ok (.stop, t) := rfl
  rw [skipPending_of_read ht hstop]
  exact if_pos hc

end Passing

namespace Spelling

mutual
-- An item is passed wherever one may begin, and the nesting inside it comes on top of what is
-- open.
private theorem skipPending_item (i : Spelling) (top : Pending) (outer : List Pending) (t : Bytes)
    (ht : top.Takes 1) (hd : outer.length + 1 + i.depth ≤ maxDepth) (hs : i.Sized) :
    skipPending (top :: outer) (i.opening ++ i.body ++ t) =
      skipPending (top.advance :: outer) t := by
  have hr := i.read_opening (i.body ++ t) hs
  rw [List.append_assoc, skipPending_of_read ht.ne_count_zero hr]
  cases i with
  | unsigned w n => rfl
  | negative w n => rfl
  | bytes r =>
    simp only [head, body, Run.skipBytes_body r t hs]
    rfl
  | text r =>
    simp only [head, body, Run.readText_body r t hs]
    rfl
  | array form is =>
    simp only [depth] at hd
    have his :=
      fun inner hi ↦ skipPending_items is inner (top.advance :: outer) (Head.closing form ++ t) hi
      (by rw [List.length_cons]; omega) hs.2
    simp only [head, body, List.append_assoc]
    rw [if_neg (by omega)]
    cases form with
    | some w =>
      rw [Option.map_some, Option.map_some, Option.getD_some,
        his (.count is.length) (Nat.le_refl _), Pending.after_count, Nat.sub_self,
        skipPending_count_zero]
      rfl
    | none =>
      rw [Option.map_none, Option.map_none, Option.getD_none, his .items trivial,
        Pending.after_items, skipPending_stop rfl]
  | map form es =>
    simp only [depth] at hd
    have hes :=
      fun inner hi ↦ skipPending_entries es inner (top.advance :: outer) (Head.closing form ++ t)
      hi (by rw [List.length_cons]; omega) hs.2
    simp only [head, body, List.append_assoc]
    rw [if_neg (by omega)]
    cases form with
    | some w =>
      rw [Option.map_some, Option.map_some, Option.getD_some,
        hes (.count (2 * es.length)) (Nat.le_refl _), Pending.after_count, Nat.sub_self,
        skipPending_count_zero]
      rfl
    | none =>
      rw [Option.map_none, Option.map_none, Option.getD_none, hes (.entries true) trivial,
        Pending.after_entries, skipPending_stop rfl]
  | bool b => cases b <;> rfl
  | null => rfl
  | half bits => rfl
  | single bits => rfl
  | double bits => rfl

private theorem skipPending_items (is : List Spelling) (top : Pending) (outer : List Pending)
    (t : Bytes) (ht : top.Takes is.length) (hd : outer.length + 1 + depthItems is ≤ maxDepth)
    (hs : SizedItems is) : skipPending (top :: outer) (encodeItems is ++ t) =
      skipPending (top.after is.length :: outer) t := by
  cases is with
  | nil => rfl
  | cons i is =>
    simp only [depthItems] at hd
    simp only [encodeItems]
    rw [List.append_assoc,
      skipPending_item i top outer _ (ht.mono (Nat.le_add_left 1 _)) (by omega) hs.1,
      skipPending_items is top.advance outer t ht.advance (by omega) hs.2]
    rfl

private theorem skipPending_entries (es : List (Spelling × Spelling)) (top : Pending)
    (outer : List Pending) (t : Bytes) (ht : top.Takes (2 * es.length))
    (hd : outer.length + 1 + depthEntries es ≤ maxDepth) (hs : SizedEntries es) :
    skipPending (top :: outer) (encodeEntries es ++ t) =
      skipPending (top.after (2 * es.length) :: outer) t := by
  cases es with
  | nil => rfl
  | cons e es =>
    obtain ⟨k, v⟩ := e
    simp only [depthEntries] at hd
    have hk : top.Takes 1 := ht.mono (by rw [List.length_cons]; omega)
    have hv : top.advance.Takes 1 := ht.advance.mono (by omega)
    simp only [encodeEntries]
    rw [List.append_assoc, List.append_assoc, skipPending_item k top outer _ hk (by omega) hs.1,
      skipPending_item v top.advance outer _ hv (by omega) hs.2.1,
      skipPending_entries es top.advance.advance outer t ht.advance.advance (by omega) hs.2.2]
    rfl
end

end Spelling

/-- An item of a record is passed if all that it opens, inside the record, stays within the limit.
-/
theorem skipItem_encode (i : Spelling) (t : Bytes) (hd : i.depth < maxDepth) (hs : i.Sized) :
    skipItem (i.encode ++ t) = .ok t := by
  have hroom : ([] : List Pending).length + 1 + i.depth ≤ maxDepth := by
    rw [List.length_nil]
    omega
  rw [skipItem, Spelling.encode, i.skipPending_item (.count 1) [] t (Nat.le_refl _) hroom hs,
    Pending.advance, skipPending_count_zero, skipPending]

end EdgeGateway.Cbor
