/-!
# Tables

A table maps finitely many keys to values. Its entries stand in the order in which their keys were
first inserted, so whatever walks through a table does so in a fixed order. All that matters of a
table otherwise is `get?`.

Main statements: `get?_insert`, `get?_erase` and `get?_modify` say what each operation does to
`get?`, and `mem_entries_iff` that the entries are what `get?` finds.
-/

namespace EdgeGateway

/-- Finitely many keys with their values. -/
structure Table (κ ν : Type) where
  entries : List (κ × ν)
  nodup : (entries.map Prod.fst).Nodup
  deriving Repr, DecidableEq

namespace Table

variable {κ ν : Type}

/-- The table without entries. -/
def empty : Table κ ν := ⟨[], List.nodup_nil⟩

/-- The table without entries. -/
instance : EmptyCollection (Table κ ν) := ⟨empty⟩

/-- There is a table, if only the empty one. -/
instance : Inhabited (Table κ ν) := ⟨empty⟩

/-- The keys, in the order of the entries. -/
def keys (t : Table κ ν) : List κ := t.entries.map Prod.fst

/-- The values, in the order of the entries. -/
def values (t : Table κ ν) : List ν := t.entries.map Prod.snd

/-- The number of entries. -/
def size (t : Table κ ν) : Nat := t.entries.length

/-- Are there no entries? -/
def isEmpty (t : Table κ ν) : Bool := t.entries.isEmpty

/-- Changes every value. -/
def map {μ : Type} (f : ν → μ) (t : Table κ ν) : Table κ μ :=
  ⟨t.entries.map fun e ↦ (e.1, f e.2), by simpa [Function.comp_def] using t.nodup⟩

variable [DecidableEq κ]

/-- The value under a key. -/
def get? (t : Table κ ν) (k : κ) : Option ν := t.entries.lookup k

/-- Does something stand under the key? -/
def contains (t : Table κ ν) (k : κ) : Bool := (t.get? k).isSome

-- Replaces the value of every entry with key `k`.
private def overwrite (k : κ) (v : ν) (e : κ × ν) : κ × ν := if e.1 = k then (k, v) else e

private theorem fst_overwrite (k : κ) (v : ν) (e : κ × ν) : (overwrite k v e).1 = e.1 := by
  unfold overwrite
  split <;> simp_all

private theorem lookup_eq_none_iff (l : List (κ × ν)) (k : κ) :
    l.lookup k = none ↔ k ∉ l.map Prod.fst := by
  induction l with
  | nil => simp
  | cons e l ih =>
    obtain ⟨j, v⟩ := e
    by_cases h : k = j
    · simp [h]
    · have : (k == j) = false := by simp [h]
      simp [List.lookup_cons, this, ih, h]

/-- Puts a value under a key. A key that is present keeps its place, a new one goes to the end. -/
def insert (t : Table κ ν) (k : κ) (v : ν) : Table κ ν :=
  if h : t.get? k = none then
    ⟨t.entries ++ [(k, v)], by
      have hk : k ∉ t.entries.map Prod.fst := (lookup_eq_none_iff _ _).1 h
      simp only [List.map_append, List.map_cons, List.map_nil]
      refine List.nodup_append.2 ⟨t.nodup, by simp, ?_⟩
      intro a ha b hb
      simp only [List.mem_singleton] at hb
      subst hb
      rintro rfl
      exact hk ha⟩
  else
    ⟨t.entries.map (overwrite k v), by
      simpa [Function.comp_def, fst_overwrite] using t.nodup⟩

/-- Removes a key. -/
def erase (t : Table κ ν) (k : κ) : Table κ ν :=
  ⟨t.entries.filter fun e ↦ decide (e.1 ≠ k),
    t.nodup.sublist (List.filter_sublist.map Prod.fst)⟩

/-- Changes the value under a key, if there is one. -/
def modify (t : Table κ ν) (k : κ) (f : ν → ν) : Table κ ν :=
  match t.get? k with
  | some v => t.insert k (f v)
  | none => t

/-- Nothing stands under a key just when it is none of the keys. -/
theorem get?_eq_none_iff {t : Table κ ν} {k : κ} : t.get? k = none ↔ k ∉ t.keys :=
  lookup_eq_none_iff _ _

/-- Nothing stands in an empty table. -/
@[simp] theorem get?_empty (k : κ) : (empty : Table κ ν).get? k = none := rfl

private theorem lookup_append_singleton (l : List (κ × ν)) (k j : κ) (v : ν)
    (h : l.lookup k = none) :
    (l ++ [(k, v)]).lookup j = if j = k then some v else l.lookup j := by
  induction l with
  | nil =>
    by_cases hj : j = k
    · simp [hj]
    · have hjk : (j == k) = false := by simp [hj]
      simp [List.lookup_cons, hj, hjk]
  | cons e l ih =>
    obtain ⟨i, w⟩ := e
    by_cases hi : k = i
    · simp [hi] at h
    · have hki : (k == i) = false := by simp [hi]
      rw [List.lookup_cons, hki] at h
      have ih := ih h
      by_cases hj : j = i
      · have hjk : j ≠ k := fun e ↦ hi (e.symm.trans hj)
        subst hj
        simp [hjk]
      · have hji : (j == i) = false := by simp [hj]
        simp [List.lookup_cons, hji, ih]

private theorem lookup_map_overwrite (l : List (κ × ν)) (k j : κ) (v : ν)
    (h : l.lookup k ≠ none) :
    (l.map (overwrite k v)).lookup j = if j = k then some v else l.lookup j := by
  have other : ∀ l : List (κ × ν), j ≠ k →
    (l.map (overwrite k v)).lookup j = l.lookup j := by
    intro l hj
    induction l with
    | nil => rfl
    | cons e l ih =>
      obtain ⟨i, w⟩ := e
      by_cases hi : i = k
      · subst hi
        have : (j == i) = false := by simp [hj]
        simp [overwrite, List.lookup_cons, this, ih]
      · simp [overwrite, hi, List.lookup_cons, ih]
  by_cases hj : j = k
  · subst hj
    induction l with
    | nil => simp at h
    | cons e l ih =>
      obtain ⟨i, w⟩ := e
      by_cases hi : i = j
      · simp [overwrite, hi]
      · have hji : (j == i) = false := by simp [Ne.symm hi]
        rw [List.lookup_cons, hji] at h
        simp [overwrite, hi, List.lookup_cons, hji, ih h]
  · simp [hj, other l hj]

/-- After an insertion the value stands under its key, and all else as before. -/
theorem get?_insert (t : Table κ ν) (k j : κ) (v : ν) :
    (t.insert k v).get? j = if j = k then some v else t.get? j := by
  unfold insert
  split
  · next h => exact lookup_append_singleton _ _ _ _ h
  · next h => exact lookup_map_overwrite _ _ _ _ h

/-- What was inserted stands under its key. -/
@[simp] theorem get?_insert_self (t : Table κ ν) (k : κ) (v : ν) :
    (t.insert k v).get? k = some v := by simp [get?_insert]

/-- An insertion does not matter under another key. -/
theorem get?_insert_of_ne (t : Table κ ν) {k j : κ} (v : ν) (h : j ≠ k) :
    (t.insert k v).get? j = t.get? j := by simp [get?_insert, h]

/-- After a removal nothing stands under the key, and all else as before. -/
theorem get?_erase (t : Table κ ν) (k j : κ) :
    (t.erase k).get? j = if j = k then none else t.get? j := by
  simp only [get?, erase]
  generalize t.entries = l
  induction l with
  | nil => simp
  | cons e l ih =>
    obtain ⟨i, w⟩ := e
    by_cases hi : i = k
    · rw [List.filter_cons_of_neg (by simp [hi]), ih]
      by_cases hj : j = k
      · simp [hj]
      · have hji : (j == i) = false := by simp [hi, hj]
        simp [hj, List.lookup_cons, hji]
    · rw [List.filter_cons_of_pos (by simp [hi]), List.lookup_cons, ih]
      by_cases hj : j = i
      · subst hj
        simp [hi]
      · have hji : (j == i) = false := by simp [hj]
        simp [List.lookup_cons, hji]

/-- Nothing stands under a key that was removed. -/
@[simp] theorem get?_erase_self (t : Table κ ν) (k : κ) : (t.erase k).get? k = none := by
  simp [get?_erase]

/-- A removal does not matter under another key. -/
theorem get?_erase_of_ne (t : Table κ ν) {k j : κ} (h : j ≠ k) :
    (t.erase k).get? j = t.get? j := by simp [get?_erase, h]

/-- A change under one key leaves all others alone. -/
theorem get?_modify (t : Table κ ν) (k j : κ) (f : ν → ν) :
    (t.modify k f).get? j = if j = k then (t.get? k).map f else t.get? j := by
  unfold modify
  split
  · next v h => by_cases hj : j = k <;> simp [get?_insert, hj, h]
  · next h => by_cases hj : j = k <;> simp [hj, h]

/-- The entries of a table are what it finds. -/
theorem mem_entries_iff {t : Table κ ν} {k : κ} {v : ν} :
    (k, v) ∈ t.entries ↔ t.get? k = some v := by
  obtain ⟨l, hl⟩ := t
  simp only [get?]
  induction l with
  | nil => simp
  | cons e l ih =>
    obtain ⟨i, w⟩ := e
    simp only [List.map_cons, List.nodup_cons] at hl
    have ih := ih hl.2
    by_cases hi : k = i
    · subst hi
      constructor
      · intro hm
        rcases List.mem_cons.1 hm with h | h
        · simp_all
        · exact absurd (List.mem_map.2 ⟨_, h, rfl⟩) hl.1
      · intro h
        simp at h
        simp [h]
    · have hki : (k == i) = false := by simp [hi]
      simp [List.lookup_cons, hki, hi, ← ih]

/-- The keys are those under which something stands. -/
theorem mem_keys_iff {t : Table κ ν} {k : κ} : k ∈ t.keys ↔ (t.get? k).isSome := by
  rw [← Decidable.not_iff_not, ← get?_eq_none_iff]
  simp

/-- The values are what stands under some key. -/
theorem mem_values_iff {t : Table κ ν} {v : ν} :
    v ∈ t.values ↔ ∃ k, t.get? k = some v := by
  simp only [values, List.mem_map, Prod.exists, exists_eq_right]
  exact ⟨fun ⟨k, h⟩ ↦ ⟨k, mem_entries_iff.1 h⟩,
    fun ⟨k, h⟩ ↦ ⟨k, mem_entries_iff.2 h⟩⟩

/-- A table is empty just when nothing stands under any key. -/
theorem isEmpty_iff {t : Table κ ν} : t.isEmpty = true ↔ ∀ k, t.get? k = none := by
  obtain ⟨l, hl⟩ := t
  cases l with
  | nil => simp [isEmpty, get?]
  | cons e l =>
    simp only [isEmpty, List.isEmpty_cons, Bool.false_eq_true, get?, false_iff]
    intro h
    have := h e.1
    simp at this

private theorem entries_eq (t : Table κ ν) :
    t.entries.map some = t.keys.map fun k ↦ (t.get? k).map fun v ↦ (k, v) := by
  rw [keys, List.map_map]
  apply List.map_congr_left
  intro e he
  simp only [Function.comp_apply, mem_entries_iff.1 he, Option.map_some]

/-- Two tables are the same if their keys stand in the same order and find the same. -/
theorem eq_of_get? {t u : Table κ ν} (hk : t.keys = u.keys)
    (h : ∀ k, t.get? k = u.get? k) : t = u := by
  have he : t.entries.map some = u.entries.map some := by
    rw [entries_eq, entries_eq, hk, funext h]
  have he : t.entries = u.entries := (List.map_inj_right fun _ _ ↦ Option.some.inj).1 he
  cases t
  cases u
  cases he
  rfl

/-- A key that is present keeps its place. -/
theorem keys_insert_of_contains {t : Table κ ν} {k : κ} (hk : t.contains k) (v : ν) :
    (t.insert k v).keys = t.keys := by
  rw [contains, Option.isSome_iff_ne_none] at hk
  simp [insert, hk, keys, Function.comp_def, fst_overwrite]

/-- Every key keeps its place when a value changes. -/
theorem keys_modify (t : Table κ ν) (k : κ) (f : ν → ν) : (t.modify k f).keys = t.keys := by
  unfold modify
  split
  · next h => exact keys_insert_of_contains (by rw [contains, h]; rfl) _
  · rfl

/-- A table that has a value already stays as it is when the value is put into it again. -/
theorem insert_of_get?_eq_some {t : Table κ ν} {k : κ} {v : ν} (h : t.get? k = some v) :
    t.insert k v = t := by
  apply eq_of_get? (keys_insert_of_contains (by rw [contains, h]; rfl) v)
  intro j
  rw [get?_insert]
  split
  · next hj => rw [hj, h]
  · rfl

/-- A table stays as it is when a key is removed that it does not have. -/
theorem erase_of_get?_eq_none {t : Table κ ν} {k : κ} (h : t.get? k = none) : t.erase k = t := by
  have hf : t.entries.filter (fun e ↦ decide (e.1 ≠ k)) = t.entries := by
    apply List.filter_eq_self.2
    rintro ⟨j, v⟩ he
    apply decide_eq_true
    rintro rfl
    cases h.symm.trans (mem_entries_iff.1 he)
  simp only [erase, hf]

/-- An insertion under a new key makes the table larger by one. -/
theorem size_insert (t : Table κ ν) (k : κ) (v : ν) :
    (t.insert k v).size = if t.contains k then t.size else t.size + 1 := by
  unfold insert size contains
  split
  · next h => simp [h]
  · next h => simp [Option.isSome_iff_ne_none, h]

end Table

end EdgeGateway
