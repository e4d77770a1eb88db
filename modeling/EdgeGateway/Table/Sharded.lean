import EdgeGateway.Table.Basic

/-!
# Sharded tables

A table whose keys are 64-bit numbers, cut into shards: a key lives in the shard whose number is its
remainder, so that work on different keys rarely meets. Seen through `get?` the shards are
invisible: `get?_insert`, `get?_erase` and `get?_eraseIf` are those of one plain table, and
`mem_values_iff` says the same of `values`.
-/

namespace EdgeGateway

/-- A table in shards, each key in the shard of its remainder. -/
structure ShardedTable (ν : Type) where
  shards : List (Table UInt64 ν)
  ne_nil : 0 < shards.length
  placed : ∀ (i : Nat) (h : i < shards.length) (k : UInt64),
    k ∈ shards[i].keys → k.toNat % shards.length = i

namespace ShardedTable

variable {ν : Type}

/-- An empty table with the given number of shards, at least one. -/
def empty (count : Nat) : ShardedTable ν where
  shards := List.replicate (max count 1) .empty
  ne_nil := by
    rw [List.length_replicate]
    omega
  placed := by simp [Table.keys, Table.empty]

/-- The number of the shard in which a key lives. -/
def index (s : ShardedTable ν) (k : UInt64) : Nat := k.toNat % s.shards.length

/-- Every key has a shard. -/
theorem index_lt (s : ShardedTable ν) (k : UInt64) : s.index k < s.shards.length :=
  Nat.mod_lt _ s.ne_nil

/-- The shard in which a key lives. -/
def shard (s : ShardedTable ν) (k : UInt64) : Table UInt64 ν :=
  s.shards.get ⟨s.index k, s.index_lt k⟩

/-- Replaces the shard in which `k` lives by a table without new keys other than `k`. -/
def replace (s : ShardedTable ν) (k : UInt64) (t : Table UInt64 ν)
    (h : ∀ j ∈ t.keys, j = k ∨ j ∈ (s.shard k).keys) : ShardedTable ν where
  shards := s.shards.set (s.index k) t
  ne_nil := by simpa using s.ne_nil
  placed := by
    intro i hi j hj
    simp only [List.length_set] at hi ⊢
    by_cases hk : s.index k = i
    · subst hk
      rw [List.getElem_set_self] at hj
      rcases h j hj with rfl | hj
      · rfl
      · exact s.placed _ (s.index_lt k) j hj
    · rw [List.getElem_set_ne hk] at hj
      exact s.placed i hi j hj

/-- What stands under a key, in the shard of that key. -/
def get? (s : ShardedTable ν) (k : UInt64) : Option ν := (s.shard k).get? k

/-- Does something stand under the key? -/
def contains (s : ShardedTable ν) (k : UInt64) : Bool := (s.get? k).isSome

private theorem mem_keys_insert {t : Table UInt64 ν} {k j : UInt64} {v : ν}
    (h : j ∈ (t.insert k v).keys) : j = k ∨ j ∈ t.keys := by
  rw [Table.mem_keys_iff, Table.get?_insert] at h
  by_cases hj : j = k
  · exact .inl hj
  · exact .inr (Table.mem_keys_iff.2 (by simpa [hj] using h))

private theorem mem_keys_erase {t : Table UInt64 ν} {k j : UInt64}
    (h : j ∈ (t.erase k).keys) : j ∈ t.keys := by
  rw [Table.mem_keys_iff, Table.get?_erase] at h
  by_cases hj : j = k
  · simp [hj] at h
  · exact Table.mem_keys_iff.2 (by simpa [hj] using h)

/-- Puts a value under a key. -/
def insert (s : ShardedTable ν) (k : UInt64) (v : ν) : ShardedTable ν :=
  s.replace k ((s.shard k).insert k v) fun _ ↦ mem_keys_insert

/-- Removes a key. -/
def erase (s : ShardedTable ν) (k : UInt64) : ShardedTable ν :=
  s.replace k ((s.shard k).erase k) fun _ h ↦ .inr (mem_keys_erase h)

/-- Removes a key if its value passes a test. -/
def eraseIf (s : ShardedTable ν) (k : UInt64) (p : ν → Bool) : ShardedTable ν :=
  if (s.get? k).any p then s.erase k else s

/-- The number of keys. -/
def size (s : ShardedTable ν) : Nat := (s.shards.map Table.size).foldr (· + ·) 0

/-- Are all shards empty? -/
def isEmpty (s : ShardedTable ν) : Bool := s.shards.all Table.isEmpty

/-- All values, shard by shard. -/
def values (s : ShardedTable ν) : List ν := s.shards.flatMap Table.values

private theorem shard_replace (s : ShardedTable ν) (k j : UInt64) (t : Table UInt64 ν)
    (h : ∀ i ∈ t.keys, i = k ∨ i ∈ (s.shard k).keys) :
    (s.replace k t h).shard j = if s.index j = s.index k then t else s.shard j := by
  have hl : (s.replace k t h).shards.length = s.shards.length := by simp [replace]
  have hi : (s.replace k t h).index j = s.index j := by simp [index, hl]
  simp only [shard, List.get_eq_getElem, hi]
  simp only [replace, List.getElem_set, eq_comm (a := s.index k)]

/-- Nothing stands in an empty table with shards. -/
@[simp] theorem get?_empty (n : Nat) (k : UInt64) : (empty n : ShardedTable ν).get? k = none := by
  simp [get?, shard, empty]

/-- After an insertion the value stands under its key, and all else as before, in whatever shard. -/
theorem get?_insert (s : ShardedTable ν) (k j : UInt64) (v : ν) :
    (s.insert k v).get? j = if j = k then some v else s.get? j := by
  unfold get? insert
  rw [shard_replace]
  split
  · next h =>
    rw [Table.get?_insert]
    have : s.shard k = s.shard j := by simp [shard, h]
    rw [this]
  · next h => rw [if_neg fun e ↦ h (by rw [e])]

/-- What was inserted stands under its key in its shard. -/
@[simp] theorem get?_insert_self (s : ShardedTable ν) (k : UInt64) (v : ν) :
    (s.insert k v).get? k = some v := by simp [get?_insert]

/-- After a removal nothing stands under the key, and all else as before, in whatever shard. -/
theorem get?_erase (s : ShardedTable ν) (k j : UInt64) :
    (s.erase k).get? j = if j = k then none else s.get? j := by
  unfold get? erase
  rw [shard_replace]
  split
  · next h =>
    rw [Table.get?_erase]
    have : s.shard k = s.shard j := by simp [shard, h]
    rw [this]
  · next h => rw [if_neg fun e ↦ h (by rw [e])]

/-- Nothing stands under a key that was removed from its shard. -/
@[simp] theorem get?_erase_self (s : ShardedTable ν) (k : UInt64) :
    (s.erase k).get? k = none := by simp [get?_erase]

/-- A removal on a condition removes a value that satisfies it and nothing else. -/
theorem get?_eraseIf (s : ShardedTable ν) (k j : UInt64) (p : ν → Bool) :
    (s.eraseIf k p).get? j = if j = k ∧ (s.get? k).any p then none else s.get? j := by
  unfold eraseIf
  split
  · next h => simp [get?_erase, h]
  · next h => simp [h]

/-- The values are what stands under some key in its shard. -/
theorem mem_values_iff {s : ShardedTable ν} {v : ν} :
    v ∈ s.values ↔ ∃ k, s.get? k = some v := by
  simp only [values, List.mem_flatMap]
  constructor
  · rintro ⟨t, ht, hv⟩
    obtain ⟨k, hk⟩ := Table.mem_values_iff.1 hv
    obtain ⟨i, hi, rfl⟩ := List.mem_iff_getElem.1 ht
    have hp : k.toNat % s.shards.length = i :=
      s.placed i hi k (Table.mem_keys_iff.2 (by simp [hk]))
    exact ⟨k, by simpa [get?, shard, index, hp] using hk⟩
  · rintro ⟨k, hk⟩
    exact ⟨s.shard k, by simp [shard], Table.mem_values_iff.2 ⟨k, hk⟩⟩

/-- A table is empty just when nothing stands under any key of any shard. -/
theorem isEmpty_iff {s : ShardedTable ν} : s.isEmpty = true ↔ ∀ k, s.get? k = none := by
  simp only [isEmpty, List.all_eq_true]
  constructor
  · intro h k
    exact Table.isEmpty_iff.1 (h (s.shard k) (by simp [shard])) k
  · intro h t ht
    rw [Table.isEmpty_iff]
    intro k
    obtain ⟨i, hi, rfl⟩ := List.mem_iff_getElem.1 ht
    cases hk : s.shards[i].get? k with
    | none => rfl
    | some v =>
      have hp : k.toNat % s.shards.length = i :=
        s.placed i hi k (Table.mem_keys_iff.2 (by simp [hk]))
      have := h k
      simp [get?, shard, index, hp, hk] at this

end ShardedTable

end EdgeGateway
