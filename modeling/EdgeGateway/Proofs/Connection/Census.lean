import EdgeGateway.Proofs.Connection.Registry

/-!
# Counting connections

The number of registered connections is the sum over the shards. Whoever counts takes one shard
after the other, and meanwhile connections may be deregistered by others, but none is registered.
`Tally` is such a count; by `Tally.bounds` it comes to no less than there are at its end.
-/

namespace EdgeGateway

/-! ### Sizes -/

private theorem sum_set {l : List Nat} {i : Nat} (h : i < l.length) (x : Nat) :
    (l.set i x).foldr (· + ·) 0 + l[i] = l.foldr (· + ·) 0 + x := by
  induction l generalizing i with
  | nil => cases h
  | cons a l ih =>
    cases i with
    | zero =>
      simp only [List.set_cons_zero, List.foldr_cons, List.getElem_cons_zero]
      omega
    | succ i =>
      have := ih (Nat.lt_of_succ_lt_succ h)
      simp only [List.set_cons_succ, List.foldr_cons, List.getElem_cons_succ]
      omega

/-- What is left of a table when a key has been removed is no more than there was. -/
theorem Table.size_erase_le {κ ν : Type} [DecidableEq κ] (t : Table κ ν) (k : κ) :
    (t.erase k).size ≤ t.size := List.length_filter_le ..

namespace ShardedTable

variable {ν : Type}

/-- The number of keys in some shards. -/
def count (shards : List (Table UInt64 ν)) : Nat := (shards.map Table.size).foldr (· + ·) 0

/-- The count of shards is that of the first and that of the others. -/
theorem count_cons (t : Table UInt64 ν) (l : List (Table UInt64 ν)) :
    count (t :: l) = t.size + count l := rfl

private theorem count_append (l m : List (Table UInt64 ν)) :
    count (l ++ m) = count l + count m := by
  induction l with
  | nil => exact (Nat.zero_add _).symm
  | cons t l ih => rw [List.cons_append, count_cons, count_cons, ih, Nat.add_assoc]

private theorem count_set {l : List (Table UInt64 ν)} {i : Nat} (h : i < l.length)
    (t : Table UInt64 ν) : count (l.set i t) + l[i].size = count l + t.size := by
  have hs := sum_set (l := l.map Table.size) (by rwa [List.length_map]) t.size
  rwa [← List.map_set, List.getElem_map] at hs

private theorem count_set_le {l : List (Table UInt64 ν)} {i : Nat} {t : Table UInt64 ν}
    (ht : ∀ h : i < l.length, t.size ≤ l[i].size) : count (l.set i t) ≤ count l := by
  by_cases h : i < l.length
  · have := count_set h t
    have := ht h
    omega
  · exact Nat.le_of_eq (congrArg count (List.set_eq_of_length_le (Nat.le_of_not_lt h)))

/-- There is nothing in an empty table. -/
theorem size_empty (n : Nat) : (empty n : ShardedTable ν).size = 0 := by
  show count (List.replicate (max n 1) .empty) = 0
  induction max n 1 with
  | zero => rfl
  | succ n ih =>
    rw [List.replicate_succ, count_cons, ih]
    rfl

/-- A key that is put into a table is one more, unless it has been there. -/
theorem size_insert (s : ShardedTable ν) (k : UInt64) (v : ν) :
    (s.insert k v).size = if s.contains k then s.size else s.size + 1 := by
  have hr : (s.insert k v).size + (s.shard k).size = s.size + ((s.shard k).insert k v).size :=
    count_set (s.index_lt k) _
  rw [Table.size_insert, show (s.shard k).contains k = s.contains k from rfl] at hr
  split at hr
  · next hc =>
    rw [if_pos hc]
    omega
  · next hc =>
    rw [if_neg hc]
    omega

end ShardedTable

namespace Connections

variable {t u : Connections} {i n : Nat}

private theorem size_eq (t : Connections) : t.size = ShardedTable.count t.live.shards := rfl

private theorem exists_shards_deregister (t : Connections) (cid : UInt64) :
    ∃ k x, (t.deregister cid).live.shards = t.live.shards.set k x ∧
      ∀ h : k < t.live.shards.length, x.size ≤ t.live.shards[k].size :=
  ⟨_, _, rfl, fun _ ↦ Table.size_erase_le ..⟩

/-- Deregistering makes no connections. -/
theorem size_deregister_le (t : Connections) (cid : UInt64) :
    (t.deregister cid).size ≤ t.size := by
  obtain ⟨k, x, hs, hx⟩ := t.exists_shards_deregister cid
  rw [size_eq, size_eq, hs]
  exact ShardedTable.count_set_le hx

/-- Registering makes one connection at most. -/
theorem size_register_le (t : Connections) (cid : UInt64) :
    (t.register cid).size ≤ t.size + 1 := by
  have h := t.live.size_insert cid cid
  rw [size, register, h]
  split
  · exact Nat.le_succ _
  · exact Nat.le_refl _

/-! ### Counts while others are at work -/

/-- Registered connections are counted one shard after the other, while others may deregister some:
how many shards have been counted, what the count has come to, and the connections by then. -/
inductive Tally (t : Connections) : Nat → Nat → Connections → Prop
  | start : Tally t 0 0 t
  | count {i n : Nat} {u : Connections} (hi : i < u.live.shards.length) :
    Tally t i n u → Tally t (i + 1) (n + u.live.shards[i].size) u
  | deregister {i n : Nat} {u : Connections} (cid : UInt64) :
    Tally t i n u → Tally t i n (u.deregister cid)

private theorem Tally.bounds_of_part (h : t.Tally i n u) :
    ShardedTable.count (u.live.shards.take i) ≤ n ∧
      n + ShardedTable.count (u.live.shards.drop i) ≤ t.size := by
  induction h with
  | start => exact ⟨Nat.le_refl 0, by simp [size_eq]⟩
  | @count i n u hi _ ih =>
    have hlast : ShardedTable.count (u.live.shards.take (i + 1)) =
        ShardedTable.count (u.live.shards.take i) + u.live.shards[i].size := by
      rw [List.take_succ_eq_append_getElem hi, ShardedTable.count_append]
      rfl
    rw [List.drop_eq_getElem_cons hi, ShardedTable.count_cons] at ih
    omega
  | @deregister i n u cid _ ih =>
    obtain ⟨k, x, hs, hx⟩ := u.exists_shards_deregister cid
    have htake : ShardedTable.count ((u.live.shards.set k x).take i) ≤
        ShardedTable.count (u.live.shards.take i) := by
      rw [List.take_set]
      refine ShardedTable.count_set_le fun hk ↦ ?_
      rw [List.length_take] at hk
      rw [List.getElem_take]
      exact hx (by omega)
    have hdrop : ShardedTable.count ((u.live.shards.set k x).drop i) ≤
        ShardedTable.count (u.live.shards.drop i) := by
      rw [List.drop_set]
      split
      · exact Nat.le_refl _
      · next hki =>
        refine ShardedTable.count_set_le fun hk ↦ ?_
        rw [List.length_drop] at hk
        rw [List.getElem_drop]
        simp only [Nat.add_sub_cancel' (Nat.le_of_not_lt hki)]
        exact hx (by omega)
    rw [hs]
    omega

/-- A count comes to no less than there are at its end, and to no more than there were at first. -/
theorem Tally.bounds (h : t.Tally u.live.shards.length n u) : u.size ≤ n ∧ n ≤ t.size := by
  obtain ⟨hlow, hhigh⟩ := h.bounds_of_part
  rw [List.take_length] at hlow
  exact ⟨hlow, Nat.le_of_add_right_le hhigh⟩

end Connections

end EdgeGateway
