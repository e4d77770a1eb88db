import EdgeGateway.Proofs.Calls
import EdgeGateway.Session.Router
import Mathlib.Data.List.Induction
import Mathlib.Data.List.Nodup

/-!
# Shards do not show

A sharded table is asked to put, find and remove values, to count them and to list them, and it
answers as one hash map does that holds everything, however many shards it has. What carries this is
that the table and the map find the same (`Represents`): no key stands in two shards, so the entries
of all shards together are those of the map in another order. The router is such a table, and what
it says of a session can be read off the bindings and the releases so far.
-/

namespace EdgeGateway

/-! ### Calls and their answers -/

/-- What can be asked of a table. -/
inductive TableCall (ν : Type) where
  | insert (k : UInt64) (v : ν)
  | get (k : UInt64)
  | remove (k : UInt64)
  /-- Removes a key if its value passes a test. -/
  | removeIf (k : UInt64) (p : ν → Bool)
  | size
  | isEmpty
  | values

/-- What a table answers. -/
inductive TableAnswer (ν : Type) where
  /-- The value that stands or stood under a key. -/
  | found (v : Option ν)
  | counted (n : Nat)
  | told (b : Bool)
  | listed (vs : List ν)
  deriving Repr, DecidableEq

/-- Two answers say the same. Values are listed in no particular order. -/
inductive TableAnswer.Same {ν : Type} : TableAnswer ν → TableAnswer ν → Prop
  | found (v : Option ν) : Same (.found v) (.found v)
  | counted (n : Nat) : Same (.counted n) (.counted n)
  | told (b : Bool) : Same (.told b) (.told b)
  | listed {vs vs' : List ν} : vs.Perm vs' → Same (.listed vs) (.listed vs')

variable {ν : Type}

private theorem TableAnswer.Same.join {a b c : TableAnswer ν} (h : a.Same c) (h' : b.Same c) :
    a.Same b := by
  cases h with
  | listed hp =>
    cases h' with
    | listed hp' => exact .listed (hp.trans hp'.symm)
  | _ =>
    cases h'
    constructor

/-- A sharded table answers a call. A call for one key is a matter of the shard of that key alone.
-/
def ShardedTable.perform (s : ShardedTable ν) : TableCall ν → TableAnswer ν × ShardedTable ν
  | .insert k v => (.found (s.get? k), s.insert k v)
  | .get k => (.found (s.get? k), s)
  | .remove k => (.found (s.get? k), s.erase k)
  | .removeIf k p => (.found ((s.get? k).filter p), s.eraseIf k p)
  | .size => (.counted s.size, s)
  | .isEmpty => (.told s.isEmpty, s)
  | .values => (.listed s.values, s)

/-- A hash map answers a call. -/
def TableCall.performPlain (m : Std.HashMap UInt64 ν) :
    TableCall ν → TableAnswer ν × Std.HashMap UInt64 ν
  | .insert k v => (.found m[k]?, m.insert k v)
  | .get k => (.found m[k]?, m)
  | .remove k => (.found m[k]?, m.erase k)
  | .removeIf k p => (.found (m[k]?.filter p), if m[k]?.any p then m.erase k else m)
  | .size => (.counted m.size, m)
  | .isEmpty => (.told m.isEmpty, m)
  | .values => (.listed (m.toList.map Prod.snd), m)

namespace ShardedTable

/-! ### All shards together -/

/-- The entries of all shards. -/
def entries (s : ShardedTable ν) : List (UInt64 × ν) := s.shards.flatMap Table.entries

variable {s : ShardedTable ν}

private theorem mod_of_mem_entries {i : Nat} (hi : i < s.shards.length) {k : UInt64} {v : ν}
    (h : (k, v) ∈ s.shards[i].entries) : k.toNat % s.shards.length = i :=
  s.placed i hi k (List.mem_map.2 ⟨(k, v), h, rfl⟩)

/-- The entries of all shards are what the table finds. -/
theorem mem_entries_iff {k : UInt64} {v : ν} : (k, v) ∈ s.entries ↔ s.get? k = some v := by
  rw [entries, List.mem_flatMap, get?, ← Table.mem_entries_iff]
  constructor
  · rintro ⟨t, ht, hv⟩
    obtain ⟨i, hi, rfl⟩ := List.mem_iff_getElem.1 ht
    have hp : s.index k = i := mod_of_mem_entries hi hv
    simpa [shard, hp] using hv
  · intro hv
    exact ⟨s.shard k, List.get_mem .., hv⟩

/-- No entry stands in two shards, nor twice in one. -/
theorem nodup_entries (s : ShardedTable ν) : s.entries.Nodup := by
  rw [entries, List.nodup_flatMap]
  refine ⟨fun t _ ↦ t.nodup.of_map, ?_⟩
  rw [List.pairwise_iff_getElem]
  rintro i j hi hj hij ⟨k, v⟩ hk hk'
  exact Nat.ne_of_lt hij ((mod_of_mem_entries hi hk).symm.trans (mod_of_mem_entries hj hk'))

/-- There are as many entries as the shards hold. -/
theorem length_entries (s : ShardedTable ν) : s.entries.length = s.size := by
  rw [entries, List.length_flatMap]
  rfl

/-- There is no entry just when every shard is empty. -/
theorem isEmpty_entries (s : ShardedTable ν) : s.entries.isEmpty = s.isEmpty := by
  rw [Bool.eq_iff_iff, List.isEmpty_iff, isEmpty_iff, List.eq_nil_iff_forall_not_mem]
  simp only [Prod.forall, mem_entries_iff, Option.eq_none_iff_forall_ne_some]

/-- The values are those of the entries. -/
theorem map_snd_entries (s : ShardedTable ν) : s.entries.map Prod.snd = s.values :=
  List.map_flatMap

/-! ### What represents a hash map -/

/-- The table finds what the hash map finds. -/
def Represents (s : ShardedTable ν) (m : Std.HashMap UInt64 ν) : Prop := ∀ k, s.get? k = m[k]?

variable {m : Std.HashMap UInt64 ν}

/-- An empty table represents the empty map. -/
theorem represents_empty (n : Nat) : (empty n : ShardedTable ν).Represents ∅ := by
  intro k
  rw [get?_empty, Std.HashMap.getElem?_empty]

/-- Then the entries of both are the same, in another order. -/
theorem Represents.entries_perm (h : s.Represents m) : s.entries.Perm m.toList := by
  have hm : m.toList.Nodup := by
    refine Std.HashMap.distinct_keys_toList.imp ?_
    rintro e f hne rfl
    simp at hne
  rw [List.perm_ext_iff_of_nodup s.nodup_entries hm]
  rintro ⟨k, v⟩
  rw [mem_entries_iff, Std.HashMap.mem_toList_iff_getElem?_eq_some, h]

/-- To put a value does the same to the table and to the map. -/
theorem Represents.insert (h : s.Represents m) (k : UInt64) (v : ν) :
    (s.insert k v).Represents (m.insert k v) := by
  intro j
  simp only [get?_insert, Std.HashMap.getElem?_insert, h j, beq_iff_eq, eq_comm (a := j)]

/-- To remove a value does the same to the table and to the map. -/
theorem Represents.erase (h : s.Represents m) (k : UInt64) :
    (s.erase k).Represents (m.erase k) := by
  intro j
  simp only [get?_erase, Std.HashMap.getElem?_erase, h j, beq_iff_eq, eq_comm (a := j)]

/-- To remove a value on a condition does the same to the table and to the map. -/
theorem Represents.eraseIf (h : s.Represents m) (k : UInt64) (p : ν → Bool) :
    (s.eraseIf k p).Represents (if m[k]?.any p then m.erase k else m) := by
  rw [ShardedTable.eraseIf, h k]
  split
  · exact h.erase k
  · exact h

/-- A call is answered as the hash map answers it, and afterwards both find the same again. -/
theorem Represents.perform (h : s.Represents m) (c : TableCall ν) :
    (s.perform c).1.Same (c.performPlain m).1 ∧
      (s.perform c).2.Represents (c.performPlain m).2 := by
  have hp := h.entries_perm
  cases c with
  | insert k v =>
    simp only [ShardedTable.perform, TableCall.performPlain, h k]
    exact ⟨.found _, h.insert k v⟩
  | get k =>
    simp only [ShardedTable.perform, TableCall.performPlain, h k]
    exact ⟨.found _, h⟩
  | remove k =>
    simp only [ShardedTable.perform, TableCall.performPlain, h k]
    exact ⟨.found _, h.erase k⟩
  | removeIf k p =>
    simp only [ShardedTable.perform, TableCall.performPlain, h k]
    exact ⟨.found _, h.eraseIf k p⟩
  | size =>
    have hn : s.size = m.size := by
      rw [← s.length_entries, hp.length_eq, Std.HashMap.length_toList]
    simp only [ShardedTable.perform, TableCall.performPlain, hn]
    exact ⟨.counted _, h⟩
  | isEmpty =>
    have he : s.isEmpty = m.isEmpty := by
      rw [← s.isEmpty_entries, hp.isEmpty_eq, Std.HashMap.isEmpty_toList]
    simp only [ShardedTable.perform, TableCall.performPlain, he]
    exact ⟨.told _, h⟩
  | values =>
    have hv : s.values.Perm (m.toList.map Prod.snd) := by
      rw [← map_snd_entries]
      exact hp.map _
    exact ⟨.listed hv, h⟩

end ShardedTable

/-! ### Routes -/

/-- What changes the route of a session. -/
inductive RouteCall where
  | bind (sid cid : UInt64)
  | unbind (sid cid : UInt64)
  deriving Repr, DecidableEq

namespace RouteCall

/-- The last binding of a session was to this connection, and the connection has not given it up
since. -/
def Stands (calls : List RouteCall) (sid cid : UInt64) : Prop :=
  ∃ l r, calls = l ++ .bind sid cid :: r ∧ (∀ c, .bind sid c ∉ r) ∧ .unbind sid cid ∉ r

variable {calls : List RouteCall} {sid cid : UInt64}

private theorem stands_append_singleton (call : RouteCall) :
    Stands (calls ++ [call]) sid cid ↔ call = .bind sid cid ∨
      Stands calls sid cid ∧ (∀ c, call ≠ .bind sid c) ∧ call ≠ .unbind sid cid := by
  constructor
  · rintro ⟨l, r, he, hb, hu⟩
    rcases r.eq_nil_or_concat with rfl | ⟨r, x, rfl⟩
    · exact .inl (List.head_eq_of_cons_eq (List.append_inj' he rfl).2)
    · rw [List.concat_eq_append] at he hb hu
      rw [← List.cons_append, ← List.append_assoc] at he
      obtain ⟨rfl, hx⟩ := List.append_inj' he rfl
      cases hx
      simp only [List.mem_append, List.mem_singleton, not_or] at hb hu
      exact .inr
        ⟨⟨l, r, rfl, fun c ↦ (hb c).1, hu.1⟩, fun c ↦ Ne.symm (hb c).2, Ne.symm hu.2⟩
  · rintro (rfl | ⟨⟨l, r, rfl, hb, hu⟩, hb', hu'⟩)
    · exact ⟨calls, [], rfl, fun _ ↦ List.not_mem_nil, List.not_mem_nil⟩
    · refine ⟨l, r ++ [call], by rw [List.append_assoc, List.cons_append], fun c ↦ ?_, ?_⟩
      · simpa using ⟨hb c, Ne.symm (hb' c)⟩
      · simpa using ⟨hu, Ne.symm hu'⟩

end RouteCall

namespace Router

/-- What a call leaves. -/
def act (r : Router) : RouteCall → Router
  | .bind sid cid => (r.bind sid cid).2
  | .unbind sid cid => (r.unbind sid cid).2

/-- The routes are what the bindings and the releases so far say, and so is every answer to the next
one. -/
structure Follows (r : Router) (calls : List RouteCall) : Prop where
  lookup_iff (sid cid : UInt64) : r.lookup sid = some cid ↔ RouteCall.Stands calls sid cid
  /-- A binding tells which connection it displaces. -/
  displaces_iff (sid cid old : UInt64) :
    (r.bind sid cid).1 = some old ↔ RouteCall.Stands calls sid old
  lookup_bind (sid cid s : UInt64) :
    (r.bind sid cid).2.lookup s = if s = sid then some cid else r.lookup s
  /-- A release tells whether the session was still bound to this connection. -/
  releases_iff (sid cid : UInt64) : (r.unbind sid cid).1 = true ↔ RouteCall.Stands calls sid cid
  lookup_unbind (sid cid s : UInt64) : (r.unbind sid cid).2.lookup s =
    if s = sid ∧ r.lookup sid = some cid then none else r.lookup s

private theorem lookup_act {r : Router} {calls : List RouteCall}
    (h : ∀ sid cid, r.lookup sid = some cid ↔ RouteCall.Stands calls sid cid) (call : RouteCall)
    (sid cid : UInt64) :
    (r.act call).lookup sid = some cid ↔ RouteCall.Stands (calls ++ [call]) sid cid := by
  rw [RouteCall.stands_append_singleton, ← h]
  cases call with
  | bind s c =>
    rw [act, lookup_bind]
    by_cases hs : sid = s
    · simp [hs]
    · simp [hs, Ne.symm hs]
  | unbind s c =>
    rw [act, lookup_unbind]
    by_cases hs : sid = s
    · subst hs
      by_cases hl : r.lookup sid = some c
      · simp [hl]
      · simp only [hl]
        grind
    · simp [hs, Ne.symm hs]

private theorem lookup_iff_stands (n : Nat) (calls : List RouteCall) (sid cid : UInt64) :
    (calls.foldl act (empty n)).lookup sid = some cid ↔ RouteCall.Stands calls sid cid := by
  induction calls using List.reverseRecOn generalizing sid cid with
  | nil =>
    rw [List.foldl_nil, lookup_empty]
    constructor
    · rintro ⟨⟩
    · rintro ⟨l, r, he, -⟩
      simp at he
  | append_singleton calls call ih =>
    rw [List.foldl_append, List.foldl_cons, List.foldl_nil]
    exact lookup_act ih call sid cid

private theorem follows (n : Nat) (calls : List RouteCall) :
    (calls.foldl act (empty n)).Follows calls where
  lookup_iff := lookup_iff_stands n calls
  displaces_iff sid _ old := lookup_iff_stands n calls sid old
  lookup_bind := Router.lookup_bind _
  releases_iff sid cid := (unbind_fst _ sid cid).trans (lookup_iff_stands n calls sid cid)
  lookup_unbind := Router.lookup_unbind _

end Router

/-- Whatever is asked of a sharded table one thing after the other, beginning with an empty one, it
answers everything as one hash map does, so the number of its shards cannot be told from the
answers. In particular a session is routed to the connection to which it was bound last, unless that
connection has given it up, and each session for itself. -/
theorem sharding_invisible (n : Nat) :
    (∀ {ν : Type} (calls : List (TableCall ν)),
      List.Forall₂ TableAnswer.Same
          (Calls.answers ShardedTable.perform (.empty n) calls).1
          (Calls.answers TableCall.performPlain ∅ calls).1 ∧
        (Calls.answers ShardedTable.perform (.empty n) calls).2.Represents
          (Calls.answers TableCall.performPlain ∅ calls).2) ∧
    (∀ {ν : Type} (n' : Nat) (calls : List (TableCall ν)),
      List.Forall₂ TableAnswer.Same
        (Calls.answers ShardedTable.perform (.empty n) calls).1
        (Calls.answers ShardedTable.perform (.empty n') calls).1) ∧
    ∀ calls : List RouteCall, (calls.foldl Router.act (.empty n)).Follows calls := by
  refine ⟨?_, ?_, Router.follows n⟩
  · intro ν calls
    exact Calls.forall₂_answers (ShardedTable.represents_empty n)
      (fun _ _ c h ↦ h.perform c) calls
  · intro ν n' calls
    -- Both tables represent one and the same hash map all the time.
    refine (Calls.forall₂_answers (R := fun s t ↦ ∃ m, s.Represents m ∧ t.Represents m)
      ⟨∅, ShardedTable.represents_empty n, ShardedTable.represents_empty n'⟩ ?_ calls).1
    rintro s t c ⟨m, hs, ht⟩
    obtain ⟨ha, hs⟩ := hs.perform c
    obtain ⟨ha', ht⟩ := ht.perform c
    exact ⟨ha.join ha', _, hs, ht⟩

end EdgeGateway
