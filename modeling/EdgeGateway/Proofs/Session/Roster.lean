import EdgeGateway.Session.Rooms
import Mathlib.Data.List.Dedup

/-!
# A plain roster

What there is to know about rooms is who is in which group of which room, and which connection
carries a session that is in any. A roster keeps just these two tables. It has no record of the
rooms a session is in and none of the rooms there are, so whatever is asked about these goes through
all memberships.
-/

namespace EdgeGateway

namespace Table

variable {κ ν : Type}

/-- The entries whose keys satisfy a condition. -/
def retain (t : Table κ ν) (p : κ → Bool) : Table κ ν :=
  ⟨t.entries.filter (p ·.1), t.nodup.sublist (List.filter_sublist.map Prod.fst)⟩

/-- Under a key that is retained stands what stood there, and under others nothing. -/
theorem get?_retain [DecidableEq κ] (t : Table κ ν) (p : κ → Bool) (k : κ) :
    (t.retain p).get? k = if p k then t.get? k else none := by
  refine Option.ext fun v ↦ ?_
  rw [← mem_entries_iff]
  by_cases hk : p k <;> simp [retain, mem_entries_iff, hk]

/-- No entry is there twice. -/
theorem nodup_entries (t : Table κ ν) : t.entries.Nodup := t.nodup.of_map

end Table

/-- Who is in which room, and who is carried by which connection. -/
structure Roster where
  /-- The group of a session in a room. -/
  groups : Table (UInt64 × UInt64) UInt32
  /-- The connection last recorded for a session since it is in a room. -/
  carriers : Table UInt64 UInt64

namespace Roster

/-- Nobody is in a room. -/
def empty : Roster := ⟨.empty, .empty⟩

/-- The rooms a session is in. -/
def roomsOf (r : Roster) (sid : UInt64) : List UInt64 :=
  (r.groups.keys.filter (·.2 = sid)).map Prod.fst

/-- The sessions in a room with their groups. -/
def row (r : Roster) (rid : UInt64) : List (UInt64 × UInt32) :=
  (r.groups.entries.filter (·.1.1 = rid)).map fun e ↦ (e.1.2, e.2)

/-- The connection that carries a session, which has to be in a room. -/
def carrier (r : Roster) (sid : UInt64) : UInt64 := (r.carriers.get? sid).getD 0

/-- Enters a session in a group of a room, and its connection. -/
def join (r : Roster) (rid : UInt64) (gid : UInt32) (sid cid : UInt64) : Roster where
  groups := r.groups.insert (rid, sid) gid
  carriers := r.carriers.insert sid cid

/-- Records another connection for a session that is in a room, and tells whether it is in one. -/
def rebind (r : Roster) (sid cid : UInt64) : Bool × Roster :=
  if r.roomsOf sid = [] then
    (false, r)
  else (true, { r with carriers := r.carriers.insert sid cid })

/-- Forgets the connection of a session that is in no room any more. -/
def settle (r : Roster) (sid : UInt64) : Roster :=
  if r.roomsOf sid = [] then { r with carriers := r.carriers.erase sid } else r

/-- Removes one membership, and tells whether there was one. -/
def quit (r : Roster) (rid sid : UInt64) : Bool × Roster :=
  (r.groups.contains (rid, sid), settle { r with groups := r.groups.erase (rid, sid) } sid)

/-- Removes all memberships of a session, and tells how many these were. -/
def removeSession (r : Roster) (sid : UInt64) : Nat × Roster :=
  ((r.roomsOf sid).length, ⟨r.groups.retain (·.2 ≠ sid), r.carriers.erase sid⟩)

/-- The members of a group of a room, each with the connection that carries it. Group 0 stands for
every group. -/
def matching (r : Roster) (rid : UInt64) (gid : UInt32) : List (UInt64 × UInt64) :=
  ((r.row rid).filter fun e ↦ gid = 0 ∨ e.2 = gid).map fun e ↦ (e.1, r.carrier e.1)

/-- The number of members of a room. -/
def userCount (r : Roster) (rid : UInt64) : Nat := (r.row rid).length

/-- The number of rooms that have a member. -/
def roomCount (r : Roster) : Nat := (r.groups.keys.map Prod.fst).dedup.length

variable {r : Roster}

/-- A session is in the rooms for which it has a group. -/
@[simp] theorem mem_roomsOf_iff {rid sid : UInt64} :
    rid ∈ r.roomsOf sid ↔ (r.groups.get? (rid, sid)).isSome := by
  simp only [roomsOf, List.mem_map, List.mem_filter, Table.mem_keys_iff, decide_eq_true_eq,
    Prod.exists]
  constructor
  · rintro ⟨_, _, ⟨h, rfl⟩, rfl⟩
    exact h
  · intro h
    exact ⟨rid, sid, ⟨h, rfl⟩, rfl⟩

/-- No room is counted twice. -/
theorem nodup_roomsOf (r : Roster) (sid : UInt64) : (r.roomsOf sid).Nodup := by
  refine List.Nodup.map_on ?_ (r.groups.nodup.filter _)
  intro k hk j hj h
  have hk := (List.mem_filter.1 hk).2
  have hj := (List.mem_filter.1 hj).2
  simp only [decide_eq_true_eq] at hk hj
  exact Prod.ext h (hk.trans hj.symm)

/-- A session is in no room just when it has a group in none. -/
theorem roomsOf_eq_nil_iff {sid : UInt64} :
    r.roomsOf sid = [] ↔ ∀ rid, r.groups.get? (rid, sid) = none := by
  simp [List.eq_nil_iff_forall_not_mem]

/-- A row lists the sessions with the groups that they have in the room. -/
@[simp] theorem mem_row_iff {rid sid : UInt64} {gid : UInt32} :
    (sid, gid) ∈ r.row rid ↔ r.groups.get? (rid, sid) = some gid := by
  simp only [row, List.mem_map, List.mem_filter, decide_eq_true_eq, Prod.exists, Prod.mk.injEq,
    ← Table.mem_entries_iff]
  constructor
  · rintro ⟨_, _, _, ⟨h, rfl⟩, rfl, rfl⟩
    exact h
  · intro h
    exact ⟨rid, sid, gid, ⟨h, rfl⟩, rfl, rfl⟩

/-- No member is listed twice. -/
theorem nodup_row (r : Roster) (rid : UInt64) : (r.row rid).Nodup := by
  refine List.Nodup.map_on ?_ (r.groups.nodup_entries.filter _)
  intro e he f hf h
  have he := (List.mem_filter.1 he).2
  have hf := (List.mem_filter.1 hf).2
  simp only [decide_eq_true_eq, Prod.mk.injEq] at he hf h
  exact Prod.ext (Prod.ext (he.trans hf.symm) h.1) h.2

/-- The rooms that have a member are those that some membership names. -/
theorem mem_rooms_iff {rid : UInt64} :
    rid ∈ (r.groups.keys.map Prod.fst).dedup ↔ ∃ sid, (r.groups.get? (rid, sid)).isSome := by
  simp only [List.mem_dedup, List.mem_map, Table.mem_keys_iff, Prod.exists]
  constructor
  · rintro ⟨_, s, h, rfl⟩
    exact ⟨s, h⟩
  · rintro ⟨s, h⟩
    exact ⟨rid, s, h, rfl⟩

/-- To settle a session leaves all memberships alone. -/
@[simp] theorem groups_settle (r : Roster) (sid : UInt64) : (r.settle sid).groups = r.groups := by
  unfold settle
  split <;> rfl

/-- To settle a session forgets its connection if it is in no room, and no other. -/
theorem get?_carriers_settle (r : Roster) (sid s : UInt64) :
    (r.settle sid).carriers.get? s =
      if s = sid ∧ r.roomsOf sid = [] then none else r.carriers.get? s := by
  unfold settle
  split
  · next h => simp [Table.get?_erase, h]
  · next h => simp [h]

end Roster

end EdgeGateway
