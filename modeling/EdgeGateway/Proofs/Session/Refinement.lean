import EdgeGateway.Proofs.Calls
import EdgeGateway.Proofs.Session.Membership
import EdgeGateway.Proofs.Session.Roster

/-!
# The rooms keep a roster

Rooms and records are two indexes of the same memberships. Whatever is done to them one thing after
the other, every answer is the one that the plain roster gives (`answers_as_roster`): nothing that
the two indexes drop, count or skip shows. What carries it is that rooms and records stay mirrored
and tell what the roster tells (`Represents`), which each call keeps.
-/

namespace EdgeGateway

/-! ### Calls and their answers -/

/-- What can be asked of the rooms. -/
inductive RoomCall where
  | join (rid : UInt64) (gid : UInt32) (sid cid : UInt64)
  | rebind (sid cid : UInt64)
  | quit (rid sid : UInt64)
  | removeSession (sid : UInt64)
  /-- What the visit to a member comes to may depend on the visits before. -/
  | traverse (rid : UInt64) (gid : UInt32)
      (visit : List (UInt64 × UInt64) → UInt64 → UInt64 → Except Fault Unit)
  | userCount (rid : UInt64)
  | roomCount

/-- What the rooms answer. -/
inductive RoomAnswer where
  | done
  | told (b : Bool)
  | counted (n : Nat)
  /-- The number of visits, and the visits with their sessions and connections. -/
  | visited (n : Nat) (visits : List (UInt64 × UInt64))
  deriving Repr, DecidableEq

/-- Two answers say the same. The members of a room are visited in no particular order. -/
inductive RoomAnswer.Same : RoomAnswer → RoomAnswer → Prop
  | done : Same .done .done
  | told (b : Bool) : Same (.told b) (.told b)
  | counted (n : Nat) : Same (.counted n) (.counted n)
  | visited (n : Nat) {visits visits' : List (UInt64 × UInt64)} :
      visits.Perm visits' → Same (.visited n visits) (.visited n visits')

/-- The rooms answer a call. A visitor keeps the list of its visits. -/
def Rooms.perform (t : Rooms) : RoomCall → RoomAnswer × Rooms
  | .join rid gid sid cid => (.done, t.join rid gid sid cid)
  | .rebind sid cid =>
    let (found, t) := t.rebind sid cid
    (.told found, t)
  | .quit rid sid =>
    let (removed, t) := t.quit rid sid
    (.told removed, t)
  | .removeSession sid =>
    let (n, t) := t.removeSession sid
    (.counted n, t)
  | .traverse rid gid visit =>
    let (n, visits) := t.traverse rid gid
      (fun sid cid visits ↦ (visit visits sid cid, visits ++ [(sid, cid)])) []
    (.visited n visits, t)
  | .userCount rid => (.counted (t.userCount rid), t)
  | .roomCount => (.counted t.roomCount, t)

/-- A roster answers a call. Whatever a visit comes to, every matching member is visited. -/
def Roster.perform (r : Roster) : RoomCall → RoomAnswer × Roster
  | .join rid gid sid cid => (.done, r.join rid gid sid cid)
  | .rebind sid cid =>
    let (found, r) := r.rebind sid cid
    (.told found, r)
  | .quit rid sid =>
    let (removed, r) := r.quit rid sid
    (.told removed, r)
  | .removeSession sid =>
    let (n, r) := r.removeSession sid
    (.counted n, r)
  | .traverse rid gid _ => (.visited (r.matching rid gid).length (r.matching rid gid), r)
  | .userCount rid => (.counted (r.userCount rid), r)
  | .roomCount => (.counted r.roomCount, r)

namespace Rooms

/-! ### What represents a roster -/

/-- The rooms tell what a roster tells, and their two sides mirror each other. -/
structure Represents (t : Rooms) (r : Roster) : Prop where
  mirrored : t.Mirrored
  group? : ∀ rid sid, t.group? rid sid = r.groups.get? (rid, sid)
  carrier? : ∀ sid, t.carrier? sid = r.carriers.get? sid

/-- No rooms represent the roster of nobody. -/
theorem represents_empty : empty.Represents .empty :=
  ⟨mirrored_empty, fun _ _ ↦ rfl, fun _ ↦ rfl⟩

variable {t : Rooms} {r : Roster}

/-- The rooms on a session's record are those of the roster. -/
theorem Represents.roomsOf_perm (h : t.Represents r) (sid : UInt64) :
    (t.roomsOf sid).Perm (r.roomsOf sid) := by
  rw [List.perm_ext_iff_of_nodup (h.mirrored.nodup_roomsOf sid) (r.nodup_roomsOf sid)]
  intro rid
  rw [h.mirrored.mem_roomsOf_iff, h.group?, Roster.mem_roomsOf_iff]

/-- The members that a room lists are those of the roster. -/
theorem Represents.room_perm (h : t.Represents r) (rid : UInt64) :
    (t.room rid).entries.Perm (r.row rid) := by
  rw [List.perm_ext_iff_of_nodup (t.room rid).nodup_entries (r.nodup_row rid)]
  rintro ⟨sid, gid⟩
  rw [Table.mem_entries_iff, Roster.mem_row_iff, ← h.group?]
  rfl

/-- The rooms that exist are those with a member. -/
theorem Represents.rooms_perm (h : t.Represents r) :
    t.members.keys.Perm (r.groups.keys.map Prod.fst).dedup := by
  have hk : t.members.keys.Nodup := t.members.nodup
  rw [List.perm_ext_iff_of_nodup hk (List.nodup_dedup _)]
  intro rid
  rw [Roster.mem_rooms_iff, Table.mem_keys_iff]
  simp only [← h.group?]
  constructor
  · intro hr
    obtain ⟨room, hroom⟩ := Option.isSome_iff_exists.1 hr
    have hne := h.mirrored.inhabited rid room hroom
    rw [Bool.eq_false_iff, ne_eq, Table.isEmpty_iff, not_forall] at hne
    obtain ⟨sid, hs⟩ := hne
    refine ⟨sid, ?_⟩
    rw [Rooms.group?, Rooms.room, hroom]
    exact Option.isSome_iff_ne_none.2 hs
  · rintro ⟨sid, hs⟩
    cases hr : t.members.get? rid with
    | some room => rfl
    | none =>
      rw [Rooms.group?, Rooms.room, hr] at hs
      cases hs

/-- A session is carried by nobody just when it is in no room. -/
theorem Mirrored.carrier?_eq_none_iff (h : t.Mirrored) (sid : UInt64) :
    t.carrier? sid = none ↔ ∀ rid, t.group? rid sid = none := by
  constructor
  · intro hc rid
    cases hg : t.group? rid sid with
    | none => rfl
    | some g =>
      have hp := (h.present_iff sid).1 (.inr ⟨rid, by rw [hg]; rfl⟩)
      rw [hc] at hp
      cases hp
  · intro hg
    cases hp : t.sessions.get? sid with
    | none => rw [Rooms.carrier?, hp]; rfl
    | some p =>
      -- The record lists a room, and that room lists the session.
      obtain ⟨rid, hrid⟩ := List.exists_mem_of_ne_nil _ (h.record sid p hp).1
      have hm : rid ∈ t.roomsOf sid := by rw [roomsOf, hp]; exact hrid
      rw [h.mem_roomsOf_iff, hg rid] at hm
      cases hm

/-- A session is carried by nobody just when the roster has it in no room. -/
theorem Represents.carrier?_eq_none_iff (h : t.Represents r) (sid : UInt64) :
    t.carrier? sid = none ↔ r.roomsOf sid = [] := by
  rw [h.mirrored.carrier?_eq_none_iff, Roster.roomsOf_eq_nil_iff]
  simp only [h.group?]

/-- Every member has a carrier, so none is skipped when a room is gone through. -/
theorem Represents.select_eq (h : t.Represents r) (rid : UInt64) (gid : UInt32) :
    t.select rid gid =
      ((t.room rid).entries.filter fun e ↦ gid = 0 ∨ e.2 = gid).map fun e ↦
      (e.1, r.carrier e.1) := by
  rw [select, ← List.filterMap_eq_map, List.filterMap_filter]
  refine List.filterMap_congr fun e he ↦ ?_
  obtain ⟨sid, g⟩ := e
  have hg : t.group? rid sid = some g := Table.mem_entries_iff.1 he
  have hc : t.carrier? sid ≠ none := by
    rw [ne_eq, h.mirrored.carrier?_eq_none_iff]
    intro hn
    rw [hn rid] at hg
    cases hg
  obtain ⟨cid, hcid⟩ := Option.ne_none_iff_exists'.1 hc
  have hr : r.carrier sid = cid := by rw [Roster.carrier, ← h.carrier?, hcid]; rfl
  simp [hcid, hr]

/-- The members that are visited are those that match in the roster. -/
theorem Represents.select_perm (h : t.Represents r) (rid : UInt64) (gid : UInt32) :
    (t.select rid gid).Perm (r.matching rid gid) := by
  rw [h.select_eq]
  exact ((h.room_perm rid).filter _).map _

private theorem foldl_visits (l visits : List (UInt64 × UInt64)) :
    l.foldl (fun s m ↦ s ++ [(m.1, m.2)]) visits = visits ++ l := by
  induction l generalizing visits with
  | nil => rw [List.foldl_nil, List.append_nil]
  | cons m l ih => rw [List.foldl_cons, ih, List.append_assoc, List.singleton_append]

/-! ### Each call keeps what is represented -/

/-- To enter a session does the same to the rooms and to the roster. -/
theorem Represents.join (h : t.Represents r) (rid : UInt64) (gid : UInt32) (sid cid : UInt64) :
    (t.join rid gid sid cid).Represents (r.join rid gid sid cid) where
  mirrored := h.mirrored.join rid gid sid cid
  group? r' s := by
    simp only [group?_join, h.group?, Roster.join, Table.get?_insert, Prod.mk.injEq]
  carrier? s := by
    simp only [carrier?_join, h.carrier?, Roster.join, Table.get?_insert]

/-- To record another connection is answered alike and does the same to both. -/
theorem Represents.rebind (h : t.Represents r) (sid cid : UInt64) :
    (t.rebind sid cid).1 = (r.rebind sid cid).1 ∧
      (t.rebind sid cid).2.Represents (r.rebind sid cid).2 := by
  have hc := h.carrier?_eq_none_iff sid
  have hb : (t.rebind sid cid).1 = (t.carrier? sid).isSome := by
    simp only [Rooms.rebind, Table.contains, Rooms.carrier?, Option.isSome_map]
  rw [Roster.rebind, hb]
  split
  · next hn =>
    have hnone := hc.2 hn
    refine ⟨by rw [hnone]; rfl, h.mirrored.rebind sid cid, h.group?, fun s ↦ ?_⟩
    rw [carrier?_rebind, hnone, ← h.carrier?]
    split
    · next hs => rw [hs, hnone]; rfl
    · rfl
  · next hn =>
    obtain ⟨old, hold⟩ := Option.ne_none_iff_exists'.1 (mt hc.1 hn)
    refine ⟨by rw [hold]; rfl, h.mirrored.rebind sid cid, h.group?, fun s ↦ ?_⟩
    rw [carrier?_rebind, hold, Table.get?_insert, h.carrier?]
    rfl

/-- To quit a room is answered alike and does the same to both. -/
theorem Represents.quit (h : t.Represents r) (rid sid : UInt64) :
    (t.quit rid sid).1 = (r.quit rid sid).1 ∧
      (t.quit rid sid).2.Represents (r.quit rid sid).2 := by
  have hm := h.mirrored.quit rid sid
  have hg : ∀ r' s, (t.quit rid sid).2.group? r' s = (r.quit rid sid).2.groups.get? (r', s) := by
    intro r' s
    rw [Roster.quit, Roster.groups_settle, Table.get?_erase, group?_quit, h.group?]
    simp only [Prod.mk.injEq]
  refine ⟨?_, hm, hg, fun s ↦ ?_⟩
  · rw [Roster.quit, Table.contains, ← h.group?, Rooms.group?, Rooms.room, Rooms.quit]
    cases t.members.get? rid <;> rfl
  · -- The record goes just when no room is left, and otherwise keeps its connection.
    have hnone := hm.carrier?_eq_none_iff sid
    simp only [hg] at hnone
    rw [Roster.quit, Roster.groups_settle, ← Roster.roomsOf_eq_nil_iff] at hnone
    rw [Roster.quit, Roster.get?_carriers_settle]
    by_cases hs : s = sid
    · subst hs
      simp only [true_and]
      split
      · next he => exact hnone.2 he
      · next he =>
        obtain ⟨cid, hcid⟩ := Option.ne_none_iff_exists'.1 (mt hnone.1 he)
        rw [hcid, ← h.carrier?, carrier?_of_quit h.mirrored hcid]
    · rw [if_neg fun e ↦ hs e.1, ← h.carrier?, Rooms.carrier?, session?_quit h.mirrored,
        if_neg hs, Rooms.carrier?]

/-- To remove a session is answered alike and does the same to both. -/
theorem Represents.removeSession (h : t.Represents r) (sid : UInt64) :
    (t.removeSession sid).1 = (r.removeSession sid).1 ∧
      (t.removeSession sid).2.Represents (r.removeSession sid).2 := by
  refine ⟨?_, h.mirrored.removeSession sid, fun r' s ↦ ?_, fun s ↦ ?_⟩
  · rw [Roster.removeSession, ← (h.roomsOf_perm sid).length_eq, roomsOf, Rooms.removeSession]
    cases t.sessions.get? sid <;> rfl
  · rw [group?_removeSession h.mirrored, Roster.removeSession, Table.get?_retain, h.group?]
    by_cases hs : s = sid <;> simp [hs]
  · rw [carrier?_removeSession h.mirrored, Roster.removeSession, Table.get?_erase, h.carrier?]

/-- A call is answered as the roster answers it, and afterwards the rooms tell what the roster
tells. -/
theorem Represents.perform (h : t.Represents r) (c : RoomCall) :
    (t.perform c).1.Same (r.perform c).1 ∧ (t.perform c).2.Represents (r.perform c).2 := by
  cases c with
  | join rid gid sid cid => exact ⟨.done, h.join rid gid sid cid⟩
  | rebind sid cid =>
    obtain ⟨hb, hr⟩ := h.rebind sid cid
    simp only [Rooms.perform, Roster.perform, hb]
    exact ⟨.told _, hr⟩
  | quit rid sid =>
    obtain ⟨hb, hr⟩ := h.quit rid sid
    simp only [Rooms.perform, Roster.perform, hb]
    exact ⟨.told _, hr⟩
  | removeSession sid =>
    obtain ⟨hn, hr⟩ := h.removeSession sid
    simp only [Rooms.perform, Roster.perform, hn]
    exact ⟨.counted _, hr⟩
  | traverse rid gid visit =>
    have hp := h.select_perm rid gid
    simp only [Rooms.perform, Roster.perform, traverse, foldl_visits, List.nil_append, hp.length_eq]
    exact ⟨.visited _ hp, h⟩
  | userCount rid =>
    have hn : t.userCount rid = r.userCount rid := (h.room_perm rid).length_eq
    simp only [Rooms.perform, Roster.perform, hn]
    exact ⟨.counted _, h⟩
  | roomCount =>
    have hn : t.roomCount = r.roomCount := by
      rw [Roster.roomCount, ← h.rooms_perm.length_eq, Table.keys, List.length_map]
      rfl
    simp only [Rooms.perform, Roster.perform, hn]
    exact ⟨.counted _, h⟩

/-- Whatever is asked of the rooms one thing after the other, beginning with none, they answer
everything as a plain roster of memberships and connections does, and afterwards they tell what the
roster tells, the rooms and the records mirror each other and nothing empty is kept. -/
theorem answers_as_roster (calls : List RoomCall) :
    List.Forall₂ RoomAnswer.Same (Calls.answers Rooms.perform empty calls).1
        (Calls.answers Roster.perform .empty calls).1 ∧
      (Calls.answers Rooms.perform empty calls).2.Represents
        (Calls.answers Roster.perform .empty calls).2 :=
  Calls.forall₂_answers represents_empty (fun _ _ c h ↦ h.perform c) calls

end Rooms

end EdgeGateway
