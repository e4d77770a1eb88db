import EdgeGateway.Session.Rooms
import Mathlib.Data.List.Nodup

/-!
# The two sides of membership

The rooms list their sessions, and every session that is in a room has a record that lists its
rooms. `Mirrored` says that the two sides tell the same, that no record is without rooms and that no
room is without members. Every operation keeps it, and under it leaving every room leaves nothing of
a session behind.
-/

namespace EdgeGateway

/-- A record without one of its rooms, if there is anything left of it. -/
def Presence.without (p : Presence) (rid : UInt64) : Option Presence :=
  if (p.rooms.erase rid).isEmpty then none else some { p with rooms := p.rooms.erase rid }

namespace Rooms

/-- The records of the sessions mirror the members of the rooms, and nothing empty is kept. -/
structure Mirrored (t : Rooms) : Prop where
  mem_roomsOf_iff : ∀ rid sid, rid ∈ t.roomsOf sid ↔ (t.group? rid sid).isSome
  record : ∀ sid p, t.sessions.get? sid = some p → p.rooms ≠ [] ∧ p.rooms.Nodup
  inhabited : ∀ rid room, t.members.get? rid = some room → room.isEmpty = false

/-- Is a session in any room, by either side? -/
def Present (t : Rooms) (sid : UInt64) : Prop :=
  (t.carrier? sid).isSome ∨ ∃ rid, (t.group? rid sid).isSome

/-! ### What the operations do to the members -/

/-- Joining puts the session into its group of the room and leaves every other membership alone. -/
theorem group?_join (t : Rooms) (rid : UInt64) (gid : UInt32) (sid cid r s : UInt64) :
    (t.join rid gid sid cid).group? r s =
      if r = rid ∧ s = sid then some gid else t.group? r s := by
  simp only [group?, room, join, Table.get?_insert]
  by_cases hr : r = rid
  · subst hr
    simp only [if_true, Option.getD_some, true_and]
    rw [Table.get?_insert]
  · simp [hr]

/-- Rebinding a session leaves the members of every room alone. -/
theorem group?_rebind (t : Rooms) (sid cid r s : UInt64) :
    (t.rebind sid cid).2.group? r s = t.group? r s := rfl

private theorem group?_leave (t : Rooms) (rid sid r s : UInt64) :
    (t.leave rid sid).group? r s = t.group? r s := by
  simp only [leave]
  split
  · rfl
  · split <;> rfl

private theorem group?_storeRoom (t : Rooms) (rid : UInt64) (room : Table UInt64 UInt32)
    (r s : UInt64) :
    (t.storeRoom rid room).group? r s = if r = rid then room.get? s else t.group? r s := by
  simp only [group?, Rooms.room, storeRoom]
  by_cases hr : r = rid
  · subst hr
    split
    · next he =>
      rw [Table.get?_erase_self, if_pos rfl, Table.isEmpty_iff.1 he s]
      rfl
    · rw [Table.get?_insert_self, if_pos rfl]
      rfl
  · rw [if_neg hr]
    split
    · rw [Table.get?_erase_of_ne _ hr]
    · rw [Table.get?_insert_of_ne _ _ hr]

/-- Leaving a room takes the session, and nobody else, out of it. -/
theorem group?_quit (t : Rooms) (rid sid r s : UInt64) :
    (t.quit rid sid).2.group? r s = if r = rid ∧ s = sid then none else t.group? r s := by
  simp only [quit]
  split
  · next hm =>
    by_cases hr : r = rid
    · subst hr
      have hg : t.group? r s = none := by simp [group?, room, hm]
      simp [hg]
    · simp [hr]
  · next room hm =>
    rw [group?_leave, group?_storeRoom, Table.get?_erase]
    by_cases hr : r = rid
    · subst hr
      have hg : room.get? s = t.group? r s := by simp [group?, Rooms.room, hm]
      simp [hg]
    · simp [hr]

/-! ### What the operations do to the records -/

/-- Joining enters the connection and the room on the session's record. -/
theorem session?_join (t : Rooms) (rid : UInt64) (gid : UInt32) (sid cid s : UInt64) :
    (t.join rid gid sid cid).sessions.get? s =
      if s = sid then some ⟨cid, (t.roomsOf sid).insert rid⟩ else t.sessions.get? s := by
  simp only [join, Table.get?_insert]

/-- Rebinding enters the connection on the session's record, if there is one. -/
theorem session?_rebind (t : Rooms) (sid cid s : UInt64) :
    (t.rebind sid cid).2.sessions.get? s =
      if s = sid then
        (t.sessions.get? sid).map fun p ↦ { p with cid }
      else t.sessions.get? s := by
  simp only [rebind, Table.get?_modify]

private theorem session?_leave (t : Rooms) (rid sid s : UInt64) :
    (t.leave rid sid).sessions.get? s =
      if s = sid then (t.sessions.get? sid).bind (Presence.without · rid)
      else t.sessions.get? s := by
  simp only [leave]
  cases hp : t.sessions.get? sid with
  | none =>
    by_cases hs : s = sid
    · subst hs
      simp [hp]
    · simp [hs]
  | some p =>
    simp only [Option.bind_some, Presence.without]
    split
    · rw [Table.get?_erase]
    · rw [Table.get?_insert]

private theorem without_of_not_mem {p : Presence} {rid : UInt64} (hn : p.rooms ≠ [])
    (hm : rid ∉ p.rooms) : Presence.without p rid = some p := by
  rw [Presence.without, List.erase_of_not_mem hm, if_neg (by simpa using hn)]

/-- Leaving a room takes it off the session's record, which goes with its last room. -/
theorem session?_quit {t : Rooms} (ht : t.Mirrored) (rid sid s : UInt64) :
    (t.quit rid sid).2.sessions.get? s =
      if s = sid then (t.sessions.get? sid).bind (Presence.without · rid)
      else t.sessions.get? s := by
  simp only [quit]
  cases hm : t.members.get? rid with
  | some room =>
    simp only
    rw [session?_leave]
    rfl
  | none =>
    by_cases hs : s = sid
    · subst hs
      cases hp : t.sessions.get? s with
      | none => simp
      | some p =>
        have hr : rid ∉ p.rooms := by
          have hg : t.group? rid s = none := by simp [group?, room, hm]
          have hi := (ht.mem_roomsOf_iff rid s).not
          simp only [roomsOf, hp, hg] at hi
          simpa using hi
        have hw := without_of_not_mem (ht.record s p hp).1 hr
        simp [hw]
    · simp [hs]

private theorem leave_of_not_mem {t : Rooms} (ht : t.Mirrored) {rid sid : UInt64}
    (hr : rid ∉ t.roomsOf sid) : t.leave rid sid = t := by
  simp only [leave]
  split
  · rfl
  · next p hp =>
    have hm : rid ∉ p.rooms := by simpa [roomsOf, hp] using hr
    have hne : p.rooms.isEmpty = false := by simpa using (ht.record sid p hp).1
    simp [List.erase_of_not_mem hm, hne, Table.insert_of_get?_eq_some hp]

private theorem storeRoom_self {t : Rooms} (ht : t.Mirrored) {rid : UInt64}
    {room : Table UInt64 UInt32} (hm : t.members.get? rid = some room) :
    t.storeRoom rid room = t := by
  simp [storeRoom, ht.inhabited rid room hm, Table.insert_of_get?_eq_some hm]

/-- Nothing changes when a session leaves a room that it is not in. -/
theorem quit_of_group?_eq_none {t : Rooms} (ht : t.Mirrored) {rid sid : UInt64}
    (hg : t.group? rid sid = none) : (t.quit rid sid).2 = t := by
  have hr : rid ∉ t.roomsOf sid := by
    rw [ht.mem_roomsOf_iff, hg]
    exact Bool.false_ne_true
  simp only [quit]
  split
  · rfl
  · next room hm =>
    have hs : room.get? sid = none := by simpa [group?, Rooms.room, hm] using hg
    show (t.storeRoom rid (room.erase sid)).leave rid sid = t
    rw [Table.erase_of_get?_eq_none hs, storeRoom_self ht hm, leave_of_not_mem ht hr]

/-! ### What the operations do to the carriers -/

/-- Whoever joins a room is carried by the connection that is given. -/
theorem carrier?_join (t : Rooms) (rid : UInt64) (gid : UInt32) (sid cid s : UInt64) :
    (t.join rid gid sid cid).carrier? s = if s = sid then some cid else t.carrier? s := by
  simp only [carrier?, session?_join]
  split <;> rfl

/-- Whoever is rebound is carried by the connection that is given, if it is in a room. -/
theorem carrier?_rebind (t : Rooms) (sid cid s : UInt64) :
    (t.rebind sid cid).2.carrier? s =
      if s = sid then (t.carrier? sid).map fun _ ↦ cid else t.carrier? s := by
  simp only [carrier?, session?_rebind]
  split
  · simp only [Option.map_map]
    rfl
  · rfl

/-- Leaving a room gives no session a carrier that it had not. -/
theorem carrier?_of_quit {t : Rooms} (ht : t.Mirrored) {rid sid s cid : UInt64}
    (h : (t.quit rid sid).2.carrier? s = some cid) : t.carrier? s = some cid := by
  simp only [carrier?, session?_quit ht] at h ⊢
  split at h
  · next hs =>
    subst hs
    cases hp : t.sessions.get? s with
    | none => simp [hp] at h
    | some p =>
      simp only [hp, Option.bind_some, Presence.without] at h
      split at h
      · cases h
      · simpa using h
  · exact h

/-! ### What the operations keep -/

/-- Where nobody is in a room the two sides tell the same. -/
theorem mirrored_empty : empty.Mirrored := by
  refine ⟨?_, ?_, ?_⟩
  · intro rid sid
    simp [roomsOf, group?, room, empty]
  · intro sid p hp
    cases hp
  · intro rid room hr
    cases hr

private theorem roomsOf_of_session? {t : Rooms} {sid : UInt64} {p : Presence}
    (h : t.sessions.get? sid = some p) : t.roomsOf sid = p.rooms := by simp [roomsOf, h]

private theorem roomsOf_of_session?_none {t : Rooms} {sid : UInt64}
    (h : t.sessions.get? sid = none) : t.roomsOf sid = [] := by simp [roomsOf, h]

/-- No room is listed twice. -/
theorem Mirrored.nodup_roomsOf {t : Rooms} (ht : t.Mirrored) (sid : UInt64) :
    (t.roomsOf sid).Nodup := by
  cases hp : t.sessions.get? sid with
  | none => rw [roomsOf_of_session?_none hp]; exact List.nodup_nil
  | some p => rw [roomsOf_of_session? hp]; exact (ht.record sid p hp).2

/-- Joining a room keeps the two sides alike. -/
theorem Mirrored.join {t : Rooms} (ht : t.Mirrored) (rid : UInt64) (gid : UInt32)
    (sid cid : UInt64) : (t.join rid gid sid cid).Mirrored := by
  refine ⟨?_, ?_, ?_⟩
  · intro r s
    rw [group?_join]
    by_cases hs : s = sid
    · subst hs
      rw [roomsOf_of_session? (by rw [session?_join, if_pos rfl]), List.mem_insert_iff,
        ht.mem_roomsOf_iff]
      by_cases hr : r = rid <;> simp [hr]
    · have h := session?_join t rid gid sid cid s
      rw [if_neg hs] at h
      rw [show (t.join rid gid sid cid).roomsOf s = t.roomsOf s by simp only [roomsOf, h],
        ht.mem_roomsOf_iff]
      simp [hs]
  · intro s p hp
    rw [session?_join] at hp
    split at hp
    · cases hp
      exact ⟨List.ne_nil_of_mem List.mem_insert_self, (ht.nodup_roomsOf sid).insert⟩
    · exact ht.record s p hp
  · intro r room hr
    simp only [Rooms.join, Table.get?_insert] at hr
    split at hr
    · cases hr
      rw [Bool.eq_false_iff]
      intro he
      have hn := Table.isEmpty_iff.1 he sid
      rw [Table.get?_insert_self] at hn
      cases hn
    · exact ht.inhabited r room hr

/-- Rebinding keeps the two sides alike. -/
theorem Mirrored.rebind {t : Rooms} (ht : t.Mirrored) (sid cid : UInt64) :
    (t.rebind sid cid).2.Mirrored := by
  refine ⟨?_, ?_, ht.inhabited⟩
  · intro r s
    rw [group?_rebind, ← ht.mem_roomsOf_iff]
    simp only [roomsOf, session?_rebind]
    by_cases hs : s = sid
    · subst hs
      cases t.sessions.get? s <;> simp
    · simp [hs]
  · intro s p hp
    rw [session?_rebind] at hp
    split at hp
    · obtain ⟨q, hq, rfl⟩ := Option.map_eq_some_iff.1 hp
      exact ht.record sid q hq
    · exact ht.record s p hp

private theorem roomsOf_quit {t : Rooms} (ht : t.Mirrored) (rid sid s : UInt64) :
    (t.quit rid sid).2.roomsOf s = if s = sid then (t.roomsOf sid).erase rid else t.roomsOf s := by
  simp only [roomsOf, session?_quit ht]
  by_cases hs : s = sid
  · subst hs
    cases hp : t.sessions.get? s with
    | none => simp
    | some p =>
      simp only [Option.bind_some, Presence.without]
      by_cases he : (p.rooms.erase rid).isEmpty
      · simp [List.isEmpty_iff.1 he]
      · simp [he]
  · simp [hs]

/-- Leaving a room keeps the two sides alike. -/
theorem Mirrored.quit {t : Rooms} (ht : t.Mirrored) (rid sid : UInt64) :
    (t.quit rid sid).2.Mirrored := by
  refine ⟨?_, ?_, ?_⟩
  · intro r s
    rw [group?_quit, roomsOf_quit ht]
    by_cases hs : s = sid
    · subst hs
      rw [if_pos rfl, (ht.nodup_roomsOf s).mem_erase_iff, ht.mem_roomsOf_iff]
      by_cases hr : r = rid <;> simp [hr]
    · rw [if_neg hs, ht.mem_roomsOf_iff]
      simp [hs]
  · intro s p hp
    rw [session?_quit ht] at hp
    split at hp
    · obtain ⟨q, hq, hw⟩ := Option.bind_eq_some_iff.1 hp
      simp only [Presence.without] at hw
      split at hw
      · cases hw
      · next he =>
        cases hw
        exact ⟨by simpa using he, (ht.record sid q hq).2.erase rid⟩
    · exact ht.record s p hp
  · intro r room hr
    simp only [Rooms.quit] at hr
    split at hr
    · exact ht.inhabited r room hr
    · next old hm =>
      have hl : ∀ u : Rooms, (u.leave rid sid).members = u.members := by
        intro u
        simp only [leave]
        split
        · rfl
        · split <;> rfl
      rw [hl] at hr
      simp only [storeRoom] at hr
      split at hr
      · rw [Table.get?_erase] at hr
        split at hr
        · cases hr
        · exact ht.inhabited r room hr
      · next he =>
        rw [Table.get?_insert] at hr
        split at hr
        · cases hr
          exact Bool.eq_false_iff.2 he
        · exact ht.inhabited r room hr

/-! ### Leaving every room -/

-- What is left when a session has left some rooms one after the other.
private structure Departed (t u : Rooms) (sid : UInt64) (left : List UInt64) : Prop where
  mirrored : u.Mirrored
  rooms : u.roomsOf sid = left
  session? : ∀ s, s ≠ sid → u.sessions.get? s = t.sessions.get? s
  group? : ∀ r s, s ≠ sid → u.group? r s = t.group? r s

private theorem departed_foldl {t : Rooms} {sid : UInt64} :
    ∀ (l : List UInt64) (u : Rooms), Departed t u sid l →
      Departed t (l.foldl (fun u rid ↦ (u.quit rid sid).2) u) sid []
  | [], _, h => h
  | rid :: l, u, h => by
    rw [List.foldl_cons]
    refine departed_foldl l _ ⟨h.mirrored.quit rid sid, ?_, ?_, ?_⟩
    · rw [roomsOf_quit h.mirrored, if_pos rfl, h.rooms, List.erase_cons_head]
    · intro s hs
      rw [session?_quit h.mirrored, if_neg hs, h.session? s hs]
    · intro r s hs
      rw [group?_quit, if_neg (fun e ↦ hs e.2), h.group? r s hs]

private theorem departed_removeSession {t : Rooms} (ht : t.Mirrored) (sid : UInt64) :
    Departed t (t.removeSession sid).2 sid [] := by
  simp only [removeSession]
  split
  · next hp => exact ⟨ht, roomsOf_of_session?_none hp, fun _ _ ↦ rfl, fun _ _ _ ↦ rfl⟩
  · next p hp =>
    exact departed_foldl p.rooms t
      ⟨ht, roomsOf_of_session? hp, fun _ _ ↦ rfl, fun _ _ _ ↦ rfl⟩

/-- Leaving every room keeps the two sides alike. -/
theorem Mirrored.removeSession {t : Rooms} (ht : t.Mirrored) (sid : UInt64) :
    (t.removeSession sid).2.Mirrored := (departed_removeSession ht sid).mirrored

/-- A session that has left every room has no record, and those of the others are untouched. -/
theorem session?_removeSession {t : Rooms} (ht : t.Mirrored) (sid s : UInt64) :
    (t.removeSession sid).2.sessions.get? s = if s = sid then none else t.sessions.get? s := by
  have hd := departed_removeSession ht sid
  split
  · next hs =>
    subst hs
    cases hp : (t.removeSession s).2.sessions.get? s with
    | none => rfl
    | some p =>
      have hr := hd.rooms
      rw [roomsOf_of_session? hp] at hr
      exact absurd hr (hd.mirrored.record s p hp).1
  · next hs => exact hd.session? s hs

/-- A session that has left every room is a member of none, and the others are where they were. -/
theorem group?_removeSession {t : Rooms} (ht : t.Mirrored) (sid r s : UInt64) :
    (t.removeSession sid).2.group? r s = if s = sid then none else t.group? r s := by
  have hd := departed_removeSession ht sid
  split
  · next hs =>
    subst hs
    have hm := (hd.mirrored.mem_roomsOf_iff r s).not
    rw [hd.rooms] at hm
    simpa using hm
  · next hs => exact hd.group? r s hs

/-- A session that has left every room is carried by nobody. -/
theorem carrier?_removeSession {t : Rooms} (ht : t.Mirrored) (sid s : UInt64) :
    (t.removeSession sid).2.carrier? s = if s = sid then none else t.carrier? s := by
  simp only [carrier?, session?_removeSession ht]
  split <;> rfl

/-- By the record and by the rooms a session is present alike. -/
theorem Mirrored.present_iff {t : Rooms} (ht : t.Mirrored) (sid : UInt64) :
    t.Present sid ↔ (t.carrier? sid).isSome := by
  refine ⟨?_, .inl⟩
  rintro (h | ⟨rid, h⟩)
  · exact h
  · rw [← ht.mem_roomsOf_iff] at h
    cases hp : t.sessions.get? sid with
    | none =>
      rw [roomsOf_of_session?_none hp] at h
      cases h
    | some p => simp [carrier?, hp]

end Rooms

end EdgeGateway
