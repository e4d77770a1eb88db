import EdgeGateway.Fault
import EdgeGateway.Table.Basic

/-!
# Rooms

A room holds sessions, each in one of its groups. Beside the rooms stands one record a session: the
connection that carries it now, which all its memberships share, and the rooms it is in. A session
that is in no room has no record, and a room without members does not exist.
-/

namespace EdgeGateway

/-- Where a session that is in rooms can be reached. -/
structure Presence where
  cid : UInt64
  rooms : List UInt64
  deriving Repr, DecidableEq

/-- The members of the rooms. -/
structure Rooms where
  /-- The group of each member of each room. -/
  members : Table UInt64 (Table UInt64 UInt32)
  /-- The record of each session that is in a room. -/
  sessions : Table UInt64 Presence
  deriving Repr

namespace Rooms

/-- No rooms. -/
def empty : Rooms := ⟨.empty, .empty⟩

/-- The members of a room with their groups. -/
def room (t : Rooms) (rid : UInt64) : Table UInt64 UInt32 := (t.members.get? rid).getD .empty

/-- The group in which a session is a member of a room. -/
def group? (t : Rooms) (rid sid : UInt64) : Option UInt32 := (t.room rid).get? sid

/-- The connection recorded for a session. -/
def carrier? (t : Rooms) (sid : UInt64) : Option UInt64 := (t.sessions.get? sid).map (·.cid)

/-- The rooms a session is in. -/
def roomsOf (t : Rooms) (sid : UInt64) : List UInt64 :=
  ((t.sessions.get? sid).map (·.rooms)).getD []

/-- The number of members of a room. -/
def userCount (t : Rooms) (rid : UInt64) : Nat := (t.room rid).size

/-- The number of rooms. -/
def roomCount (t : Rooms) : Nat := t.members.size

/-- Adds a session, carried by `cid`, to a group of a room. A member moves to the new group. -/
def join (t : Rooms) (rid : UInt64) (gid : UInt32) (sid cid : UInt64) : Rooms where
  members := t.members.insert rid ((t.room rid).insert sid gid)
  sessions := t.sessions.insert sid ⟨cid, (t.roomsOf sid).insert rid⟩

/-- Records another connection for a session, and tells whether it is in any room. -/
def rebind (t : Rooms) (sid cid : UInt64) : Bool × Rooms :=
  (t.sessions.contains sid,
    { t with sessions := t.sessions.modify sid fun p ↦ { p with cid } })

/-- Stores a room, which is dropped if it has no members. -/
def storeRoom (t : Rooms) (rid : UInt64) (room : Table UInt64 UInt32) : Rooms :=
  { t with members := if room.isEmpty then t.members.erase rid else t.members.insert rid room }

/-- Takes a room off a session's record, which is dropped when no room is left. -/
def leave (t : Rooms) (rid sid : UInt64) : Rooms :=
  match t.sessions.get? sid with
  | none => t
  | some p =>
    if (p.rooms.erase rid).isEmpty then { t with sessions := t.sessions.erase sid }
    else { t with sessions := t.sessions.insert sid { p with rooms := p.rooms.erase rid } }

/-- Removes a session from a room, and tells whether it was a member. -/
def quit (t : Rooms) (rid sid : UInt64) : Bool × Rooms :=
  match t.members.get? rid with
  | none => (false, t)
  | some room => (room.contains sid, (t.storeRoom rid (room.erase sid)).leave rid sid)

/-- Removes a session from every room it is in, and tells how many these were. -/
def removeSession (t : Rooms) (sid : UInt64) : Nat × Rooms :=
  match t.sessions.get? sid with
  | none => (0, t)
  | some p => (p.rooms.length, p.rooms.foldl (fun t rid ↦ (t.quit rid sid).2) t)

/-- The members of a group of a room with the connections recorded for them. Group 0 stands for
every group. -/
def select (t : Rooms) (rid : UInt64) (gid : UInt32) : List (UInt64 × UInt64) :=
  (t.room rid).entries.filterMap fun (sid, group) ↦
    if gid = 0 ∨ group = gid then (t.carrier? sid).map fun cid ↦ (sid, cid) else none

/-- Visits every selected member, whether or not the visit to another fails, and tells how many
there were. -/
def traverse {σ : Type} (t : Rooms) (rid : UInt64) (gid : UInt32)
    (visit : UInt64 → UInt64 → σ → Except Fault Unit × σ) (s : σ) : Nat × σ :=
  ((t.select rid gid).length, (t.select rid gid).foldl (fun s m ↦ (visit m.1 m.2 s).2) s)

/-- The number of memberships in all rooms. -/
def population (t : Rooms) : Nat := t.members.values.foldr (fun room n ↦ room.size + n) 0

/-- A room is no larger than all rooms together. -/
theorem size_le_foldr {room : Table UInt64 UInt32} {rooms : List (Table UInt64 UInt32)}
    (h : room ∈ rooms) : room.size ≤ rooms.foldr (fun room n ↦ room.size + n) 0 := by
  induction rooms with
  | nil => cases h
  | cons r rs ih =>
    rw [List.foldr_cons]
    cases h with
    | head => omega
    | tail _ h =>
      have := ih h
      omega

/-- A room has no more members than there are memberships. -/
theorem size_room_le (t : Rooms) (rid : UInt64) : (t.room rid).size ≤ t.population := by
  unfold room
  cases h : t.members.get? rid with
  | none => exact Nat.zero_le _
  | some r => exact size_le_foldr (Table.mem_values_iff.2 ⟨rid, h⟩)

/-- No room has more members than there are memberships. -/
theorem length_select_le (t : Rooms) (rid : UInt64) (gid : UInt32) :
    (t.select rid gid).length ≤ t.population :=
  Nat.le_trans (List.length_filterMap_le ..) (t.size_room_le rid)

end Rooms

end EdgeGateway
