import EdgeGateway.Body.Basic

/-!
# Bodies of room messages

Entering and leaving a room, and the address at the front of every message to a room.
-/

namespace EdgeGateway

/-- The body of `Command.roomJoinAck`. -/
structure RoomJoinAck where
  rid : UInt64
  gid : UInt32 := 0
  code : UInt32
  errmsg : String := ""
  deriving Repr, DecidableEq

/-- The entries of a verdict on entering a room. -/
instance : Body RoomJoinAck where
  fields := [.u64 "rid", .u32 "gid" true, .u32 "code", .text "errmsg" true]
  values a := [.number a.rid.toNat, .number a.gid.toNat, .number a.code.toNat, .text a.errmsg]
  ofValues
    | [.number rid, .number gid, .number code, .text errmsg] =>
      some ⟨.ofNat rid, .ofNat gid, .ofNat code, errmsg⟩
    | _ => none

/-- The body of `Command.roomQuit` and of `Command.roomKickNotice`. -/
structure RoomQuit where
  rid : UInt64
  deriving Repr, DecidableEq

/-- The entry of a request to leave a room. -/
instance : Body RoomQuit where
  fields := [.u64 "rid"]
  values q := [.number q.rid.toNat]
  ofValues
    | [.number rid] => some ⟨.ofNat rid⟩
    | _ => none

/-- The address of a message to a room. Group 0 stands for every group. -/
structure RoomAddress where
  rid : UInt64
  gid : UInt32 := 0
  deriving Repr, DecidableEq

/-- The entries that address a room and a group in it. -/
instance : Body RoomAddress where
  fields := [.u64 "rid", .u32 "gid" true]
  values a := [.number a.rid.toNat, .number a.gid.toNat]
  ofValues
    | [.number rid, .number gid] => some ⟨.ofNat rid, .ofNat gid⟩
    | _ => none

end EdgeGateway
