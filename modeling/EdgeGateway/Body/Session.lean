import EdgeGateway.Body.Basic

/-!
# Bodies of session messages

Opening a session, its verdict, and being thrown out.
-/

namespace EdgeGateway

namespace ResultCode

/-- Success. -/
def ok : UInt32 := 0
/-- The request could not be read or makes no sense. -/
def badRequest : UInt32 := 1
/-- A newer connection took the session over. -/
def duplicateLogin : UInt32 := 2
/-- The backend ended the session. -/
def kicked : UInt32 := 3

end ResultCode

/-- The body of `Command.online`. The gateway fills in the connection before it passes the request
on. -/
structure OnlineRequest where
  sid : UInt64
  uid : UInt64 := 0
  token : String := ""
  app : String := ""
  version : String := ""
  cid : UInt64 := 0
  deriving Repr, DecidableEq

/-- The entries of a request for a session, of which only the session is required. -/
instance : Body OnlineRequest where
  fields := [.u64 "sid", .u64 "uid" true, .text "token" true, .text "app" true,
    .text "version" true, .u64 "cid" true]
  values r := [.number r.sid.toNat, .number r.uid.toNat, .text r.token, .text r.app,
    .text r.version, .number r.cid.toNat]
  ofValues
    | [.number sid, .number uid, .text token, .text app, .text version, .number cid] =>
      some ⟨.ofNat sid, .ofNat uid, token, app, version, .ofNat cid⟩
    | _ => none

/-- The body of `Command.onlineAck`. -/
structure OnlineAck where
  sid : UInt64
  uid : UInt64 := 0
  cid : UInt64 := 0
  code : UInt32
  errmsg : String := ""
  deriving Repr, DecidableEq

/-- The entries of a verdict on a request for a session. -/
instance : Body OnlineAck where
  fields := [.u64 "sid", .u64 "uid" true, .u64 "cid" true, .u32 "code", .text "errmsg" true]
  values a := [.number a.sid.toNat, .number a.uid.toNat, .number a.cid.toNat,
    .number a.code.toNat, .text a.errmsg]
  ofValues
    | [.number sid, .number uid, .number cid, .number code, .text errmsg] =>
      some ⟨.ofNat sid, .ofNat uid, .ofNat cid, .ofNat code, errmsg⟩
    | _ => none

/-- The body of `Command.kick`. -/
structure KickNotice where
  code : UInt32
  errmsg : String := ""
  deriving Repr, DecidableEq

/-- The entries of a notice that a session has been ended. -/
instance : Body KickNotice where
  fields := [.u32 "code", .text "errmsg" true]
  values k := [.number k.code.toNat, .text k.errmsg]
  ofValues
    | [.number code, .text errmsg] => some ⟨.ofNat code, errmsg⟩
    | _ => none

end EdgeGateway
