import EdgeGateway.Body.Basic

/-!
# Bodies of the forwarder's own frames

The introduction of a link and the liveness report.
-/

namespace EdgeGateway

/-- The body of `Command.linkAuthRequest`. -/
structure LinkAuthRequest where
  nid : UInt32
  usr : String
  passwd : String
  deriving Repr, DecidableEq

/-- The entries of the introduction of a link. -/
instance : Body LinkAuthRequest where
  fields := [.u32 "nid", .text "usr", .text "passwd"]
  values r := [.number r.nid.toNat, .text r.usr, .text r.passwd]
  ofValues
    | [.number nid, .text usr, .text passwd] => some ⟨.ofNat nid, usr, passwd⟩
    | _ => none

/-- The body of `Command.linkAuthAck`. -/
structure LinkAuthAck where
  code : UInt32
  errmsg : String := ""
  deriving Repr, DecidableEq

/-- The entries of the verdict on an introduction. -/
instance : Body LinkAuthAck where
  fields := [.u32 "code", .text "errmsg" true]
  values a := [.number a.code.toNat, .text a.errmsg]
  ofValues
    | [.number code, .text errmsg] => some ⟨.ofNat code, errmsg⟩
    | _ => none

/-- The body of `Command.livenessReport`. -/
structure LivenessReport where
  nid : UInt32
  ip : String
  port : UInt16
  connections : UInt64
  deriving Repr, DecidableEq

/-- The entries of a report. -/
instance : Body LivenessReport where
  fields := [.u32 "nid", .text "ip", .u16 "port", .u64 "connections"]
  values r := [.number r.nid.toNat, .text r.ip, .number r.port.toNat,
    .number r.connections.toNat]
  ofValues
    | [.number nid, .text ip, .number port, .number connections] =>
      some ⟨.ofNat nid, ip, .ofNat port, .ofNat connections⟩
    | _ => none

end EdgeGateway
