/-!
# Command identifiers

A command is a 32-bit number. `0x00xx` are the forwarder's own commands, which a link consumes,
`0x01xx` belong to sessions and `0x02xx` to chat rooms. A request is odd and its acknowledgement is
the even number after it.
-/

namespace EdgeGateway

/-- The number that says what a frame or a message asks for. -/
abbrev Command := UInt32

namespace Command

/-- Asks the other end of a link whether it is alive. -/
def keepaliveRequest : Command := 0x0001
/-- Answers `keepaliveRequest`. -/
def keepaliveAck : Command := 0x0002
/-- Introduces a freshly dialled link to the backend. -/
def linkAuthRequest : Command := 0x0003
/-- Answers `linkAuthRequest`. -/
def linkAuthAck : Command := 0x0004
/-- Carries the gateway's liveness report. -/
def livenessReport : Command := 0x0005

/-- A client opens a session. -/
def online : Command := 0x0101
/-- The verdict on an opening session. -/
def onlineAck : Command := 0x0102
/-- A session ends. -/
def offline : Command := 0x0103
/-- Answers `offline`. -/
def offlineAck : Command := 0x0104
/-- A client's liveness question. -/
def ping : Command := 0x0105
/-- Answers `ping`. -/
def pong : Command := 0x0106
/-- A client subscribes to a topic. -/
def sub : Command := 0x0107
/-- Answers `sub`. -/
def subAck : Command := 0x0108
/-- A client ends a subscription. -/
def unsub : Command := 0x0109
/-- Answers `unsub`. -/
def unsubAck : Command := 0x010A
/-- A session is thrown out. -/
def kick : Command := 0x010B

/-- A client asks to enter a room. -/
def roomJoin : Command := 0x0201
/-- Answers `roomJoin`. -/
def roomJoinAck : Command := 0x0202
/-- A client leaves a room. -/
def roomQuit : Command := 0x0203
/-- Answers `roomQuit`. -/
def roomQuitAck : Command := 0x0204
/-- A line of chat in a room. -/
def roomChat : Command := 0x0205
/-- Answers `roomChat`. -/
def roomChatAck : Command := 0x0206
/-- A broadcast to a room. -/
def roomBroadcast : Command := 0x0207
/-- The number of users in a room. -/
def roomUserCount : Command := 0x0209
/-- Tells a room that somebody entered. -/
def roomJoinNotice : Command := 0x020B
/-- Tells a room that somebody left. -/
def roomQuitNotice : Command := 0x020D
/-- Tells a session that it was removed from a room. -/
def roomKickNotice : Command := 0x020F

/-- Every known command with the name it has in logs. -/
def names : List (Command × String) :=
  [(keepaliveRequest, "KPALIVE_REQ"), (keepaliveAck, "KPALIVE_ACK"),
    (linkAuthRequest, "LINK_AUTH_REQ"), (linkAuthAck, "LINK_AUTH_ACK"),
    (livenessReport, "LSN_RPT"), (online, "ONLINE"), (onlineAck, "ONLINE_ACK"),
    (offline, "OFFLINE"), (offlineAck, "OFFLINE_ACK"), (ping, "PING"), (pong, "PONG"),
    (sub, "SUB"), (subAck, "SUB_ACK"), (unsub, "UNSUB"), (unsubAck, "UNSUB_ACK"),
    (kick, "KICK"), (roomJoin, "ROOM_JOIN"), (roomJoinAck, "ROOM_JOIN_ACK"),
    (roomQuit, "ROOM_QUIT"), (roomQuitAck, "ROOM_QUIT_ACK"), (roomChat, "ROOM_CHAT"),
    (roomChatAck, "ROOM_CHAT_ACK"), (roomBroadcast, "ROOM_BC"),
    (roomUserCount, "ROOM_USR_NUM"), (roomJoinNotice, "ROOM_JOIN_NTC"),
    (roomQuitNotice, "ROOM_QUIT_NTC"), (roomKickNotice, "ROOM_KICK_NTC")]

/-- The name of a command, `UNKNOWN` for a number that is none. -/
def name (c : Command) : String := (names.lookup c).getD "UNKNOWN"

end Command

end EdgeGateway
