/-!
# What can go wrong

Every failure is a cause with the data that its wording needs. `Fault.message` is the one place that
words it: the kind of fault gives the start of the text, the cause the rest.
-/

namespace EdgeGateway

/-- The two layers of the protocol, each with a header of its own. -/
inductive Layer where
  | frame
  | session
  deriving Repr, DecidableEq

namespace Layer

/-- The layer's name in a complaint about its header. -/
def label : Layer → String
  | frame => "frame"
  | session => "session"

end Layer

/-- Why bytes are not a frame or a message. -/
inductive Malformed where
  /-- Fewer bytes than a header has. -/
  | short (layer : Layer) (size need : Nat)
  /-- The header announces a longer body than the protocol allows. -/
  | oversized (length max : Nat)
  /-- The flag byte names no origin. -/
  | unknownFlag (value : UInt8)
  /-- The checksum is not the protocol's constant. -/
  | badChecksum (found expected : UInt32)
  /-- The header announces another body length than there is. -/
  | lengthMismatch (announced actual : Nat)
  deriving Repr, DecidableEq

/-- Why a body is not the expected CBOR record. -/
inductive CodecFault where
  /-- The bytes end within an item. -/
  | endOfInput
  /-- The bytes are no CBOR. -/
  | illFormed
  /-- The bytes are CBOR, but not of the expected kind. -/
  | unsuitable
  /-- The items are nested too deeply. -/
  | tooDeep
  deriving Repr, DecidableEq

/-- How reading from a client's socket broke. -/
inductive SocketFault where
  | closedNormally
  | alreadyClosed
  deriving Repr, DecidableEq

/-- How a file or a byte stream failed to deliver. -/
inductive InputFault where
  | unexpectedEnd
  | invalidData
  | isDirectory
  deriving Repr, DecidableEq

/-- The queues that can be found closed. -/
inductive QueueName where
  | connectionSend
  | eviction
  deriving Repr, DecidableEq

/-- The kinds of fault, without their causes. -/
inductive FaultKind where
  | codec
  | malformedFrame
  | invalidMessage
  | transport
  | sessionNotFound
  | connectionNotFound
  | queueClosed
  | timeout
  | input
  | other
  deriving Repr, DecidableEq

/-- A failure with its cause. -/
inductive Fault where
  | codec (cause : CodecFault)
  | malformedFrame (cause : Malformed)
  /-- A client's message is longer than a message can be. -/
  | messageTooLarge (size max : Nat)
  /-- A client's request to leave a room has an unreadable body. -/
  | unreadableQuit (cause : CodecFault)
  | socketRead (cause : SocketFault)
  /-- A connection's send queue is full. -/
  | sendQueueFull (cid : UInt64)
  | sessionNotFound (sid : UInt64)
  | connectionNotFound (cid : UInt64)
  | queueClosed (queue : QueueName)
  | timeout
  | input (cause : InputFault)
  /-- The configuration file does not parse. -/
  | configuration
  deriving Repr, DecidableEq

/-- The lower-case hexadecimal digits of `n`, at least eight of them. -/
def hex32 (n : UInt32) : String :=
  let digits := Nat.toDigits 16 n.toNat
  String.ofList (List.replicate (8 - digits.length) '0' ++ digits)

/-- Words why bytes are not a frame or a message. -/
def Malformed.message : Malformed → String
  | short layer size need => s!"short {layer.label} header: {size} bytes (need {need})"
  | oversized length max => s!"body too large: {length} bytes (max {max})"
  | unknownFlag value => s!"unknown flag: {value}"
  | badChecksum found expected =>
    "bad checksum: 0x" ++ hex32 found ++ " (expected 0x" ++ hex32 expected ++ ")"
  | lengthMismatch announced actual =>
    s!"length mismatch: header says {announced}, got {actual}"

/-- The class of a CBOR fault. -/
def CodecFault.message : CodecFault → String
  | endOfInput => "Io"
  | illFormed => "Syntax"
  | unsuitable => "Semantic"
  | tooDeep => "RecursionLimitExceeded"

/-- Words how reading from a client's socket broke. -/
def SocketFault.message : SocketFault → String
  | closedNormally => "Connection closed normally"
  | alreadyClosed => "Trying to work with closed connection"

/-- The name of an input fault. -/
def InputFault.message : InputFault → String
  | unexpectedEnd => "UnexpectedEof"
  | invalidData => "InvalidData"
  | isDirectory => "IsADirectory"

/-- The name of a queue in a complaint about it. -/
def QueueName.message : QueueName → String
  | connectionSend => "connection send"
  | eviction => "kick"

/-- The text of a fault of this kind whose cause reads `detail`. -/
def FaultKind.describe : FaultKind → (detail : String) → String
  | codec, d => "codec error: " ++ d
  | malformedFrame, d => "malformed frame: " ++ d
  | invalidMessage, d => "invalid message: " ++ d
  | transport, d => "transport error: " ++ d
  | sessionNotFound, d => "session not found: " ++ d
  | connectionNotFound, d => "connection not found: " ++ d
  | queueClosed, d => "queue closed: " ++ d
  | timeout, _ => "timeout"
  | input, d => "io error: " ++ d
  | other, d => d

namespace Fault

/-- The kind of a fault. -/
def kind : Fault → FaultKind
  | codec _ => .codec
  | malformedFrame _ => .malformedFrame
  | messageTooLarge .. | unreadableQuit _ => .invalidMessage
  | socketRead _ | sendQueueFull _ => .transport
  | sessionNotFound _ => .sessionNotFound
  | connectionNotFound _ => .connectionNotFound
  | queueClosed _ => .queueClosed
  | timeout => .timeout
  | input _ => .input
  | configuration => .other

/-- Words the cause of a fault. -/
def detail : Fault → String
  | codec c => c.message
  | malformedFrame c => c.message
  | messageTooLarge size max => s!"WS frame too large: {size} bytes (max {max})"
  | unreadableQuit c => "room quit: " ++ FaultKind.codec.describe c.message
  | socketRead c => "WS recv failed: " ++ c.message
  | sendQueueFull cid => s!"cid {cid} send queue full"
  | sessionNotFound sid => toString sid
  | connectionNotFound cid => toString cid
  | queueClosed q => q.message
  | timeout => ""
  | input c => c.message
  | configuration => "config parse error"

/-- The text of a fault. -/
def message (f : Fault) : String := f.kind.describe f.detail

end Fault

end EdgeGateway
