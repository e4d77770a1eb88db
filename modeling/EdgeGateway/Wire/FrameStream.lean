import EdgeGateway.Bytes.Inflow
import EdgeGateway.Wire.Packet

/-!
# Frames in a stream

A stream of frames is read header first: a header that does not decode ends the stream, for nobody
can tell where the next frame starts. A frame whose checksum is wrong is read to its end and
dropped, so that the stream stays in step.
-/

namespace EdgeGateway

/-- What reading one frame from a stream comes to. -/
inductive FrameRead where
  /-- More bytes have to arrive first. -/
  | waiting
  /-- A frame, and the stream behind it. -/
  | frame (f : Frame) (rest : Inflow)
  /-- A frame with a wrong checksum, and the stream behind it. -/
  | dropped (rest : Inflow)
  /-- The stream cannot be read on. -/
  | broken (cause : Fault) (rest : Inflow)

namespace Inflow

/-- What it comes to that bytes are missing: they may still arrive, or the stream ends within a
frame. -/
def short (s : Inflow) : FrameRead :=
  if s.ended then .broken (.input .unexpectedEnd) s.drain else .waiting

/-- Reads one frame. -/
def readFrame (s : Inflow) : FrameRead :=
  match s.take? FrameHeader.size with
  | none => s.short
  | some (head, behind) =>
    match FrameHeader.decode head with
    | .error m => .broken (.malformedFrame m) behind
    | .ok header =>
      match behind.take? header.length.toNat with
      | none => s.short
      | some (body, rest) =>
        if header.checksum = protocolChecksum then .frame ⟨header, body⟩ rest else .dropped rest

/-- Reads frames until the stream breaks or has to wait: what was read, `none` for a dropped frame,
then the fault that ended it, if one did, and the stream behind. -/
def readFrames : (fuel : Nat) → Inflow → List (Option Frame) × Option Fault × Inflow
  | 0, s => ([], none, s)
  | fuel + 1, s =>
    match s.readFrame with
    | .waiting => ([], none, s)
    | .broken cause rest => ([], some cause, rest)
    | .frame f rest =>
      let (fs, e, rest) := readFrames fuel rest
      (some f :: fs, e, rest)
    | .dropped rest =>
      let (fs, e, rest) := readFrames fuel rest
      (none :: fs, e, rest)

/-- Reads all frames of a stream. A frame has at least one byte, which bounds their number. -/
def frames (s : Inflow) : List (Option Frame) × Option Fault × Inflow :=
  readFrames (s.bytes.length + 1) s

end Inflow

end EdgeGateway
