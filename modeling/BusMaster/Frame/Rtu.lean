import BusMaster.Checksum
import BusMaster.Frame.Length
import BusMaster.Frame.Reception

/-!
# Binary frames

A binary frame is unit id, function code and data followed by a CRC; nothing marks where it begins
or ends. The receiver takes what came in for a frame as long as it can be one: its first two bytes
are those of the request, and its CRC is right once the length it gives has come in. When it cannot
(`Verdict.reject`), the first byte is dropped and the rest tried again, at most 64 times.
-/

namespace BusMaster.Rtu

/-- the frame of a request -/
def encode (adu : Bytes) : Bytes := appendCrc adu

/-- what bytes are as the start of a response -/
inductive Verdict where
  /-- no response starts with these -/
  | reject (fault : FrameFault)
  /-- so many more bytes are needed -/
  | need (count : Nat)
  /-- a response, with its checksum -/
  | complete (adu : Bytes)
  deriving DecidableEq, Repr

/-- the body of a frame, if its CRC is right -/
def validate (frame : Bytes) : Except FrameFault Bytes :=
  match splitCrc frame with
  | none => .error (.tooShort frame.length)
  | some (adu, received) =>
    let expected := crc16 adu
    if received = expected then .ok adu else .error (.crcMismatch received expected)

/-- what bytes are as the start of a response to a request -/
def judge (unit function : UInt8) (rx : Bytes) : Verdict :=
  match checkHeader unit function rx with
  | .error fault => .reject fault
  | .ok () =>
    match responseLength rx with
    | .error fault => .reject fault
    | .ok (.atLeast n) => .need (max (n - rx.length) 1)
    | .ok (.exact n) =>
      if rx.length < n + 2 then .need (n + 2 - rx.length)
      else
        match validate (rx.take (n + 2)) with
        | .ok adu => .complete adu
        | .error fault => .reject fault

/-- the most bytes that are dropped before a frame -/
def maxDropped : Nat := 64

/-- longest frame, the CRC included -/
def maxFrame : Nat := 256

/-- a receiver at work -/
structure Hunt where
  unit : UInt8
  function : UInt8
  /-- bytes that may start a frame -/
  rx : Bytes := []
  /-- bytes that did not -/
  dropped : Nat := 0
  deriving DecidableEq, Repr

/-- the log line of a frame -/
def frameLine (detail : FrameDetail) (direction : String) (adu : Bytes) : List LogLine :=
  if detail = .nothing then []
  else
    let text := frameText detail adu fun data =>
      s!" len: {data.length} crc: {markedWord (crc16 adu)}"
    [⟨.info, .rtu, s!"RTU {direction} - " ++ text⟩]

/-- drop bytes until what is left may be a response -/
def hunt (detail : FrameDetail) (h : Hunt) : Progress Hunt × List LogLine :=
  match judge h.unit h.function h.rx with
  | .complete adu => (.done (.ok adu), frameLine detail "RX" adu)
  | .need count => (.ask (min count maxFrame) h, [])
  | .reject fault =>
    if _ : maxDropped ≤ h.dropped then
      (.done (.error .resyncLimit),
        [⟨.warn, .rtu, "RTU resync limit reached: " ++ fault.message⟩])
    else
      let (progress, lines) := hunt detail { h with rx := h.rx.drop 1, dropped := h.dropped + 1 }
      (progress, ⟨.debug, .rtu, "RTU resync: " ++ fault.message⟩ :: lines)
termination_by maxDropped - h.dropped
decreasing_by omega

/-- the receiver of binary frames -/
def receiver (detail : FrameDetail) : Receiver Hunt where
  poll := hunt detail
  push h data := { h with rx := h.rx ++ data }

end BusMaster.Rtu
