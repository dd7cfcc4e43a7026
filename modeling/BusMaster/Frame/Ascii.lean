import BusMaster.Checksum
import BusMaster.Frame.Reception
import BusMaster.Hex

/-!
# Text frames

A text frame is a line: a colon, two hex digits for each byte of unit id, function code, data and
LRC, and a carriage return before the line feed. The receiver waits for a line feed. What stands
before the last colon of the line is noise, and so is what came in after its end.
-/

namespace BusMaster.Ascii

/-- the colon that starts a frame -/
def start : UInt8 := 0x3A

/-- the line feed that ends it -/
def lineFeed : UInt8 := 0x0A

/-- the carriage return before the line feed -/
def carriageReturn : UInt8 := 0x0D

/-- longest line: a colon, two digits for each of 255 bytes, and the line end -/
def maxLine : Nat := 513

/-- the line of a request -/
def encode (adu : Bytes) : Bytes :=
  start :: Hex.encode adu ++ Hex.encode [lrc adu] ++ [carriageReturn, lineFeed]

/-- what stands after the last colon of a line -/
def afterLastStart : Bytes → Option Bytes
  | [] => none
  | b :: rest =>
    match afterLastStart rest with
    | some body => some body
    | none => if b = start then some rest else none

/-- the line without a carriage return at its end -/
def dropReturn (line : Bytes) : Bytes :=
  if line.getLast? = some carriageReturn then line.dropLast else line

/-- the response in a line, its line feed taken off -/
def parseLine (unit function : UInt8) (line : Bytes) : Except FrameFault Bytes := do
  let body ← match afterLastStart line with
    | some body => pure body
    | none => throw .missingStart
  let bytes ← Hex.decode (dropReturn body)
  if bytes.length < 3 then throw (.tooShort bytes.length)
  let adu := bytes.dropLast
  let received := bytes.getLastD 0
  if received ≠ lrc adu then throw (.lrcMismatch received (lrc adu))
  checkHeader unit function adu
  return adu

/-- a receiver at work -/
structure Listening where
  unit : UInt8
  function : UInt8
  line : Bytes := []
  deriving DecidableEq, Repr

/-- the log line of a frame -/
def frameLine (detail : FrameDetail) (direction : String) (adu : Bytes) : List LogLine :=
  if detail = .nothing then []
  else
    let text := frameText detail adu fun data =>
      s!" len: {data.length} lrc: {markedByte (lrc adu)}"
    [⟨.info, .ascii, s!"ASCII {direction} - " ++ text⟩]

/-- the warning about bytes after the line end -/
def discardLine (count : Nat) : List LogLine :=
  if count = 0 then []
  else [⟨.warn, .ascii, s!"ASCII discarded {count} bytes after line end"⟩]

/-- a whole line is a response or not, and without one more bytes are read up to a limit -/
def listen (detail : FrameDetail) (l : Listening) : Progress Listening × List LogLine :=
  match l.line.findIdx? (· == lineFeed) with
  | some last =>
    let discarded := discardLine (l.line.length - last - 1)
    match parseLine l.unit l.function (l.line.take last) with
    | .ok adu => (.done (.ok adu), discarded ++ frameLine detail "RX" adu)
    | .error fault => (.done (.error fault), discarded)
  | none =>
    if maxLine < l.line.length then (.done (.error (.tooLarge l.line.length)), [])
    else (.ask maxLine l, [])

/-- the receiver of text frames -/
def receiver (detail : FrameDetail) : Receiver Listening where
  poll := listen detail
  push l data := { l with line := l.line ++ data }

end BusMaster.Ascii
