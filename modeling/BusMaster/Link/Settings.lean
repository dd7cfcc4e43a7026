import BusMaster.Fault

/-!
# Settings of a link

A master reaches its devices over a serial port or over a TCP connection, and frames its requests
in one of three ways. Two combinations make no sense: a bridge's header on a serial port, and text
lines over TCP. Between two exchanges the line rests for the pacing delay, three and a half
characters on a serial port unless set otherwise.
-/

namespace BusMaster

/-- how requests are framed -/
inductive Framing where
  /-- binary, a CRC at the end -/
  | rtu
  /-- a line of hex digits behind a colon, an LRC at the end -/
  | ascii
  /-- a header of six bytes and no checksum, for a bridge behind a TCP connection -/
  | bridge
  deriving DecidableEq, Repr

namespace Framing

/-- the framing a word names -/
def ofName (name : String) : Except ConfigFault Framing :=
  match name with
  | "rtu" => .ok .rtu
  | "ascii" => .ok .ascii
  | "bridge" | "rtu-over-tcp" => .ok .bridge
  | _ => .error .unknownName

/-- the framing as it is shown -/
def label : Framing → String
  | .rtu => "Rtu"
  | .ascii => "Ascii"
  | .bridge => "Bridge"

end Framing

/-- bits of a character on a serial line -/
inductive DataBits where
  | five
  | six
  | seven
  | eight
  deriving DecidableEq, Repr

namespace DataBits

/-- the setting for a number of bits -/
def ofNumber (n : UInt8) : Except ConfigFault DataBits :=
  match n with
  | 5 => .ok .five
  | 6 => .ok .six
  | 7 => .ok .seven
  | 8 => .ok .eight
  | _ => .error .valueOutOfRange

/-- the setting as it is shown -/
def label : DataBits → String
  | .five => "Five"
  | .six => "Six"
  | .seven => "Seven"
  | .eight => "Eight"

end DataBits

/-- the check bit of a character -/
inductive Parity where
  | none
  | odd
  | even
  deriving DecidableEq, Repr

namespace Parity

/-- the parity a word names -/
def ofName (name : String) : Except ConfigFault Parity :=
  match name with
  | "none" => .ok .none
  | "odd" => .ok .odd
  | "even" => .ok .even
  | _ => .error .unknownName

/-- the parity as it is shown -/
def label : Parity → String
  | .none => "None"
  | .odd => "Odd"
  | .even => "Even"

end Parity

/-- stop bits after a character -/
inductive StopBits where
  | one
  | two
  deriving DecidableEq, Repr

namespace StopBits

/-- the setting for a number of bits -/
def ofNumber (n : UInt8) : Except ConfigFault StopBits :=
  match n with
  | 1 => .ok .one
  | 2 => .ok .two
  | _ => .error .valueOutOfRange

/-- the setting as it is shown -/
def label : StopBits → String
  | .one => "One"
  | .two => "Two"

end StopBits

/-- parameters of a serial line -/
structure SerialSettings where
  baud : UInt32 := 9600
  dataBits : DataBits := .eight
  parity : Parity := .none
  stopBits : StopBits := .one
  deriving DecidableEq, Repr

/-- where a master connects -/
inductive Endpoint where
  | serial (path : String) (settings : SerialSettings)
  | tcp (host : String) (port : UInt16)
  deriving DecidableEq, Repr

namespace Endpoint

/-- the endpoint in short -/
def toText : Endpoint → String
  | .serial path settings => s!"serial {path} @ {settings.baud} baud"
  | .tcp host port => s!"tcp {host}:{port}"

/-- text in quotes, the quote and the unprintable escaped -/
def quotedText (s : String) : String :=
  "\"" ++ String.join (s.toList.map fun c =>
    if c = '\x22' then "\\\"" else if c = '\x27' then "'" else escaped c) ++ "\""

/-- the endpoint with all its parts -/
def toDetail : Endpoint → String
  | .serial path s =>
    "Serial \x7b path: " ++ quotedText path ++ ", settings: SerialSettings \x7b baud_rate: "
      ++ toString s.baud ++ ", data_bits: " ++ s.dataBits.label ++ ", parity: " ++ s.parity.label
      ++ ", stop_bits: " ++ s.stopBits.label ++ " \x7d \x7d"
  | .tcp host port =>
    "Tcp \x7b host: " ++ quotedText host ++ ", port: " ++ toString port ++ " \x7d"

end Endpoint

/-- nanoseconds in a millisecond -/
def millisecond : Nat := 1000000

/-- a length of time as it is waited for: timers go off on whole milliseconds -/
def wholeMilliseconds (length : Nat) : Nat :=
  (length + (millisecond - 1)) / millisecond * millisecond

/-- no timer goes off early -/
theorem le_wholeMilliseconds (length : Nat) : length ≤ wholeMilliseconds length := by
  unfold wholeMilliseconds millisecond
  omega

/-- three and a half characters of eleven bits, fixed above 19200 baud; worked out in whole
nanoseconds, first the character -/
def interFrameDelay (baud : UInt32) : Nat :=
  if baud = 0 ∨ 19200 < baud then 1750000 else 35 * (11000000000 / baud.toNat) / 10

/-- settings of a transceiver -/
structure TransportSettings where
  endpoint : Endpoint
  framing : Framing
  /-- nanoseconds a response may take -/
  timeout : Nat := 1000 * millisecond
  /-- nanoseconds of rest between two exchanges, derived from the endpoint when unset -/
  pacing : Option Nat := none
  deriving DecidableEq, Repr

namespace TransportSettings

/-- the framing can be used on the endpoint -/
def isSupported (s : TransportSettings) : Bool :=
  match s.endpoint, s.framing with
  | .serial .., .bridge => false
  | .tcp .., .ascii => false
  | _, _ => true

/-- nanoseconds of rest between two exchanges -/
def pacingDelay (s : TransportSettings) : Nat :=
  match s.pacing, s.endpoint with
  | some delay, _ => delay
  | none, .serial _ line => interFrameDelay line.baud
  | none, .tcp .. => 0

end TransportSettings

/-- how much of a frame is logged -/
inductive FrameDetail where
  | nothing
  | header
  | payload
  deriving DecidableEq, Repr

/-- the frame detail a word names -/
def FrameDetail.ofName (name : String) : Except ConfigFault FrameDetail :=
  match name with
  | "nothing" => .ok .nothing
  | "header" => .ok .header
  | "payload" => .ok .payload
  | _ => .error .unknownName

/-- how much of the raw bytes is logged -/
inductive RawDetail where
  | nothing
  | length
  | data
  deriving DecidableEq, Repr

/-- the raw detail a word names -/
def RawDetail.ofName (name : String) : Except ConfigFault RawDetail :=
  match name with
  | "nothing" => .ok .nothing
  | "length" => .ok .length
  | "data" => .ok .data
  | _ => .error .unknownName

/-- how much of an exchange is logged -/
structure Detail where
  frame : FrameDetail := .nothing
  raw : RawDetail := .nothing
  deriving DecidableEq, Repr

end BusMaster
