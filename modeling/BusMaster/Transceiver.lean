import BusMaster.Frame.Ascii
import BusMaster.Frame.Bridge
import BusMaster.Frame.Rtu

/-!
# The transceiver

The transceiver owns the link and performs one exchange at a time. An exchange has two parts:
`begin` waits until the line has rested and writes the frame of the request, `finish` reads the
response until the deadline; `transact` is both. Each way out of an exchange goes through
`conclude`, which sets down when the exchange ended, and closes the link if it was the link that
failed.

What attempts to open a link will meet is given with the transceiver (`attempts`), so that its runs
can be followed without a device. Time is its own clock, which moves only while it waits.
-/

namespace BusMaster

/-- whether a link is open -/
inductive ConnectionState where
  | disconnected
  | connecting
  | connected
  deriving DecidableEq, Repr

/-- the state in words -/
def ConnectionState.toText : ConnectionState → String
  | .disconnected => "disconnected"
  | .connecting => "connecting"
  | .connected => "connected"

/-- what a transceiver did -/
inductive Event where
  /-- an attempt to open a link -/
  | opening (endpoint : Endpoint)
  /-- a frame went out -/
  | sent (moment : Moment) (frame : Bytes)
  /-- an exchange was over, by a fault or without one -/
  | ended (moment : Moment) (fault : Option RequestFault)
  /-- a line of the log -/
  | line (l : LogLine)
  deriving DecidableEq, Repr

/-- the owner of a link -/
structure Transceiver where
  settings : TransportSettings
  detail : Detail := {}
  /-- how the next attempts to open the link go; nothing is there for later ones -/
  attempts : List Attempt := []
  line : Option Line := none
  state : ConnectionState := .disconnected
  /-- id of the next exchange -/
  nextId : UInt16 := 1
  /-- when the last exchange on the open link ended -/
  lastEnd : Option Moment := none
  now : Moment := 0
  /-- exchanges begun on an open link -/
  messages : Nat := 0
  /-- those that ended at their deadline -/
  timeouts : Nat := 0
  /-- what it did, the latest first -/
  journal : List Event := []

/-- an exchange whose frame is on its way -/
structure Pending where
  request : Bytes
  id : UInt16
  /-- when the frame went out, which is when listening began -/
  since : Moment
  deadline : Moment
  deriving DecidableEq, Repr

/-- how far an exchange has come -/
inductive Stage where
  | finished (result : Except RequestFault Bytes)
  | waiting (pending : Pending)

namespace Transceiver

/-- set down an event -/
def record (t : Transceiver) (e : Event) : Transceiver := { t with journal := e :: t.journal }

/-- what the transceiver did, in order -/
def history (t : Transceiver) : List Event := t.journal.reverse

/-- log lines -/
def note (t : Transceiver) (lines : List LogLine) : Transceiver :=
  lines.foldl (fun t l => t.record (.line l)) t

/-- log a line of the transceiver itself -/
def say (t : Transceiver) (level : LogLevel) (text : String) : Transceiver :=
  t.record (.line ⟨level, .transceiver, text⟩)

/-- change the state; a change is logged -/
def setState (t : Transceiver) (state : ConnectionState) : Transceiver :=
  if t.state = state then t
  else
    { t with state := state }.say .debug
      ("transceiver " ++ t.state.toText ++ " -> " ++ state.toText)

/-- the result of the next attempt to open the link, and the attempts after it -/
def nextAttempt (t : Transceiver) : Attempt × List Attempt :=
  match t.attempts with
  | [] => (.error (OpenFault.nothingThere t.settings.endpoint), [])
  | attempt :: rest => (attempt, rest)

/-- open the link, closing one that is open -/
def connect (t : Transceiver) : Except RequestFault Unit × Transceiver :=
  let endpoint := t.settings.endpoint
  if !t.settings.isSupported then
    (.error .unsupported, t.say .warn
      (t.settings.framing.label ++ " framing is not supported on " ++ endpoint.toDetail))
  else
    let (attempt, rest) := t.nextAttempt
    let t := { t with line := none, attempts := rest }
    let t := (t.setState .connecting).record (.opening endpoint)
    match attempt with
    | .ok line =>
      let t := t.say .info ("connected: " ++ endpoint.toText)
      (.ok (), { t with line := some line, lastEnd := none }.setState .connected)
    | .error fault =>
      let fault := fault.toRequest endpoint
      let t := t.say .warn ("unable to connect to " ++ endpoint.toText ++ ": " ++ fault.message)
      (.error fault, t.setState .disconnected)

/-- close the link, if one is open -/
def disconnect (t : Transceiver) : Transceiver :=
  let closed :=
    match t.line with
    | some _ => { t with line := none }.say .info
        ("disconnected: " ++ t.settings.endpoint.toText)
    | none => t
  closed.setState .disconnected

/-- a request holds a unit id and a function code and fits a frame -/
def checkRequest (request : Bytes) : Except RequestFault Unit :=
  if request.length < 2 then .error (.frame (.tooShort request.length))
  else if maxAdu < request.length then .error (.configuration .frameTooLarge)
  else .ok ()

/-- an exception response is a fault -/
def checkException (adu : Bytes) : Except RequestFault Bytes :=
  match adu with
  | _ :: function :: code :: _ =>
    if function &&& FunctionCode.exceptionBit ≠ 0 then
      .error (.exception (ExceptionCode.ofByte code))
    else .ok adu
  | _ => .ok adu

/-- the frame of a request -/
def frameOf (framing : Framing) (id : UInt16) (request : Bytes) : Bytes :=
  match framing with
  | .rtu => Rtu.encode request
  | .ascii => Ascii.encode request
  | .bridge => Bridge.encode id request

/-- the log line of an outgoing frame -/
def outgoingLine (framing : Framing) (detail : FrameDetail) (id : UInt16) (request : Bytes) :
    List LogLine :=
  match framing with
  | .rtu => Rtu.frameLine detail "TX" request
  | .ascii => Ascii.frameLine detail "TX" request
  | .bridge => Bridge.frameLine detail "TX" id request

/-- the fault of a result -/
def faultOf (result : Except RequestFault Bytes) : Option RequestFault :=
  match result with
  | .error fault => some fault
  | .ok _ => none

/-- the end of an exchange: set down when it was, count a timeout, close a link that failed -/
def conclude (t : Transceiver) (result : Except RequestFault Bytes) : Transceiver :=
  let t := { t with lastEnd := some t.now }.record (.ended t.now (faultOf result))
  match result with
  | .error .noReply => { t with timeouts := t.timeouts + 1 }.say .warn "response timeout"
  | .error (.link fault) =>
    ({ t with line := none }.say .warn ("i/o error, closing link: " ++ fault.message)).setState
      .disconnected
  | _ => t

/-- the moment the line will have rested -/
def rested (t : Transceiver) : Moment :=
  match t.line, t.lastEnd with
  | some _, some last => max t.now (last + wholeMilliseconds t.settings.pacingDelay)
  | _, _ => t.now

/-- let the line rest and write the frame of a request; without `reply` that is all -/
def begin (t : Transceiver) (request : Bytes) (reply : Bool) : Stage × Transceiver :=
  match checkRequest request with
  | .error fault => (.finished (.error fault), t)
  | .ok () =>
    let id := t.nextId
    let t := { t with nextId := id + 1 }
    match t.line with
    | none => (.finished (.error .notConnected), t)
    | some line =>
      let t := { t with now := t.rested, messages := t.messages + 1 }
      let frame := frameOf t.settings.framing id request
      let t := t.note (outgoingLine t.settings.framing t.detail.frame id request)
      let t := t.note (rawLine t.detail.raw "TX" frame)
      match line.write with
      | .error fault => (.finished (.error (.link fault)), t.conclude (.error (.link fault)))
      | .ok line =>
        let t := { t with line := some line }.record (.sent t.now frame)
        if reply then (.waiting ⟨request, id, t.now, t.now + t.settings.timeout⟩, t)
        else (.finished (.ok []), t.conclude (.ok []))

/-- read for the receiver of the framing; what is heard does not depend on how far the clock has gone
on since the frame went out -/
def listen (t : Transceiver) (p : Pending) (incoming : List Arrival) : Reception :=
  let unit := p.request.getD 0 0
  let function := p.request.getD 1 0
  match t.settings.framing with
  | .rtu =>
    receive (Rtu.receiver t.detail.frame) t.detail.raw p.deadline ⟨unit, function, [], 0⟩
      incoming p.since []
  | .ascii =>
    receive (Ascii.receiver t.detail.frame) t.detail.raw p.deadline ⟨unit, function, []⟩
      incoming p.since []
  | .bridge =>
    receive (Bridge.receiver t.detail.frame) t.detail.raw p.deadline ⟨p.id, unit, function, []⟩
      incoming p.since []

/-- read the response to a request -/
def finish (t : Transceiver) (p : Pending) : Except RequestFault Bytes × Transceiver :=
  match t.line with
  | none => (.error .notConnected, t)
  | some line =>
    let heard := t.listen p line.incoming
    let t := { t with
      line := some { line with incoming := heard.rest }
      now := max t.now heard.moment }
    let result := heard.result.bind checkException
    (result, (t.note heard.lines).conclude result)

/-- the moment the reading of the response will be over -/
def heardBy (t : Transceiver) (p : Pending) : Moment :=
  match t.line with
  | some line => (t.listen p line.incoming).moment
  | none => t.now

/-- send a request and read the response to it -/
def transact (t : Transceiver) (request : Bytes) : Except RequestFault Bytes × Transceiver :=
  match t.begin request true with
  | (.finished result, t) => (result, t)
  | (.waiting p, t) => t.finish p

/-- send a request that nobody answers -/
def send (t : Transceiver) (request : Bytes) : Except RequestFault Unit × Transceiver :=
  match t.begin request false with
  | (.finished result, t) => (result.map fun _ => (), t)
  | (.waiting _, t) => (.ok (), t)

/-- let time pass -/
def advanceTo (t : Transceiver) (moment : Moment) : Transceiver :=
  { t with now := max t.now moment }

end Transceiver

end BusMaster
