import BusMaster.Client.Arguments
import BusMaster.Engine.Schedule

/-!
# The client

The client opens one link, registers the device at its end as node 1, carries out one command and
closes the link. Polling goes on for as long as the link can be opened again after a failure. A
write ends one response timeout after its request went out, the hand-out of addresses once three
response timeouts have passed without a report.

`Client.start` sets out the command, and each `Client.step` goes on to the next moment at which the
client does something itself; in between, the engine works. What is to be printed is in `printed`.
-/

namespace BusMaster

/-- why the client gave up -/
inductive ClientFault where
  /-- neither kind of link is given -/
  | noLink
  /-- a TCP endpoint without a readable port -/
  | badEndpoint (text : String)
  /-- a framing that the link cannot carry -/
  | badFraming (framing : Framing)
  /-- a channel that does not fit its dataset -/
  | rejected (id : ChannelId)
  /-- more values than a dataset holds -/
  | tooMany (quantity : UInt16) (width : Nat)
  | request (fault : RequestFault)
  deriving DecidableEq, Repr

/-- the wording of a client fault -/
def ClientFault.message : ClientFault → String
  | .noLink => "either --tcp or --serial must be given"
  | .badEndpoint text => "bad TCP endpoint: " ++ text
  | .badFraming framing => framing.label ++ " cannot be used on this link"
  | .rejected id => "channel was rejected: " ++ id
  | .tooMany quantity width => s!"{quantity} values of {width} bits do not fit a dataset"
  | .request fault => fault.message

/-- the value a text stands for: a truth value, a whole number of 64 bits, a decimal, or itself -/
def Value.ofText (text : String) : Value :=
  match text, readInt Int64.minValue.toInt Int64.maxValue.toInt text, readDecimal text with
  | "true", _, _ => .bool true
  | "false", _, _ => .bool false
  | _, some i, _ => .int i
  | _, none, some x => .float x
  | _, none, none => .text text

/-- host and port of an endpoint: what stands before its last colon and what stands after it -/
def readEndpoint (text : String) : Option Endpoint := do
  let (port, host) := text.toList.reverse.span fun c => c ≠ ':'
  guard !host.isEmpty
  let port ← readUpTo 0xFFFF (String.ofList port.reverse)
  return .tcp (String.ofList (host.drop 1).reverse) (UInt16.ofNat port)

namespace LinkOptions

/-- where to connect -/
def endpoint (o : LinkOptions) : Except ClientFault Endpoint :=
  match o.tcp, o.serial with
  | some text, _ =>
    match readEndpoint text with
    | some endpoint => .ok endpoint
    | none => .error (.badEndpoint text)
  | none, some path => .ok (.serial path { baud := o.baud, parity := o.parity })
  | none, none => .error .noLink

/-- the framing of a link for which none is given -/
def usualFraming : Endpoint → Framing
  | .tcp .. => .bridge
  | .serial .. => .rtu

/-- the settings of the transceiver -/
def settings (o : LinkOptions) : Except ClientFault TransportSettings := do
  let endpoint ← o.endpoint
  let framing := o.framing.getD (usualFraming endpoint)
  let settings : TransportSettings :=
    { endpoint := endpoint, framing := framing, timeout := o.timeout * millisecond }
  if settings.isSupported then return settings else throw (.badFraming framing)

end LinkOptions

/-- the length of a dataset that holds so many values: bits, or registers -/
def DatasetOptions.lengthFor (o : DatasetOptions) (quantity : UInt16) :
    Except ClientFault UInt16 :=
  let bits := quantity.toNat * o.value.width
  let length := if o.cls.isBits then bits else (bits + 15) / 16
  if length < UInt16.size then .ok (UInt16.ofNat length) else .error (.tooMany quantity o.value.width)

/-- what the client waits for -/
inductive Activity where
  /-- the next tick -/
  | polling (period : Nat) (fast : Bool) (next : Moment)
  /-- the request of a write; it is looked for every ten milliseconds -/
  | watching (before : Nat) (deadline next : Moment)
  /-- the end of the exchange of a write -/
  | lingering (deadline : Moment)
  /-- a report, for so long -/
  | enumerating (quiet : Nat) (deadline : Moment)
  /-- nothing any more -/
  | finished (fault : Option ClientFault)
  deriving Repr

/-- the client at work -/
structure Client where
  engine : Engine
  activity : Activity
  /-- what was printed so far, each text with a line feed to be put behind it -/
  printed : List String := []

namespace Client

/-- the node at the end of the link -/
def node : NodeId := 1

/-- the client with texts printed -/
def print (c : Client) (texts : List String) : Client := { c with printed := c.printed ++ texts }

/-- the end: stop the engine and print the fault -/
def finish (c : Client) (fault : Option ClientFault) : Client :=
  { c with engine := c.engine.stop, activity := .finished fault }.print
    (fault.toList.map fun (f : ClientFault) => "error: " ++ f.message)

/-- register the dataset of the command -/
def addDataset (e : Engine) (o : DatasetOptions) (length : UInt16) (repeats : RepeatPolicy) :
    DatasetId × Engine :=
  e.addDataset "cli"
    { node := node, cls := o.cls, address := o.address, length := length, offset := o.offset,
      repeats := repeats }

/-- register channels, up to the first that does not fit -/
def addChannels (e : Engine) : List Channel → Option ClientFault × Engine
  | [] => (none, e)
  | ch :: rest =>
    match e.addChannel ch with
    | (true, e) => addChannels e rest
    | (false, e) => (some (.rejected ch.id), e)

/-- set out the polling of so many values -/
def startPoll (c : Client) (o : DatasetOptions) (quantity : UInt16) (period : Nat) (fast : Bool) :
    Client :=
  match o.lengthFor quantity with
  | .error fault => c.finish (some fault)
  | .ok length =>
    let (dataset, e) := addDataset c.engine o length (if fast then .fast else .slow)
    let channels : List Channel := (List.range quantity.toNat).map fun index =>
      { id := toString (o.address.toNat + index), dataset := dataset
        index := UInt16.ofNat index, cls := o.value }
    match addChannels e channels with
    | (some fault, e) => { c with engine := e }.finish (some fault)
    | (none, e) =>
      match e.pollDataset dataset with
      | (.error fault, e) => { c with engine := e }.finish (some (.request fault))
      | (.ok (), e) =>
        { c with engine := e, activity := .polling (period * millisecond) fast e.now }

/-- milliseconds between two looks for the request of a write -/
def lookInterval : Nat := 10 * millisecond

/-- set out the write of a value -/
def startWrite (c : Client) (o : DatasetOptions) (index : UInt16) (text : String) : Client :=
  match o.lengthFor (if index = 0xFFFF then index else index + 1) with
  | .error fault => c.finish (some fault)
  | .ok length =>
    let (dataset, e) := addDataset c.engine o length .once
    let channel : Channel := { id := "value", dataset := dataset, index := index, cls := o.value }
    match addChannels e [channel] with
    | (some fault, e) => { c with engine := e }.finish (some fault)
    | (none, e) =>
      match e.write ⟨channel.id, Value.ofText text⟩ with
      | (.error fault, e) => { c with engine := e }.finish (some (.request fault))
      | (.ok (), e) => { c with
        engine := e
        activity := .watching e.counters.messages (e.now + 5000 * millisecond)
          (e.now + lookInterval) }

/-- set out the hand-out of logical addresses -/
def startEnumerate (c : Client) (first : UInt8) : Client :=
  let (dataset, e) := c.engine.addDataset "enumerate"
    { node := node, cls := .setLogicalAddress, address := first.toUInt16, length := 1 }
  match e.pollDataset dataset with
  | (.error fault, e) => { c with engine := e }.finish (some (.request fault))
  | (.ok (), e) =>
    let quiet := 3 * e.transceiver.settings.timeout
    { c with engine := e, activity := .enumerating quiet (e.now + quiet) }

/-- set out a command -/
def startCommand (c : Client) : Command → Client
  | .poll o quantity period fast => c.startPoll o quantity period fast
  | .write o index text => c.startWrite o index text
  | .enumerate first => c.startEnumerate first

/-- open the link, register the node and set out the command; `attempts` is what the attempts to
open the link will meet -/
def start (arguments : Arguments) (attempts : List Attempt) : Except ClientFault Client := do
  let o := arguments.link
  let transceiver : Transceiver :=
    { settings := ← o.settings, detail := o.detail, attempts := attempts }
  match Engine.connect { settings := {}, transceiver := transceiver } with
  | (.error fault, e) => return (Client.mk e (.finished none) []).finish (some (.request fault))
  | (.ok (), e) =>
    let registered := e.addNode node ⟨⟨o.unit⟩, o.protocol⟩
    return (Client.mk registered (.finished none) []).startCommand arguments.command

/-- the line a report is printed as while polling -/
def pollLine : Report → String
  | .state s => s.toText
  | .device d => d.toDetail

/-- the line a report is printed as while addresses are handed out -/
def enumerateLine? : Report → Option String
  | .state _ => none
  | .device d =>
    match d.serial with
    | some serial => some s!"serial {serial} -> unit {d.unit.toText}"
    | none => some d.toDetail

/-- open the link again if it failed -/
def reconnect (e : Engine) : Except RequestFault Unit × Engine :=
  if e.transceiver.state = .connected then (.ok (), e) else e.connect

/-- go on to the next moment at which the client does something -/
def step (c : Client) : Client :=
  match c.activity with
  | .polling period fast next =>
    let (told, e) := c.engine.proceed next
    let c := c.print ((told.map Prod.snd).map pollLine)
    match reconnect e with
    | (.error fault, e) => { c with engine := e }.finish (some (.request fault))
    | (.ok (), e) =>
      let ticked := if fast then e.tickFast.2 else e.tickSlow.2
      { c with engine := ticked, activity := .polling period fast (next + max period 1) }
  | .watching before deadline next =>
    let (_, e) := c.engine.proceed next
    let c := { c with engine := e }
    if e.counters.messages ≠ before then
      { c with activity := .lingering (next + e.transceiver.settings.timeout) }
    else if deadline < next then c.finish (some (.request .noReply))
    else { c with activity := .watching before deadline (next + lookInterval) }
  | .lingering deadline =>
    let (_, e) := c.engine.proceed deadline
    { c with engine := e }.finish none
  | .enumerating quiet deadline =>
    let (told, e) := c.engine.proceed deadline
    let c := { c with engine := e }.print
      ((told.map Prod.snd).filterMap enumerateLine?)
    match told.getLast? with
    | some (moment, _) => { c with activity := .enumerating quiet (moment + quiet) }
    | none => c.finish none
  | .finished _ => c

/-- the client has nothing more to do -/
def isFinished (c : Client) : Bool :=
  match c.activity with
  | .finished _ => true
  | _ => false

/-- go on for at most so many steps -/
def run : Nat → Client → Client
  | 0, c => c
  | steps + 1, c => if c.isFinished then c else run steps c.step

end Client

end BusMaster
