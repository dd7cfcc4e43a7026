import BusMaster.Plant.Channel
import BusMaster.Range

/-!
# Actions, messages and states

An action is one piece of work on the wire. The answer to a read travels on as a message, and what
a message says about a channel is a state. A state may also come from the host, as a write.
-/

namespace BusMaster

/-- what an action does on the wire -/
inductive ActionClass where
  | read
  | write
  /-- a diagnostic query whose result is logged -/
  | status
  deriving DecidableEq, Repr

/-- the kind of action as it is shown -/
def ActionClass.label : ActionClass → String
  | .read => "Read"
  | .write => "Write"
  | .status => "Status"

/-- one piece of work on the wire -/
structure Action where
  dataset : DatasetId
  node : NodeId
  cls : MessageClass
  action : ActionClass
  repeats : RepeatPolicy := .once
  address : UInt16
  offset : UInt16 := 0
  /-- number of bits or registers -/
  length : UInt16
  /-- data of a write -/
  payload : Option Payload := none
  /-- the answer drives discovery -/
  internal : Bool := false
  /-- how often the action was tried again -/
  retries : UInt8 := 0
  deriving Repr

namespace Action

/-- the action that polls a dataset: a query for a status class, the hand-out of addresses, else
a read -/
def ofDataset (id : DatasetId) (d : Dataset) : Action where
  dataset := id
  node := d.node
  cls := d.cls
  action :=
    if d.cls.isStatus then .status
    else if d.cls = .setLogicalAddress then .write
    else .read
  repeats := d.repeats
  address := d.address
  offset := d.offset
  length := d.length
  internal := d.internal

/-- the same action once more -/
def retry (a : Action) : Action :=
  { a with repeats := .once, retries := if a.retries = 255 then 255 else a.retries + 1 }

/-- the addresses of the action -/
def range (a : Action) : AddressRange := ⟨a.address, a.offset, a.length⟩

/-- the action in words -/
def toText (a : Action) : String :=
  let again := if 0 < a.retries then s!" retry {a.retries}" else ""
  a.action.label ++ " " ++ a.cls.label ++ " " ++ nodeText a.node ++ " " ++ datasetText a.dataset
    ++ " (" ++ a.range.toText ++ ")" ++ again

end Action

/-- the answer to a read, on its way to its dataset -/
structure Message where
  dataset : DatasetId
  payload : Payload
  internal : Bool := false
  deriving Repr

/-- the value of a channel, passed on to the host or written by it -/
structure State where
  channel : ChannelId
  value : Value
  deriving DecidableEq, Repr

/-- the state in words -/
def State.toText (s : State) : String := s.channel ++ " = " ++ s.value.toText

end BusMaster
