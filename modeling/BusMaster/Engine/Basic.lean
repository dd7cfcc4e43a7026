import Std.Data.TreeMap.AdditionalOperations
import BusMaster.Engine.Device
import BusMaster.Engine.Execution
import BusMaster.Engine.Flow
import BusMaster.Plant.Agenda
import BusMaster.Plant.Catalog

/-!
# The engine

The engine turns actions into exchanges, what they bring into states, and states written by the
host into actions. Four consumers do this, each with a flow of its own: actions are executed,
messages are spread over the channels of their dataset, states are turned into actions, and
findings into devices. What the host is told waits in a flow of reports.

This module holds the state of the engine and the calls of the host. None of them waits for the
bus. An action that finds its flow full is dropped and counted (`Engine.enqueue`).
-/

namespace BusMaster

/-- settings of an engine -/
structure EngineSettings where
  /-- capacity of every flow -/
  queueSize : Nat := 64
  /-- how often an action that got no answer is tried again -/
  maxRetries : UInt8 := 3
  deriving DecidableEq, Repr

/-- what the host is told -/
inductive Report where
  /-- a value of a channel -/
  | state (s : State)
  /-- a device was found -/
  | device (d : Device)
  deriving DecidableEq, Repr

/-- where the consumer of actions stands -/
inductive Execution where
  | idle
  /-- before the next step of an action -/
  | running (a : Action) (rest : Session Gain)
  /-- a request of the action is on its way -/
  | awaiting (a : Action) (p : Pending) (next : Except RequestFault Bytes → Session Gain)
  /-- a message waits for room -/
  | delivering (m : Message)
  /-- assignments wait for room -/
  | announcing (node : NodeId) (units : List Assignment)

/-- a message of an internal dataset, on its way to discovery -/
structure Notice where
  dataset : Dataset
  payload : Payload

/-- what discovery is still to be told of a message -/
inductive Telling where
  | nothing
  /-- the node of the dataset is still to be looked up -/
  | notice (n : Notice)
  /-- what waits for room -/
  | finding (f : Finding)

/-- where the consumer of messages stands: what is still to be done for the last one, in this
order -/
structure Spreading where
  /-- the reads that change bitmaps asked for and that are not submitted yet -/
  cascades : List Action := []
  /-- the states that are not reported yet -/
  states : List State := []
  telling : Telling := .nothing

/-- the engine -/
structure Engine where
  settings : EngineSettings
  transceiver : Transceiver
  catalog : Catalog := {}
  agenda : Agenda := {}
  nodes : Std.TreeMap NodeId Node := {}
  /-- the consumers have not been stopped -/
  isRunning : Bool := true
  actions : Flow Action := .empty settings.queueSize
  messages : Flow Message := .empty settings.queueSize
  states : Flow State := .empty settings.queueSize
  findings : Flow Finding := .empty settings.queueSize
  reports : Flow Report := .empty settings.queueSize
  execution : Execution := .idle
  spreading : Spreading := {}
  /-- devices found and not reported yet -/
  found : List Device := []
  /-- actions given up after their last retry -/
  failures : Nat := 0
  /-- actions that found their flow full -/
  dropped : Nat := 0

/-- what the engine has counted -/
structure Counters where
  messages : Nat
  timeouts : Nat
  failures : Nat
  dropped : Nat
  deriving DecidableEq, Repr

/-- the counters in words -/
def Counters.toText (c : Counters) : String :=
  s!"messages: {c.messages} timeouts: {c.timeouts} failures: {c.failures} dropped: {c.dropped}"

namespace Engine

/-- the counters -/
def counters (e : Engine) : Counters :=
  ⟨e.transceiver.messages, e.transceiver.timeouts, e.failures, e.dropped⟩

/-- log lines -/
def note (e : Engine) (lines : List LogLine) : Engine :=
  { e with transceiver := e.transceiver.note lines }

/-- log a line -/
def say (e : Engine) (level : LogLevel) (source : LogSource) (text : String) : Engine :=
  e.note [⟨level, source, text⟩]

/-- open the link -/
def connect (e : Engine) : Except RequestFault Unit × Engine :=
  let (result, t) := e.transceiver.connect
  (result, { e with transceiver := t })

/-- close the link -/
def disconnect (e : Engine) : Engine := { e with transceiver := e.transceiver.disconnect }

/-- register a node -/
def addNode (e : Engine) (id : NodeId) (node : Node) : Engine :=
  { e with nodes := e.nodes.insert id node }.say .info .engine
    (nodeText id ++ " at unit " ++ node.unit.toText ++ " speaks " ++ node.protocol.label)

/-- forget a node with its actions, datasets and channels -/
def removeNode (e : Engine) (id : NodeId) : Engine :=
  let (channels, withoutChannels) := e.catalog.removeChannels id
  let (datasets, catalog) := withoutChannels.removeDatasets id
  { e with agenda := e.agenda.remove id, catalog := catalog, nodes := e.nodes.erase id }.say
    .info .engine s!"removed {nodeText id} ({datasets} dataset(s), {channels} channel(s))"

/-- register a dataset -/
def addDataset (e : Engine) (key : String) (d : Dataset) : DatasetId × Engine :=
  let (id, catalog, lines) := e.catalog.addDataset key d
  (id, { e with catalog := catalog }.note lines)

/-- register a channel -/
def addChannel (e : Engine) (ch : Channel) : Bool × Engine :=
  let (taken, catalog, lines) := e.catalog.addChannel ch
  (taken, { e with catalog := catalog }.note lines)

/-- put an action into its flow; one that finds no room is dropped -/
def enqueue (e : Engine) (a : Action) : Engine :=
  if e.isRunning then
    match e.actions.push? a with
    | some actions => { e with actions := actions }
    | none => { e with dropped := e.dropped + 1 }.say .warn .engine
        ("action queue full, dropping: " ++ a.toText)
  else e.say .debug .engine ("controller stopped, discarding: " ++ a.toText)

/-- put actions into their flow one after another -/
def enqueueAll (e : Engine) (actions : List Action) : Engine := actions.foldl enqueue e

/-- schedule an action by its repeat policy -/
def submit (e : Engine) (a : Action) : Engine :=
  { e with agenda := e.agenda.add a }.enqueueAll (Agenda.handsOut a)

/-- schedule the read of a dataset -/
def pollDataset (e : Engine) (id : DatasetId) : Except RequestFault Unit × Engine :=
  match e.catalog.readAction id with
  | .ok a => (.ok (), e.submit a)
  | .error fault => (.error (.configuration fault), e)

/-- schedule the reads of all datasets of a node and count them -/
def pollNode (e : Engine) (id : NodeId) : Except RequestFault Nat × Engine :=
  if e.nodes.contains id then
    let datasets := e.catalog.datasetsOf id
    (.ok datasets.length, datasets.foldl (fun e (id, d) => e.submit (Action.ofDataset id d)) e)
  else (.error (.configuration .unknownNode), e)

/-- hand out the slow actions and count them -/
def tickSlow (e : Engine) : Nat × Engine := (e.agenda.slow.length, e.enqueueAll e.agenda.slow)

/-- hand out the fast actions and count them -/
def tickFast (e : Engine) : Nat × Engine := (e.agenda.fast.length, e.enqueueAll e.agenda.fast)

/-- the room for a state, unless the consumers were stopped or the flow is full -/
def write? (e : Engine) (s : State) : Option Engine :=
  if e.isRunning then (e.states.push? s).map fun states => { e with states := states } else none

/-- take the oldest report -/
def takeReport (e : Engine) : Option Report × Engine :=
  match e.reports.pop? with
  | some (r, reports) => (some r, { e with reports := reports })
  | none => (none, e)

/-- turn a state written by the host into an action -/
def compose (e : Engine) (s : State) : Engine :=
  match e.catalog.buildWrite s with
  | .ok a => (e.say .debug .fanout ("write " ++ s.toText ++ " as " ++ a.toText)).submit a
  | .error fault => e.say .warn .fanout ("unable to write " ++ s.toText ++ ": " ++ fault.message)

/-- stop the consumers, discard what waits for them, and close the link; a state that waits is
looked at once more, so that one that cannot be written is complained about -/
def stop (e : Engine) : Engine :=
  if e.isRunning then
    let stopped := { e with
      isRunning := false
      actions := e.actions.clear
      messages := e.messages.clear
      states := e.states.clear
      findings := e.findings.clear
      execution := .idle
      spreading := {}
      found := [] }
    let lines := ["action", "message", "state", "discovery"].map fun consumer =>
      (⟨.debug, .engine, consumer ++ " task stopped"⟩ : LogLine)
    ((e.states.items.foldl compose stopped).note lines).disconnect
  else e.disconnect

end Engine

end BusMaster
