import BusMaster.Engine.Basic

/-!
# Steps of the engine

Each of the four consumers works in small steps, and between two steps anything else may happen.
`advance?` is one step of one consumer. It gives nothing when the consumer has to wait: for an
item, or for room in the flow it puts its own items into. Only the execution of actions takes time
(`executionDue`).

An action that got no answer is submitted once more, as long as it has retries left; other faults
end it (`Engine.conclude`). A message is taken in by the catalog in one step, which sets out what is
to be done for it (`Engine.spread`). That is done step by step: the reads that change bitmaps ask for
are submitted, the states are reported, and for an internal dataset the node is looked up and
discovery is told. The host may do anything in between, such as removing the node.
-/

namespace BusMaster

/-- the consumers of the engine -/
inductive Consumer where
  /-- of actions -/
  | execution
  /-- of messages -/
  | spreading
  /-- of states written by the host -/
  | composition
  /-- of findings -/
  | announcement
  deriving DecidableEq, Repr

/-- all consumers -/
def Consumer.all : List Consumer := [.execution, .spreading, .composition, .announcement]

namespace Engine

/-- what an action does on the wire; its node must be known -/
def sessionOf (e : Engine) (a : Action) : Session Gain :=
  match e.nodes[a.node]? with
  | some node => a.session node
  | none => Action.refuse .unknownNode

/-- go on after the end of an action's session -/
def conclude (e : Engine) (a : Action) (result : Except RequestFault Gain) : Engine :=
  let idle := { e with execution := .idle }
  match result with
  | .ok .nothing => idle
  | .ok (.payload p) => { e with execution := .delivering ⟨a.dataset, p, a.internal⟩ }
  | .ok (.assigned units) => { e with execution := .announcing a.node units }
  | .error .noReply =>
    if a.retries < e.settings.maxRetries then
      (idle.say .debug .execution (a.toText ++ " timed out, retrying")).submit a.retry
    else
      { idle with failures := e.failures + 1 }.say .warn .execution
        (a.toText ++ s!" abandoned after {a.retries} retries")
  | .error fault =>
    let failed := idle.say .warn .execution (a.toText ++ " failed: " ++ fault.message)
    match fault with
    | .link _ => failed.disconnect
    | _ => failed

/-- one step of the execution of actions -/
def execute? (e : Engine) : Option Engine :=
  match e.execution with
  | .idle => e.actions.pop?.map fun (a, actions) =>
    { e with actions := actions, execution := .running a (e.sessionOf a) }
  | .running a (.done result) => some (e.conclude a result)
  | .running a (.note line rest) => some ({ e with execution := .running a rest }.note [line])
  | .running a (.tell request next) =>
    let (result, t) := e.transceiver.send request
    some { e with transceiver := t, execution := .running a (next result) }
  | .running a (.ask request next) =>
    match e.transceiver.begin request true with
    | (.finished result, t) =>
      some { e with transceiver := t, execution := .running a (next result) }
    | (.waiting p, t) => some { e with transceiver := t, execution := .awaiting a p next }
  | .awaiting a p next =>
    let (result, t) := e.transceiver.finish p
    some { e with transceiver := t, execution := .running a (next result) }
  | .delivering m => (e.messages.push? m).map fun messages =>
    { e with messages := messages, execution := .idle }
  | .announcing _ [] => some { e with execution := .idle }
  | .announcing node (unit :: units) =>
    (e.findings.push? (.assignment node unit)).map fun findings =>
      { e with findings := findings, execution := .announcing node units }

/-- the moment of the next step of the execution of actions -/
def executionDue (e : Engine) : Moment :=
  match e.execution with
  | .running _ (.ask _ _) | .running _ (.tell _ _) => e.transceiver.rested
  | .awaiting _ p _ => e.transceiver.heardBy p
  | _ => e.transceiver.now

/-- take in a message, and set out what is to be done for it -/
def spread (e : Engine) (m : Message) : Engine :=
  match e.catalog.apply m with
  | .error fault => e.say .warn .fanout
    ("dropping message for " ++ datasetText m.dataset ++ ": " ++ fault.message)
  | .ok (update, catalog, lines) =>
    let telling : Telling :=
      if update.dataset.internal then .notice ⟨update.dataset, m.payload⟩ else .nothing
    { e with
      catalog := catalog
      spreading := ⟨update.cascades, update.states, telling⟩ }.note lines

/-- look up the node of an internal dataset; without one there is nothing to tell discovery -/
def lookUp (e : Engine) (n : Notice) : Engine :=
  let d := n.dataset
  match e.nodes[d.node]? with
  | some node =>
    let finding := Finding.announcement d.node node.unit d.address n.payload
    { e with spreading := { telling := .finding finding } }
  | none => { e with spreading := {} }.say .warn .fanout
    ("internal message for unknown " ++ nodeText d.node)

/-- one step of the spreading of messages -/
def spread? (e : Engine) : Option Engine :=
  match e.spreading with
  | ⟨a :: cascades, states, telling⟩ =>
    some (({ e with spreading := ⟨cascades, states, telling⟩ }.say .debug .fanout
      ("change bitmap requests " ++ a.toText)).submit a)
  | ⟨[], s :: states, telling⟩ => (e.reports.push? (.state s)).map fun reports =>
    { e with reports := reports, spreading := ⟨[], states, telling⟩ }.say .debug .fanout s.toText
  | ⟨[], [], .notice n⟩ => some (e.lookUp n)
  | ⟨[], [], .finding f⟩ => (e.findings.push? f).map fun findings =>
    { e with findings := findings, spreading := {} }
  | ⟨[], [], .nothing⟩ => e.messages.pop?.map fun (m, messages) =>
    { e with messages := messages }.spread m

/-- one step of the composition of writes -/
def compose? (e : Engine) : Option Engine :=
  e.states.pop?.map fun (s, states) => { e with states := states }.compose s

/-- one step of the announcement of devices -/
def announce? (e : Engine) : Option Engine :=
  match e.found with
  | d :: found => (e.reports.push? (.device d)).map fun reports =>
    { e with reports := reports, found := found }.note [d.line]
  | [] => e.findings.pop?.map fun (finding, findings) =>
    let (found, lines) := finding.devices
    { e with findings := findings, found := found }.note lines

/-- one step of a consumer, unless it has to wait for an item or for room -/
def advance? (e : Engine) : Consumer → Option Engine
  | .execution => e.execute?
  | .spreading => e.spread?
  | .composition => e.compose?
  | .announcement => e.announce?

end Engine

end BusMaster
