import BusMaster.Plant.Action
import BusMaster.Query.Layer

/-!
# Actions as sessions

What an action does on the wire is a session over the functions of its node's protocol. It has
three kinds of success: nothing more to do, a payload for the dataset, or units that were given a
logical address.
-/

namespace BusMaster

/-- a device on the bus and the protocol it speaks -/
structure Node where
  unit : UnitId
  protocol : Protocol
  deriving DecidableEq, Repr

/-- what an action brings -/
inductive Gain where
  | nothing
  | payload (p : Payload)
  | assigned (units : List Assignment)
  deriving Repr

namespace Action

/-- a session that fails -/
def refuse {α : Type} (fault : ConfigFault) : Session α := .done (.error (.configuration fault))

/-- read the dataset -/
def readSession (n : Node) (a : Action) : Session Gain :=
  let bits (q : Except RequestFault (Query BitSeq)) : Session Gain :=
    (Session.ofQuery q).map fun s => .payload (.bits s)
  let registers (q : Except RequestFault (Query Bytes)) : Session Gain :=
    (Session.ofQuery q).map fun bytes => .payload (.registers bytes)
  match a.cls with
  | .coil => bits (n.protocol.readCoils n.unit a.range)
  | .discreteInput => bits (n.protocol.readDiscreteInputs n.unit a.range)
  | .holdingRegister => registers (n.protocol.readHoldingRegisters n.unit a.range)
  | .inputRegister => registers (n.protocol.readInputRegisters n.unit a.range)
  | _ => refuse .unsupportedClass

/-- the query that writes coils: one coil has a function of its own -/
def coilQuery (n : Node) (a : Action) (s : BitSeq) : Except RequestFault (Query Unit) :=
  if s.size ≤ 1 then
    match s.get 0 with
    | .ok value => n.protocol.writeCoil n.unit a.range value
    | .error fault => .error (.configuration fault.toConfig)
  else n.protocol.writeCoils n.unit a.range s

/-- write the payload, or hand out logical addresses from the address of the action on; bits of
registers can be written in the extended protocol only -/
def writeSession (n : Node) (a : Action) : Session Gain :=
  let write (q : Except RequestFault (Query Unit)) : Session Gain :=
    (Session.ofQuery q).map fun () => .nothing
  match a.cls, a.payload with
  | .setLogicalAddress, _ => (n.protocol.enumerate ⟨a.address.toUInt8⟩).map .assigned
  | .coil, some (.bits s) => write (a.coilQuery n s)
  | .holdingRegister, some (.registers bytes) =>
    write (n.protocol.writeRegisters n.unit a.range bytes)
  | .holdingRegister, some (.bits s) =>
    match n.protocol with
    | .vendor => write (n.protocol.writeCoils n.unit a.range s)
    | .standard => .done (.error .unsupported)
  | _, _ => refuse .unsupportedClass

/-- query the status of the device and log it -/
def statusSession (n : Node) (a : Action) : Session Gain :=
  let report (text : String) : Session Gain :=
    .note ⟨.info, .execution, nodeText a.node ++ text⟩ (.done (.ok .nothing))
  match a.cls with
  | .exceptionStatus =>
    (Session.ofQuery (Standard.exceptionStatus n.unit)).bind fun status =>
      report (" exception status: " ++ markedByte status)
  | .commEventCounter =>
    (Session.ofQuery (Standard.commEventCounter n.unit)).bind fun c =>
      report s!" comm event counter, status: {markedWord c.status} events: {c.eventCount}"
  | .commEventLog =>
    (Session.ofQuery (Standard.commEventLog n.unit)).bind fun l =>
      let counts := s!"events: {l.eventCount} messages: {l.messageCount}"
      report (s!" comm event log, status: {markedWord l.status} {counts} log: "
        ++ bracketed l.events)
  | _ => refuse .unsupportedClass

/-- what the action does on the wire -/
def session (n : Node) (a : Action) : Session Gain :=
  match a.action with
  | .read => a.readSession n
  | .write => a.writeSession n
  | .status => a.statusSession n

end Action

end BusMaster
