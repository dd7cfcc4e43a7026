import BusMaster.Journal
import BusMaster.Plant.Dataset
import BusMaster.Query.Extended

/-!
# Discovery

A node announces the devices behind it in an internal dataset: its first register has a bit for
each channel that has a device, its second tells whether the node is still looking for devices, in
which case the first says nothing. The lowest channel has a thermostat, and every channel has an
actuator. Units that were given a logical address are devices too.
-/

namespace BusMaster

/-- the kind of a device -/
inductive DeviceKind where
  /-- the room thermostat of a zone -/
  | thermostat
  /-- an actuator that drives one channel -/
  | actuator
  /-- a controller that was given a logical address -/
  | controller
  deriving DecidableEq, Repr

/-- the kind of device as it is shown -/
def DeviceKind.label : DeviceKind → String
  | .thermostat => "Thermostat"
  | .actuator => "Actuator"
  | .controller => "Controller"

/-- a device the host may want to add -/
structure Device where
  kind : DeviceKind
  /-- the node that announced it -/
  node : NodeId
  /-- the unit id to reach it -/
  unit : UnitId
  channel : UInt8 := 0
  element : UInt8 := 0
  /-- known when the device was given its logical address -/
  serial : Option UInt32 := none
  deriving DecidableEq, Repr

namespace Device

/-- the log line of a device -/
def line (d : Device) : LogLine :=
  ⟨.info, .discovery,
    s!"discovered {d.kind.label} at unit {d.unit.toText} channel {d.channel} element {d.element}"⟩

/-- the device with all its parts -/
def toDetail (d : Device) : String :=
  let serial :=
    match d.serial with
    | some n => s!"Some({n})"
    | none => "None"
  "DiscoveredDevice \x7b kind: " ++ d.kind.label ++ s!", node: NodeId({d.node})"
    ++ ", unit: UnitId \x7b value: " ++ toString d.unit.value ++ " \x7d"
    ++ s!", channel: {d.channel}, element: {d.element}, serial: " ++ serial ++ " \x7d"

end Device

/-- what discovery works on -/
inductive Finding where
  /-- what was read for an internal dataset at an address -/
  | announcement (node : NodeId) (unit : UnitId) (address : UInt16) (payload : Payload)
  /-- a unit was given a logical address -/
  | assignment (node : NodeId) (a : Assignment)
  deriving Repr

/-- the bit of the second register that is set while a node looks for devices -/
def pairingBit : UInt16 := 0x0001

/-- the channels whose bit is set, ascending -/
def channelsOf (bitmap : UInt16) : List UInt8 :=
  ((List.range 16).filter fun bit => bitmap.toNat.testBit bit).map UInt8.ofNat

/-- a thermostat at the lowest channel and an actuator at each -/
def devicesAt (node : NodeId) (unit : UnitId) (element : UInt8) (channels : List UInt8) :
    List Device :=
  let device (kind : DeviceKind) (channel : UInt8) : Device :=
    ⟨kind, node, unit, channel, element, none⟩
  channels.head?.toList.map (device .thermostat) ++ channels.map (device .actuator)

namespace Finding

/-- a log line of discovery -/
def said (level : LogLevel) (text : String) : List LogLine := [⟨level, .discovery, text⟩]

/-- the devices found, with what there is to log about it -/
def devices : Finding → List Device × List LogLine
  | .announcement node unit address payload =>
    match payload with
    | .registers (a :: b :: c :: d :: _) =>
      if wordOf c d &&& pairingBit ≠ 0 then
        ([], said .debug s!"pairing in progress on unit {unit.toText}, skipping discovery")
      else (devicesAt node unit (PackedAddress.ofWord address).page (channelsOf (wordOf a b)), [])
    | _ => ([], said .warn ("discovery needs two registers, got " ++ payload.toText))
  | .assignment node a => ([⟨.controller, node, a.unit, 0, 0, some a.serial⟩], [])

end Finding

end BusMaster
