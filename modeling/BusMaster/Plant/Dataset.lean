import BusMaster.Bits

/-!
# Datasets

A dataset is a contiguous range of bits or registers on one node, together with when it is read and
when what was read is passed on. What a read brings back is a payload: a run of bits, or register
bytes with the high byte of each register first. Both number their bits the same way, bit `i` of
register bytes being bit `i % 16` of register `i / 16`.
-/

namespace BusMaster

/-- the host's number for a device -/
abbrev NodeId := Nat

/-- the number of a registered dataset -/
abbrev DatasetId := Nat

/-- the host's name for a channel -/
abbrev ChannelId := String

/-- the kind of data a dataset exchanges -/
inductive MessageClass where
  /-- bits that can be written -/
  | coil
  /-- bits that can only be read -/
  | discreteInput
  /-- registers that can be written -/
  | holdingRegister
  /-- registers that can only be read -/
  | inputRegister
  /-- the exception status of a device -/
  | exceptionStatus
  /-- the event counter of a device -/
  | commEventCounter
  /-- the event log of a device -/
  | commEventLog
  /-- the hand-out of logical addresses -/
  | setLogicalAddress
  deriving DecidableEq, Repr

namespace MessageClass

/-- the payload is a run of bits -/
def isBits : MessageClass → Bool
  | .coil | .discreteInput => true
  | _ => false

/-- the payload is register bytes -/
def isRegisters : MessageClass → Bool
  | .holdingRegister | .inputRegister => true
  | _ => false

/-- a diagnostic query -/
def isStatus : MessageClass → Bool
  | .exceptionStatus | .commEventCounter | .commEventLog => true
  | _ => false

/-- the host may write -/
def isWritable : MessageClass → Bool
  | .coil | .holdingRegister | .setLogicalAddress => true
  | _ => false

/-- the class a word names -/
def ofName (name : String) : Except ConfigFault MessageClass :=
  match name with
  | "coil" => .ok .coil
  | "discrete" | "discrete-input" => .ok .discreteInput
  | "holding" | "holding-register" => .ok .holdingRegister
  | "input" | "input-register" => .ok .inputRegister
  | "exception-status" => .ok .exceptionStatus
  | "comm-event-counter" => .ok .commEventCounter
  | "comm-event-log" => .ok .commEventLog
  | "set-logical-address" => .ok .setLogicalAddress
  | _ => .error .unknownName

/-- the class as it is shown -/
def label : MessageClass → String
  | .coil => "Coil"
  | .discreteInput => "DiscreteInput"
  | .holdingRegister => "HoldingRegister"
  | .inputRegister => "InputRegister"
  | .exceptionStatus => "ExceptionStatus"
  | .commEventCounter => "CommEventCounter"
  | .commEventLog => "CommEventLog"
  | .setLogicalAddress => "SetLogicalAddress"

end MessageClass

/-- when what was read is passed on -/
inductive ReportPolicy where
  /-- after every read -/
  | always
  /-- when it differs from what was known -/
  | change
  /-- never -/
  | never
  deriving DecidableEq, Repr

/-- the report policy a word names -/
def ReportPolicy.ofName (name : String) : Except ConfigFault ReportPolicy :=
  match name with
  | "always" => .ok .always
  | "change" => .ok .change
  | "never" => .ok .never
  | _ => .error .unknownName

/-- how often an action is handed out -/
inductive RepeatPolicy where
  /-- once, at once -/
  | once
  /-- on every slow tick -/
  | slow
  /-- on every fast tick -/
  | fast
  deriving DecidableEq, Repr

/-- the repeat policy a word names -/
def RepeatPolicy.ofName (name : String) : Except ConfigFault RepeatPolicy :=
  match name with
  | "once" => .ok .once
  | "slow" => .ok .slow
  | "fast" => .ok .fast
  | _ => .error .unknownName

/-- the zone of a multi-zone device that a dataset belongs to -/
structure Scope where
  channel : UInt8
  element : UInt8
  deriving DecidableEq, Repr

/-- a contiguous range of bits or registers on one node -/
structure Dataset where
  node : NodeId
  cls : MessageClass
  address : UInt16
  /-- number of bits or registers -/
  length : UInt16
  /-- added to the address, a bit position in the extended protocol -/
  offset : UInt16 := 0
  scope : Option Scope := none
  report : ReportPolicy := .change
  repeats : RepeatPolicy := .once
  /-- what is read drives discovery and is not passed on -/
  internal : Bool := false
  deriving DecidableEq, Repr

/-- number of bits in a payload of the dataset, none for classes without a payload -/
def Dataset.bitLength (d : Dataset) : Nat :=
  if d.cls.isBits then d.length.toNat
  else if d.cls.isRegisters then 16 * d.length.toNat
  else 0

/-- data read from or written to a dataset -/
inductive Payload where
  | bits (s : BitSeq)
  /-- two bytes for every register, the high byte first -/
  | registers (bytes : Bytes)
  deriving Repr

namespace Payload

/-- number of bits carried -/
def bitLength : Payload → Nat
  | .bits s => s.size
  | .registers bytes => 8 * bytes.length

/-- the bits carried -/
def toBits : Payload → BitSeq
  | .bits s => s
  | .registers bytes => BitSeq.ofRegisters bytes

/-- the payload in words -/
def toText : Payload → String
  | .bits s => "bits [" ++ s.toText ++ "]"
  | .registers bytes => "registers " ++ bracketed bytes

/-- equal payloads are of one kind and carry the same bits -/
instance : BEq Payload where
  beq
    | .bits s, .bits t => s == t
    | .registers a, .registers b => a == b
    | _, _ => false

end Payload

/-- the number of a dataset in words -/
def datasetText (id : DatasetId) : String := s!"dataset {id}"

/-- the number of a node in words -/
def nodeText (node : NodeId) : String := s!"node {node}"

end BusMaster
