import BusMaster.Query.Extended

/-!
# Functions of a protocol

What the engine asks of a node goes through the protocol the node speaks. Both protocols offer the
same functions; only the extended one hands out addresses, and it shares the diagnostic functions
with the standard one.
-/

namespace BusMaster

namespace Protocol

/-- read coils -/
def readCoils : Protocol → UnitId → AddressRange → Except RequestFault (Query BitSeq)
  | .standard => Standard.readBits .readCoils
  | .vendor => Extended.readBits

/-- read discrete inputs -/
def readDiscreteInputs : Protocol → UnitId → AddressRange → Except RequestFault (Query BitSeq)
  | .standard => Standard.readBits .readDiscreteInputs
  | .vendor => Extended.readBits

/-- read holding registers -/
def readHoldingRegisters : Protocol → UnitId → AddressRange → Except RequestFault (Query Bytes)
  | .standard => Standard.readRegisters .readHoldingRegisters
  | .vendor => Extended.readRegisters

/-- read input registers -/
def readInputRegisters : Protocol → UnitId → AddressRange → Except RequestFault (Query Bytes)
  | .standard => Standard.readRegisters .readInputRegisters
  | .vendor => Extended.readRegisters

/-- write one coil -/
def writeCoil (p : Protocol) (unit : UnitId) (r : AddressRange) (value : Bool) :
    Except RequestFault (Query Unit) :=
  match p with
  | .standard => Standard.writeCoil unit r value
  | .vendor => Extended.writeBits unit r (BitSeq.ofList .lsb0 [value])

/-- write the coils of a run of bits -/
def writeCoils : Protocol → UnitId → AddressRange → BitSeq → Except RequestFault (Query Unit)
  | .standard => Standard.writeCoils
  | .vendor => Extended.writeBits

/-- write one register -/
def writeRegister (p : Protocol) (unit : UnitId) (r : AddressRange) (value : UInt16) :
    Except RequestFault (Query Unit) :=
  match p with
  | .standard => Standard.writeRegister unit r value
  | .vendor => Extended.writeRegisters unit r (wordBytes value)

/-- write registers -/
def writeRegisters : Protocol → UnitId → AddressRange → Bytes → Except RequestFault (Query Unit)
  | .standard => Standard.writeRegisters
  | .vendor => Extended.writeRegisters

/-- hand out logical addresses from `first` on -/
def enumerate : Protocol → UnitId → Session (List Assignment)
  | .standard, _ => .done (.error .unsupported)
  | .vendor, first => Extended.enumerate first

end Protocol

end BusMaster
