import BusMaster.Fault

/-!
# Function codes

The functions a master asks of a device. The extended protocol has six of its own; they carry a tag
above the byte that is sent, and their bytes are no standard function's. A device that refuses
answers with the byte of the function and its highest bit set, so reading a function from the wire
leaves that bit out.
-/

namespace BusMaster

/-- the protocol a node speaks -/
inductive Protocol where
  /-- the standard functions -/
  | standard
  /-- the extended functions, whose registers are reached by packed addresses -/
  | vendor
  deriving DecidableEq, Repr

namespace Protocol

/-- the protocol a word names -/
def ofName (name : String) : Except ConfigFault Protocol :=
  match name with
  | "standard" | "modbus" => .ok .standard
  | "vendor" | "extended" => .ok .vendor
  | _ => .error .unknownName

/-- the protocol as it is shown -/
def label : Protocol → String
  | .standard => "Standard"
  | .vendor => "Vendor"

end Protocol

/-- what a master asks of a device -/
inductive FunctionCode where
  | readCoils
  | readDiscreteInputs
  | readHoldingRegisters
  | readInputRegisters
  | writeSingleCoil
  | writeSingleRegister
  | readExceptionStatus
  | getCommEventCounter
  | getCommEventLog
  | writeMultipleCoils
  | writeMultipleRegisters
  | reportServerId
  | readDeviceIdentification
  | readFromIndex
  | writeToIndex
  | writeMaskedToIndex
  | enumerationReset
  | enumerationQuery
  | assignLogicalAddress
  deriving DecidableEq, Repr

namespace FunctionCode

/-- all function codes -/
def all : List FunctionCode :=
  [.readCoils, .readDiscreteInputs, .readHoldingRegisters, .readInputRegisters, .writeSingleCoil,
    .writeSingleRegister, .readExceptionStatus, .getCommEventCounter, .getCommEventLog,
    .writeMultipleCoils, .writeMultipleRegisters, .reportServerId, .readDeviceIdentification,
    .readFromIndex, .writeToIndex, .writeMaskedToIndex, .enumerationReset, .enumerationQuery,
    .assignLogicalAddress]

/-- the byte on the wire -/
def wire : FunctionCode → UInt8
  | .readCoils => 0x01
  | .readDiscreteInputs => 0x02
  | .readHoldingRegisters => 0x03
  | .readInputRegisters => 0x04
  | .writeSingleCoil => 0x05
  | .writeSingleRegister => 0x06
  | .readExceptionStatus => 0x07
  | .getCommEventCounter => 0x0B
  | .getCommEventLog => 0x0C
  | .writeMultipleCoils => 0x0F
  | .writeMultipleRegisters => 0x10
  | .reportServerId => 0x11
  | .readDeviceIdentification => 0x2B
  | .readFromIndex => 0x42
  | .writeToIndex => 0x43
  | .writeMaskedToIndex => 0x44
  | .enumerationReset => 0x45
  | .enumerationQuery => 0x46
  | .assignLogicalAddress => 0x6D

/-- a function of the extended protocol -/
def isVendor : FunctionCode → Bool
  | .readFromIndex | .writeToIndex | .writeMaskedToIndex | .enumerationReset
  | .enumerationQuery | .assignLogicalAddress => true
  | _ => false

/-- the byte with the tag of the extended protocol -/
def tagged (f : FunctionCode) : UInt16 := if f.isVendor then 0x0100 ||| f.wire.toUInt16
  else f.wire.toUInt16

/-- the highest bit of a function code marks an exception -/
def exceptionBit : UInt8 := 0x80

/-- the function of a byte, with or without the exception bit -/
def ofWire? (b : UInt8) : Option FunctionCode := all.find? fun f => f.wire == b &&& 0x7F

/-- the name of the function -/
def title : FunctionCode → String
  | .readCoils => "READ COILS"
  | .readDiscreteInputs => "READ DISCRETE INPUTS"
  | .readHoldingRegisters => "READ HOLDING REGISTERS"
  | .readInputRegisters => "READ INPUT REGISTERS"
  | .writeSingleCoil => "WRITE SINGLE COIL"
  | .writeSingleRegister => "WRITE SINGLE REGISTER"
  | .readExceptionStatus => "READ EXCEPTION STATUS"
  | .getCommEventCounter => "GET COMM EVENT COUNTER"
  | .getCommEventLog => "GET COMM EVENT LOG"
  | .writeMultipleCoils => "WRITE MULTIPLE COILS"
  | .writeMultipleRegisters => "WRITE MULTIPLE REGISTERS"
  | .reportServerId => "REPORT SERVER ID"
  | .readDeviceIdentification => "READ DEVICE IDENTIFICATION"
  | .readFromIndex => "VENDOR READ FROM INDEX"
  | .writeToIndex => "VENDOR WRITE TO INDEX"
  | .writeMaskedToIndex => "VENDOR WRITE MASKED TO INDEX"
  | .enumerationReset => "VENDOR ENUMERATION RESET"
  | .enumerationQuery => "VENDOR ENUMERATION QUERY"
  | .assignLogicalAddress => "VENDOR ASSIGN LOGICAL ADDRESS"

/-- the name with the code, the tag shown for functions of the extended protocol -/
def toText (f : FunctionCode) : String :=
  f.title ++ " (" ++ (if f.isVendor then markedWord f.tagged else markedByte f.wire) ++ ")"

end FunctionCode

end BusMaster
