import BusMaster.Bits
import BusMaster.Query.Session

/-!
# The standard functions

Reads of coils, inputs and registers, writes of one and of many, and the diagnostic functions. Each
is a query: the range is checked before there is a request, and the reading of the response takes
exactly the bytes that the function answers with.
-/

namespace BusMaster

/-- the status and event counter of a device -/
structure CommEventCounter where
  status : UInt16
  eventCount : UInt16
  deriving DecidableEq, Repr

/-- the event log of a device -/
structure CommEventLog where
  status : UInt16
  eventCount : UInt16
  messageCount : UInt16
  /-- most recent first -/
  events : Bytes
  deriving DecidableEq, Repr

/-- an object of the identification of a device -/
structure DeviceObject where
  id : UInt8
  value : Bytes
  deriving DecidableEq, Repr

namespace Standard

/-- the state of a coil that is on -/
def coilOn : UInt16 := 0xFF00

/-- the state of a coil that is off -/
def coilOff : UInt16 := 0x0000

/-- read bits -/
def readBits (f : FunctionCode) (unit : UnitId) (r : AddressRange) :
    Except RequestFault (Query BitSeq) := do
  let start ← ofConfig (r.validate maxReadBits)
  let count := r.count.toNat
  Query.make unit f (wordBytes start ++ wordBytes r.count) fun _ response => do
    let data ← Query.countedData (bytesForBits count) response
    match BitSeq.ofBytes .lsb0 count data with
    | .ok bits => return bits
    | .error fault => throw (.configuration fault.toConfig)

/-- read registers -/
def readRegisters (f : FunctionCode) (unit : UnitId) (r : AddressRange) :
    Except RequestFault (Query Bytes) := do
  let start ← ofConfig (r.validate maxReadRegisters)
  Query.make unit f (wordBytes start ++ wordBytes r.count) fun _ response =>
    Query.countedData (2 * r.count.toNat) response

/-- the answer to the write of a coil repeats the request, and its state is on or off -/
def acceptCoil (request response : Bytes) : Except RequestFault Unit := do
  match response with
  | [_, _, _, _, high, low] =>
    let state := wordOf high low
    if state ≠ coilOn ∧ state ≠ coilOff then throw (.body (.unknownCoilState state))
  | _ => pure ()
  Query.checkEcho request.length request response

/-- write one coil -/
def writeCoil (unit : UnitId) (r : AddressRange) (value : Bool) :
    Except RequestFault (Query Unit) := do
  let start ← ofConfig r.start
  let state := if value then coilOn else coilOff
  Query.make unit .writeSingleCoil (wordBytes start ++ wordBytes state) acceptCoil

/-- write the coils of a run of bits; the count of the range is not looked at -/
def writeCoils (unit : UnitId) (r : AddressRange) (bits : BitSeq) :
    Except RequestFault (Query Unit) := do
  let r := { r with count := UInt16.ofNat bits.size }
  let start ← ofConfig (r.validate maxWriteBits)
  let data := bits.toBytes
  Query.make unit .writeMultipleCoils
    (wordBytes start ++ wordBytes r.count ++ UInt8.ofNat data.length :: data) (Query.checkEcho 6)

/-- write one register -/
def writeRegister (unit : UnitId) (r : AddressRange) (value : UInt16) :
    Except RequestFault (Query Unit) := do
  let start ← ofConfig r.start
  Query.make unit .writeSingleRegister (wordBytes start ++ wordBytes value) fun request =>
    Query.checkEcho request.length request

/-- write registers; the count of the range is not looked at -/
def writeRegisters (unit : UnitId) (r : AddressRange) (data : Bytes) :
    Except RequestFault (Query Unit) := do
  if data.length % 2 ≠ 0 then throw (.configuration .valueOutOfRange)
  let r := { r with count := UInt16.ofNat (data.length / 2) }
  let start ← ofConfig (r.validate maxWriteRegisters)
  Query.make unit .writeMultipleRegisters
    (wordBytes start ++ wordBytes r.count ++ UInt8.ofNat data.length :: data) (Query.checkEcho 6)

/-- a body of exactly one byte -/
def acceptByte (response : Bytes) : Except RequestFault UInt8 :=
  match response.drop 2 with
  | [] => .error (.body .tooShort)
  | [b] => .ok b
  | _ => .error (.body .trailingBytes)

/-- a body of exactly two words -/
def acceptWords (response : Bytes) : Except RequestFault (UInt16 × UInt16) :=
  match response.drop 2 with
  | [a, b, c, d] => .ok (wordOf a b, wordOf c d)
  | _ :: _ :: _ :: _ :: _ => .error (.body .trailingBytes)
  | _ => .error (.body .tooShort)

/-- read the exception status -/
def exceptionStatus (unit : UnitId) : Except RequestFault (Query UInt8) :=
  Query.make unit .readExceptionStatus [] fun _ => acceptByte

/-- read the event counter -/
def commEventCounter (unit : UnitId) : Except RequestFault (Query CommEventCounter) :=
  Query.make unit .getCommEventCounter [] fun _ response => do
    let (status, eventCount) ← acceptWords response
    return ⟨status, eventCount⟩

/-- the log in a body: a byte count of at least six and of all that follows, and then the log -/
def acceptLog (response : Bytes) : Except RequestFault CommEventLog :=
  match response.drop 2 with
  | [] => .error (.body .tooShort)
  | count :: data =>
    if count.toNat < 6 ∨ count.toNat ≠ data.length then
      .error (.length (max data.length 6) count.toNat)
    else
      match data with
      | a :: b :: c :: d :: e :: f :: events =>
        .ok ⟨wordOf a b, wordOf c d, wordOf e f, events⟩
      | _ => .error (.body .tooShort)

/-- read the event log -/
def commEventLog (unit : UnitId) : Except RequestFault (Query CommEventLog) :=
  Query.make unit .getCommEventLog [] fun _ => acceptLog

/-- read what a device says about itself -/
def serverId (unit : UnitId) : Except RequestFault (Query Bytes) :=
  Query.make unit .reportServerId [] fun _ response =>
    Query.countedData ((response.drop 2).headD 0).toNat response

/-- the kind of identification asked for -/
def identificationKind : UInt8 := 0x0E

/-- ask for one object only -/
def oneObject : UInt8 := 0x04

/-- read `count` objects, each an id, a length and so many bytes, with nothing after the last -/
def readObjects : Nat → Bytes → Except RequestFault (List DeviceObject)
  | 0, [] => .ok []
  | 0, _ => .error (.body .trailingBytes)
  | count + 1, id :: length :: data =>
    if data.length < length.toNat then .error (.body .tooShort)
    else do
      let others ← readObjects count (data.drop length.toNat)
      return ⟨id, data.take length.toNat⟩ :: others
  | _ + 1, _ => .error (.body .tooShort)

/-- the objects in a body -/
def acceptObjects (response : Bytes) : Except RequestFault (List DeviceObject) :=
  match response.drop 2 with
  | [] => .error (.body .tooShort)
  | kind :: rest =>
    if kind ≠ identificationKind then .error (.body (.unexpectedField kind))
    else
      match rest with
      | _ :: _ :: _ :: _ :: count :: data => readObjects count.toNat data
      | _ => .error (.body .tooShort)

/-- read one object of the identification of a device -/
def deviceIdentification (unit : UnitId) (object : UInt8) :
    Except RequestFault (Query (List DeviceObject)) :=
  Query.make unit .readDeviceIdentification [identificationKind, oneObject, object] fun _ =>
    acceptObjects

end Standard

end BusMaster
