import BusMaster.Fault
import BusMaster.Query.Function

/-!
# The length of a response

Neither the binary framing nor the bridge framing marks the end of a frame, so the length of a
response has to be worked out from its first bytes: unit id, function code, and for most reads a
count of the bytes that follow. An exception is three bytes. The identification of a device is a
list of objects, each with its own length, which is walked as it comes in.
-/

namespace BusMaster

/-- longest unit id, function code and data -/
def maxAdu : Nat := 254

/-- what is known of the length of a response -/
inductive Length where
  /-- so many bytes are needed before more can be said, which are more than came in -/
  | atLeast (n : Nat)
  /-- the whole length -/
  | exact (n : Nat)
  deriving DecidableEq, Repr

namespace Length

/-- the bytes of the length -/
def bytes : Length → Nat
  | .atLeast n => n
  | .exact n => n

/-- walk `count` objects of a device identification, the next one at `position` -/
def walkObjects (adu : Bytes) : Nat → Nat → Length
  | 0, position => .exact position
  | count + 1, position =>
    match adu[position + 1]? with
    | none => .atLeast (position + 2)
    | some length =>
      let next := position + 2 + length.toNat
      if maxAdu < next then .exact next else walkObjects adu count next

/-- the length of a device identification: eight bytes, the last of them the number of objects -/
def ofIdentification (adu : Bytes) : Length :=
  match adu[7]? with
  | none => .atLeast 8
  | some count => walkObjects adu count.toNat 8

/-- the length of a response that gives its byte count first -/
def ofCounted (adu : Bytes) : Length :=
  match adu[2]? with
  | none => .atLeast 3
  | some count => .exact (3 + count.toNat)

/-- the length of a response to a function, none if nothing answers it -/
def ofFunction? (adu : Bytes) : FunctionCode → Option Length
  | .readCoils | .readDiscreteInputs | .readHoldingRegisters | .readInputRegisters
  | .getCommEventLog | .reportServerId | .readFromIndex => some (ofCounted adu)
  | .readExceptionStatus => some (.exact 3)
  | .writeSingleCoil | .writeSingleRegister | .writeMultipleCoils | .writeMultipleRegisters
  | .getCommEventCounter | .enumerationQuery => some (.exact 6)
  | .writeToIndex | .writeMaskedToIndex | .assignLogicalAddress => some (.exact 7)
  | .readDeviceIdentification => some (ofIdentification adu)
  | .enumerationReset => none

end Length

/-- what the bytes that came in tell of the length of their response -/
def responseLength (adu : Bytes) : Except FrameFault Length :=
  match adu with
  | _ :: function :: _ =>
    if function &&& FunctionCode.exceptionBit ≠ 0 then .ok (.exact 3)
    else
      match (FunctionCode.ofWire? function).bind (Length.ofFunction? adu) with
      | none => .error (.unknownFunction function)
      | some length =>
        if maxAdu < length.bytes then .error (.tooLarge length.bytes) else .ok length
  | _ => .ok (.atLeast 2)

end BusMaster
