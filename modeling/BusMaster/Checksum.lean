import BusMaster.Bytes

/-!
# Checksums

The binary framing ends a frame with a CRC of sixteen bits: reflected polynomial `0xA001`, initial
value `0xFFFF`, no final exclusive or, low byte first on the wire. The text framing ends a line
with the byte that brings the sum of all bytes to zero.
-/

namespace BusMaster

/-- one shift of the CRC register -/
def crcShift (crc : UInt16) : UInt16 :=
  if crc &&& 1 = 1 then crc >>> 1 ^^^ 0xA001 else crc >>> 1

/-- the CRC register after eight shifts -/
def crcShift8 (crc : UInt16) : UInt16 :=
  crcShift <| crcShift <| crcShift <| crcShift <|
    crcShift <| crcShift <| crcShift <| crcShift crc

/-- take one byte into the CRC register -/
def crcStep (crc : UInt16) (b : UInt8) : UInt16 := crcShift8 (crc ^^^ b.toUInt16)

/-- the CRC of a frame -/
def crc16 (bytes : Bytes) : UInt16 := bytes.foldl crcStep 0xFFFF

/-- the frame followed by its CRC, low byte first -/
def appendCrc (bytes : Bytes) : Bytes :=
  let crc := crc16 bytes
  bytes ++ [crc.toUInt8, (crc >>> 8).toUInt8]

/-- body and CRC of a frame, or nothing if it is shorter than a CRC -/
def splitCrc (frame : Bytes) : Option (Bytes × UInt16) :=
  match frame.drop (frame.length - 2) with
  | [low, high] => some (frame.take (frame.length - 2), wordOf high low)
  | _ => none

/-- the frame ends with the CRC of its body -/
def checkCrc (frame : Bytes) : Bool :=
  match splitCrc frame with
  | some (body, crc) => crc == crc16 body
  | none => false

/-- the byte that brings the sum of the bytes to zero -/
def lrc (bytes : Bytes) : UInt8 := 0 - bytes.foldl (· + ·) 0

end BusMaster
