import BusMaster.Bits
import BusMaster.Register
import BusMaster.Number.Shortest

/-!
# Values

A channel turns a few bits of a payload, its field, into a value, and a value back into a field.
How depends on the class of the value, on the order of the bytes in a register, and on a number of
decimal places. Decoding is total on fields of the right kind and width; encoding refuses a value
of another kind, one that is out of the bounds of its class, and every value of a class that only
the device can change.
-/

namespace BusMaster

/-- how the bits of a channel are read -/
inductive ValueClass where
  /-- a single bit -/
  | bit
  /-- a signed byte -/
  | int8
  /-- an unsigned byte -/
  | uint8
  /-- a signed register -/
  | int16
  /-- an unsigned register -/
  | uint16
  /-- a signed pair of registers -/
  | int32
  /-- an unsigned pair of registers -/
  | uint32
  /-- a binary fraction in a pair of registers -/
  | float32
  /-- an unsigned register in tenths of a watt -/
  | power
  /-- a signed byte, the strength of a radio signal -/
  | rssi
  /-- an unsigned byte in percent, at most a hundred -/
  | battery
  /-- a register shown as binary digits -/
  | schedule
  /-- a register that names the datasets that changed on the device -/
  | changeBitmap
  /-- a selector of four bits -/
  | modeSet
  deriving DecidableEq, Repr

namespace ValueClass

/-- number of bits in a payload -/
def width : ValueClass → Nat
  | .bit => 1
  | .modeSet => 4
  | .int8 | .uint8 | .rssi | .battery => 8
  | .int16 | .uint16 | .power | .schedule | .changeBitmap => 16
  | .int32 | .uint32 | .float32 => 32

/-- the field is a run of bits, not bytes -/
def isBitField : ValueClass → Bool
  | .bit | .modeSet | .schedule => true
  | _ => false

/-- the host may write -/
def isWritable : ValueClass → Bool
  | .power | .rssi | .battery | .changeBitmap => false
  | _ => true

/-- a plain integer, which may carry decimal places -/
def isInteger : ValueClass → Bool
  | .int8 | .uint8 | .int16 | .uint16 | .int32 | .uint32 => true
  | _ => false

/-- least and greatest raw integer -/
def bounds : ValueClass → Int × Int
  | .int8 => (-128, 127)
  | .uint8 => (0, 255)
  | .int16 => (-32768, 32767)
  | .uint16 => (0, 65535)
  | .int32 => (-2147483648, 2147483647)
  | .uint32 => (0, 4294967295)
  | .modeSet => (0, 15)
  | _ => (0, 0)

/-- the class a word names -/
def ofName (name : String) : Except ConfigFault ValueClass :=
  match name with
  | "bit" | "bool" => .ok .bit
  | "int8" => .ok .int8
  | "uint8" => .ok .uint8
  | "int16" => .ok .int16
  | "uint16" => .ok .uint16
  | "int32" => .ok .int32
  | "uint32" => .ok .uint32
  | "float32" => .ok .float32
  | "power" => .ok .power
  | "rssi" => .ok .rssi
  | "battery" => .ok .battery
  | "schedule" => .ok .schedule
  | "change-bitmap" => .ok .changeBitmap
  | "mode-set" => .ok .modeSet
  | _ => .error .unknownName

/-- the class as it is shown -/
def label : ValueClass → String
  | .bit => "Bit"
  | .int8 => "Int8"
  | .uint8 => "UInt8"
  | .int16 => "Int16"
  | .uint16 => "UInt16"
  | .int32 => "Int32"
  | .uint32 => "UInt32"
  | .float32 => "Float32"
  | .power => "Power"
  | .rssi => "Rssi"
  | .battery => "Battery"
  | .schedule => "Schedule"
  | .changeBitmap => "ChangeBitmap"
  | .modeSet => "ModeSet"

end ValueClass

/-- the value of a channel -/
inductive Value where
  | bool (b : Bool)
  /-- within 64 bits, signed -/
  | int (i : Int)
  | float (x : Binary64)
  | text (s : String)
  deriving DecidableEq, Repr

namespace Value

/-- equal as values: binary fractions are compared as numbers -/
def same : Value → Value → Bool
  | .bool a, .bool b => a == b
  | .int a, .int b => a == b
  | .float x, .float y => x.same y
  | .text s, .text t => s == t
  | _, _ => false

/-- the value as a number -/
def number? : Value → Option Binary64
  | .int i => some (Binary64.ofInt i)
  | .float x => some x
  | _ => none

/-- the value in words -/
def toText : Value → String
  | .bool b => if b then "true" else "false"
  | .int i => toString i
  | .float x => x.toText
  | .text s => s

end Value

/-- the part of a payload that a channel occupies -/
inductive Field where
  | bits (s : BitSeq)
  /-- one byte, or registers with the high byte first -/
  | bytes (bytes : Bytes)
  deriving Repr

/-- parameters of the reading of a channel -/
structure Encoding where
  /-- order of the bytes within each register -/
  order : ByteOrder := .natural
  /-- decimal places of an integer -/
  scale : Option UInt8 := none
  deriving DecidableEq, Repr

namespace Encoding

/-- the sum of the powers of two of the set bits, as a signed number of 64 bits -/
def selector (s : BitSeq) : Int :=
  let bits := s.ones.foldl (fun acc i => acc ||| 1 <<< (i % 64)) 0
  (Int64.ofNat bits).toInt

/-- the raw integer in the bytes of an integer class -/
def rawInteger (order : ByteOrder) : ValueClass → Bytes → Except ConfigFault Int
  | .int8, b :: _ | .rssi, b :: _ => .ok b.toInt8.toInt
  | .uint8, b :: _ => .ok b.toNat
  | .battery, b :: _ => .ok (min b.toNat 100)
  | .int16, [a, b] => .ok (order.readWord a b).toInt16.toInt
  | .uint16, [a, b] | .changeBitmap, [a, b] => .ok (order.readWord a b).toNat
  | .int32, [a, b, c, d] => .ok (order.readDoubleWord a b c d).toInt32.toInt
  | .uint32, [a, b, c, d] => .ok (order.readDoubleWord a b c d).toNat
  | _, _ => .error .valueMismatch

/-- the value in the bytes of a class that is no run of bits -/
def decodeBytes (e : Encoding) (cls : ValueClass) (bytes : Bytes) : Except ConfigFault Value :=
  match cls, bytes with
  | .power, [a, b] =>
    .ok (.float ((Binary64.ofInt (e.order.readWord a b).toNat).div (Binary64.tenTo 1)))
  | .float32, [a, b, c, d] => .ok (.float (Binary32.mk (e.order.readDoubleWord a b c d)).widen)
  | cls, bytes => do
    let raw ← rawInteger e.order cls bytes
    match e.scale with
    | some places =>
      if cls.isInteger then
        return .float ((Binary64.ofInt raw).div (Binary64.tenTo places.toNat))
      else return .int raw
    | none => return .int raw

/-- the value in a field -/
def decode (e : Encoding) (cls : ValueClass) : Field → Except ConfigFault Value
  | .bits s =>
    match cls with
    | .bit =>
      match s.get 0 with
      | .ok b => .ok (.bool b)
      | .error fault => .error fault.toConfig
    | .modeSet => .ok (.int (selector s))
    | .schedule => .ok (.text s.toText)
    | _ => .error .valueMismatch
  | .bytes bytes => e.decodeBytes cls bytes

/-- the raw integer of a value: its decimal places undone, within the bounds of the class -/
def integer (e : Encoding) (cls : ValueClass) (value : Value) : Except ConfigFault Int := do
  let scaled : Except ConfigFault Int :=
    match (if cls.isInteger then e.scale else none), value with
    | some places, value =>
      match value.number? with
      | some x => .ok ((x.mul (Binary64.tenTo places.toNat)).toInt64 Binary64.roundAway)
      | none => .error .valueMismatch
    | none, .int i => .ok i
    | none, .float x =>
      if x.isWhole then .ok (x.toInt64 Binary64.truncate) else .error .valueOutOfRange
    | none, _ => .error .valueMismatch
  let raw ← scaled
  if cls.bounds.1 ≤ raw ∧ raw ≤ cls.bounds.2 then return raw else throw .valueOutOfRange

/-- the state of a single bit -/
def switch : Value → Except ConfigFault Bool
  | .bool b => .ok b
  | .int 0 => .ok false
  | .int 1 => .ok true
  | .int _ => .error .valueOutOfRange
  | _ => .error .valueMismatch

/-- the binary digits of a schedule -/
def scheduleBits : Value → Except ConfigFault BitSeq
  | .text s =>
    match BitSeq.ofText .lsb0 s with
    | .ok bits =>
      if bits.size = ValueClass.schedule.width then .ok bits else .error .valueOutOfRange
    | .error fault => .error fault.toConfig
  | _ => .error .valueMismatch

/-- the bytes of a raw integer -/
def integerBytes (order : ByteOrder) (cls : ValueClass) (raw : Int) : Bytes :=
  match cls with
  | .int8 | .uint8 => [UInt8.ofInt raw]
  | .int16 | .uint16 => order.writeWord (UInt16.ofInt raw)
  | _ => order.writeDoubleWord (UInt32.ofInt raw)

/-- the field that holds a value -/
def encode (e : Encoding) (cls : ValueClass) (value : Value) : Except ConfigFault Field :=
  if !cls.isWritable then .error .readOnly
  else
    match cls with
    | .bit => do return .bits (BitSeq.ofList .lsb0 [← switch value])
    | .modeSet => do
      let mode ← e.integer cls value
      return .bits (BitSeq.ofFn .lsb0 4 fun i => mode.toNat.testBit i)
    | .schedule => do return .bits (← scheduleBits value)
    | .float32 =>
      match value.number? with
      | some x => .ok (.bytes (e.order.writeDoubleWord x.narrow.bits))
      | none => .error .valueMismatch
    | cls => do return .bytes (integerBytes e.order cls (← e.integer cls value))

end Encoding

end BusMaster
