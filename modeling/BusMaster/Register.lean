import BusMaster.Fault

/-!
# Numbers in registers

A register is a word, and a number of 32 bits takes two of them, the more significant first. Within
each register the bytes come high byte first, or exchanged on devices that send them so. Signed
numbers are the same bits read in two's complement.
-/

namespace BusMaster

/-- order of the bytes within each register -/
inductive ByteOrder where
  /-- high byte first -/
  | natural
  /-- low byte first -/
  | swapped
  deriving DecidableEq, Repr

namespace ByteOrder

/-- the byte order a word names -/
def ofName (name : String) : Except ConfigFault ByteOrder :=
  match name with
  | "natural" | "big-endian" => .ok .natural
  | "swapped" => .ok .swapped
  | _ => .error .unknownName

/-- the word in one register -/
def readWord : ByteOrder → UInt8 → UInt8 → UInt16
  | .natural, a, b => wordOf a b
  | .swapped, a, b => wordOf b a

/-- the register of a word -/
def writeWord (order : ByteOrder) (w : UInt16) : Bytes :=
  match order with
  | .natural => wordBytes w
  | .swapped => swapWords (wordBytes w)

/-- the double word in two registers -/
def readDoubleWord (order : ByteOrder) (a b c d : UInt8) : UInt32 :=
  doubleWordOf (order.readWord a b) (order.readWord c d)

/-- the two registers of a double word -/
def writeDoubleWord (order : ByteOrder) (d : UInt32) : Bytes :=
  match order with
  | .natural => doubleWordBytes d
  | .swapped => swapWords (doubleWordBytes d)

end ByteOrder

end BusMaster
