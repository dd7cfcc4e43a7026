import BusMaster.Fault

/-!
# Units, ranges and packed addresses

A request names a unit, a start address and a count. The start is an address plus an offset, and
neither it nor the last address of the range may lie past `0xFFFF` (`AddressRange.validate`). The
extended protocol packs three numbers into an address, a page of 3 bits, a category of 6 and an
index of 7, which fill the word exactly (`PackedAddress.toWord_ofWord`).
-/

namespace BusMaster

/-- the number a device answers to -/
structure UnitId where
  value : UInt8
  deriving DecidableEq, Repr

namespace UnitId

/-- the unit id every device listens to -/
def broadcast : UnitId := ⟨0⟩

/-- the unit id that devices without a logical address answer on -/
def unassigned : UnitId := ⟨1⟩

instance : Inhabited UnitId := ⟨⟨0xFF⟩⟩

/-- every device listens to this unit id -/
def isBroadcast (u : UnitId) : Bool := u.value == 0

/-- the unit id in hexadecimal -/
def toText (u : UnitId) : String := markedByte u.value

end UnitId

/-- largest number of coils or discrete inputs in one read -/
def maxReadBits : UInt16 := 0x07D0

/-- largest number of registers in one read -/
def maxReadRegisters : UInt16 := 0x007D

/-- largest number of coils in one write -/
def maxWriteBits : UInt16 := 0x07B0

/-- largest number of registers in one write -/
def maxWriteRegisters : UInt16 := 0x007B

/-- largest number of registers in one masked write -/
def maxMaskedRegisters : UInt16 := 0x003C

/-- the sum of two words, unless it lies past the last address -/
def addAddress (a b : UInt16) : Except ConfigFault UInt16 :=
  if a.toNat + b.toNat < UInt16.size then .ok (a + b) else .error .addressOverflow

/-- a count must be at least one and at most `max` -/
def checkCount (count max : UInt16) : Except ConfigFault Unit :=
  if count = 0 then .error .zeroCount
  else if max < count then .error (.countTooLarge count max)
  else .ok ()

/-- where a request starts and how much it covers; the offset is added to the address, or, in the
extended protocol, counts bits from the register at the address -/
structure AddressRange where
  address : UInt16
  offset : UInt16
  count : UInt16
  deriving DecidableEq, Repr

namespace AddressRange

/-- the start address of a standard request -/
def start (r : AddressRange) : Except ConfigFault UInt16 := addAddress r.address r.offset

/-- the start address, when the count is allowed and the last address exists -/
def validate (r : AddressRange) (max : UInt16) : Except ConfigFault UInt16 := do
  checkCount r.count max
  let start ← r.start
  if start.toNat + r.count.toNat ≤ UInt16.size then return start else throw .addressOverflow

/-- the range in words -/
def toText (r : AddressRange) : String :=
  s!"address: {markedWord r.address} offset: {r.offset} count: {r.count}"

end AddressRange

/-- the address of a register in the extended protocol -/
structure PackedAddress where
  /-- 3 bits -/
  page : UInt8
  /-- 6 bits -/
  category : UInt8
  /-- 7 bits -/
  index : UInt8
  deriving DecidableEq, Repr

namespace PackedAddress

/-- the address of the given parts, each within its width -/
def new (page category index : UInt8) : Except ConfigFault PackedAddress :=
  if 0x07 < page ∨ 0x3F < category ∨ 0x7F < index then .error .valueOutOfRange
  else .ok ⟨page, category, index⟩

/-- the parts of a packed word -/
def ofWord (w : UInt16) : PackedAddress where
  page := (w >>> 13).toUInt8
  category := (w >>> 7 &&& 0x3F).toUInt8
  index := (w &&& 0x7F).toUInt8

/-- the packed word -/
def toWord (a : PackedAddress) : UInt16 :=
  a.page.toUInt16 <<< 13 ||| a.category.toUInt16 <<< 7 ||| a.index.toUInt16

/-- the bytes of the address in a request -/
def wire (a : PackedAddress) : Bytes := [a.category, a.index, a.page]

/-- the parts in words -/
def toText (a : PackedAddress) : String :=
  s!"page: {a.page} category: {a.category} index: {a.index}"

end PackedAddress

end BusMaster
