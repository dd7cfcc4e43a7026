import BusMaster.Query.Standard

/-!
# The extended functions

The extended protocol reaches every register by a packed address. Registers travel low byte first
and are handed on high byte first. Bits are bits of registers: a read fetches the registers that
cover them and cuts them out, and a write sends for each register its data and a mask, where a mask
bit of one leaves the bit of the device alone, so the bits around those written stay as they are.

Units without a logical address answer one at a time to a query for their serial number, and are
given consecutive addresses until none answers any more (`Extended.enumerate`).
-/

namespace BusMaster

/-- a unit that was given a logical address -/
structure Assignment where
  serial : UInt32
  unit : UnitId
  deriving DecidableEq, Repr

/-- the registers that cover a run of bits -/
structure BitSpan where
  start : PackedAddress
  /-- position of the first bit in the first register -/
  first : Nat
  registers : UInt16
  deriving DecidableEq, Repr

namespace BitSpan

/-- the registers that cover `count` bits from bit `offset` of the register at `address` on -/
def cover (r : AddressRange) (count : Nat) : Except ConfigFault BitSpan := do
  if count = 0 then throw .zeroCount
  let start ← addAddress r.address (r.offset / 16)
  let first := r.offset.toNat % 16
  let registers := (first + count + 15) / 16
  if maxReadRegisters.toNat < registers then
    throw (.countTooLarge (UInt16.ofNat registers) maxReadRegisters)
  return ⟨PackedAddress.ofWord start, first, UInt16.ofNat registers⟩

/-- a word with the given bits -/
def packWord (f : Nat → Bool) : UInt16 :=
  (List.range 16).foldl (fun acc j => if f j then acc ||| 1 <<< UInt16.ofNat j else acc) 0

/-- data and mask for each register of the span -/
def maskedPairs (span : BitSpan) (bits : BitSeq) : List (UInt16 × UInt16) :=
  (List.range span.registers.toNat).map fun r =>
    let covered (j : Nat) : Bool :=
      decide (span.first ≤ 16 * r + j) && decide (16 * r + j - span.first < bits.size)
    (packWord fun j => covered j && bits.bit (16 * r + j - span.first),
      packWord fun j => !covered j)

end BitSpan

namespace Extended

/-- read `count` registers -/
def readFromIndex (unit : UnitId) (address : PackedAddress) (count : UInt16) :
    Except RequestFault (Query Bytes) := do
  ofConfig (checkCount count maxReadRegisters)
  Query.make unit .readFromIndex (address.wire ++ wordBytes count) fun _ response => do
    return swapWords (← Query.countedData (2 * count.toNat) response)

/-- write registers -/
def writeToIndex (unit : UnitId) (address : PackedAddress) (registers : Bytes) :
    Except RequestFault (Query Unit) := do
  if registers.length % 2 ≠ 0 then throw (.configuration .valueOutOfRange)
  let count := UInt16.ofNat (registers.length / 2)
  ofConfig (checkCount count maxWriteRegisters)
  Query.make unit .writeToIndex
    (address.wire ++ wordBytes count ++ UInt8.ofNat registers.length :: swapWords registers)
    (Query.checkEcho 7)

/-- write the bits of registers whose mask bit is zero -/
def writeMaskedToIndex (unit : UnitId) (address : PackedAddress)
    (pairs : List (UInt16 × UInt16)) : Except RequestFault (Query Unit) := do
  let count := UInt16.ofNat pairs.length
  ofConfig (checkCount count maxMaskedRegisters)
  let data := pairs.flatMap fun (data, mask) => wordBytes data ++ wordBytes mask
  Query.make unit .writeMaskedToIndex
    (address.wire ++ wordBytes count ++ UInt8.ofNat (4 * pairs.length) :: data)
    (Query.checkEcho 7)

/-- read bits -/
def readBits (unit : UnitId) (r : AddressRange) : Except RequestFault (Query BitSeq) := do
  ofConfig (checkCount r.count maxReadBits)
  let count := r.count.toNat
  let span ← ofConfig (BitSpan.cover r count)
  let q ← readFromIndex unit span.start span.registers
  return q.map fun registers =>
    (BitSeq.ofRegisters registers).range span.first (span.first + count)

/-- write bits -/
def writeBits (unit : UnitId) (r : AddressRange) (bits : BitSeq) :
    Except RequestFault (Query Unit) := do
  let span ← ofConfig (BitSpan.cover r bits.size)
  writeMaskedToIndex unit span.start (span.maskedPairs bits)

/-- read registers, from the one that holds the first bit on -/
def readRegisters (unit : UnitId) (r : AddressRange) : Except RequestFault (Query Bytes) := do
  let span ← ofConfig (BitSpan.cover r 1)
  readFromIndex unit span.start r.count

/-- write registers, from the one that holds the first bit on -/
def writeRegisters (unit : UnitId) (r : AddressRange) (data : Bytes) :
    Except RequestFault (Query Unit) := do
  let span ← ofConfig (BitSpan.cover r 1)
  writeToIndex unit span.start data

/-- ask a unit without a logical address for its serial number -/
def serialQuery : Except RequestFault (Query UInt32) :=
  Query.make UnitId.unassigned .enumerationQuery [] fun _ response => do
    let (high, low) ← Standard.acceptWords response
    return doubleWordOf high low

/-- give the unit with a serial number its logical address -/
def assignment (a : Assignment) : Except RequestFault (Query Unit) :=
  Query.make UnitId.broadcast .assignLogicalAddress (doubleWordBytes a.serial ++ [a.unit.value])
    fun request => Query.checkEcho request.length request

/-- have every unit forget its logical address -/
def reset : Except RequestFault (Query Unit) :=
  Query.make UnitId.broadcast .enumerationReset [] fun _ _ => .ok ()

/-- most units that are given an address at once -/
def maxAssigned : Nat := 247

/-- a log line of the enumeration -/
def enumerationLine (text : String) : LogLine := ⟨.info, .enumeration, text⟩

/-- the end of an enumeration -/
def assigned (done : List Assignment) : Session (List Assignment) :=
  .note (enumerationLine s!"enumeration complete, {done.length} unit(s) assigned")
    (.done (.ok done))

/-- give addresses from `next` on to at most so many units, as long as one answers -/
def assignFrom : Nat → UInt8 → List Assignment → Session (List Assignment)
  | 0, _, done => assigned done
  | more + 1, next, done =>
    match serialQuery with
    | .error fault => .done (.error fault)
    | .ok q => .ask q.request fun
      | .error .noReply => assigned done
      | .error fault => .done (.error fault)
      | .ok response =>
        (Session.settle q response).bind fun serial =>
          let a : Assignment := ⟨serial, ⟨next⟩⟩
          (Session.ofQuery (assignment a)).bind fun () =>
            .note (enumerationLine
                s!"assigned {a.unit.toText} to serial {markedDoubleWord serial}")
              (if next = 255 then assigned (done ++ [a])
              else assignFrom more (next + 1) (done ++ [a]))

/-- give consecutive addresses from `first` on to the units that have none -/
def enumerate (first : UnitId) : Session (List Assignment) :=
  match reset with
  | .error fault => .done (.error fault)
  | .ok q => .tell q.request fun
    | .error fault => .done (.error fault)
    | .ok () =>
      .note (enumerationLine s!"enumeration reset, first logical address: {first.toText}")
        (assignFrom maxAssigned first.value [])

end Extended

end BusMaster
