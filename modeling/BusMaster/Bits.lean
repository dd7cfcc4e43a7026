import BusMaster.Fault
import BusMaster.Text.Blank

/-!
# Runs of bits

Coils and discrete inputs are runs of bits, held in bytes. A run knows its size, which its bytes
can hold, and which end of a byte comes first. Everything said about a run is said about its bits
in index order (`BitSeq.bit`, `BitSeq.toList`): two runs are the same when their bits are, whatever
the order and the spare bytes. `BitSeq.ofFn` writes a run down bit by bit, and all other operations
but `set` and `forceSize` are written with it.
-/

namespace BusMaster

/-- which end of a byte holds its first bit -/
inductive BitOrder where
  /-- bit 0 is the least significant bit, the packing of coils -/
  | lsb0
  /-- bit 0 is the most significant bit -/
  | msb0
  deriving DecidableEq, Repr

/-- the mask of position `i` of a byte -/
def BitOrder.mask (order : BitOrder) (i : Nat) : UInt8 :=
  match order with
  | .lsb0 => 1 <<< UInt8.ofNat (i % 8)
  | .msb0 => 0x80 >>> UInt8.ofNat (i % 8)

/-- the mask of the first `n` positions of a byte -/
def BitOrder.maskBelow (order : BitOrder) (n : Nat) : UInt8 :=
  (List.range (min n 8)).foldl (fun acc i => acc ||| order.mask i) 0

/-- a byte with the given bits, position by position -/
def BitOrder.pack (order : BitOrder) (f : Nat → Bool) : UInt8 :=
  (List.range 8).foldl (fun acc i => if f i then acc ||| order.mask i else acc) 0

/-- a run of `size` bits -/
structure BitSeq where
  bytes : Array UInt8
  size : Nat
  order : BitOrder
  deriving Repr

/-- bytes that hold `count` bits -/
def bytesForBits (count : Nat) : Nat := (count + 7) / 8

namespace BitSeq

/-- number of bits the bytes can hold -/
def capacity (s : BitSeq) : Nat := 8 * s.bytes.size

/-- the bit at `i`, false past the size -/
def bit (s : BitSeq) (i : Nat) : Bool :=
  decide (i < s.size) && (s.bytes.getD (i / 8) 0 &&& s.order.mask i != 0)

/-- the bits in index order -/
def toList (s : BitSeq) : List Bool := (List.range s.size).map s.bit

/-- the run of `size` bits whose bit `i` is `f i`, in as few bytes as hold it -/
def ofFn (order : BitOrder) (size : Nat) (f : Nat → Bool) : BitSeq where
  bytes := Array.ofFn fun k : Fin (bytesForBits size) =>
    order.pack fun j => decide (8 * k.val + j < size) && f (8 * k.val + j)
  size := size
  order := order

/-- the run with the given bits -/
def ofList (order : BitOrder) (bits : List Bool) : BitSeq :=
  let bits := bits.toArray
  ofFn order bits.size fun i => bits.getD i false

/-- `size` zeros -/
def zeros (order : BitOrder) (size : Nat) : BitSeq := ofFn order size fun _ => false

/-- the first `size` bits of some bytes, the bits after them cleared -/
def ofBytes (order : BitOrder) (size : Nat) (bytes : Bytes) : Except BitsFault BitSeq :=
  if 8 * bytes.length < size then .error (.tooLarge size (8 * bytes.length))
  else .ok {
    bytes := (bytes.mapIdx fun k b => b &&& order.maskBelow (size - 8 * k)).toArray
    size := size
    order := order }

/-- all bits of words sent low byte first: bit `i` is bit `i % 16` of word `i / 16` -/
def ofSwappedWords (bytes : Bytes) : BitSeq where
  bytes := bytes.toArray
  size := 8 * bytes.length
  order := .lsb0

/-- all bits of registers: bit `i` is bit `i % 16` of register `i / 16` -/
def ofRegisters (bytes : Bytes) : BitSeq := ofSwappedWords (swapWords bytes)

/-- the bit at `i`, which must be within the size -/
def get (s : BitSeq) (i : Nat) : Except BitsFault Bool :=
  if i < s.size then .ok (s.bit i) else .error (.indexOutOfRange i s.size)

/-- the run with its bit at `i` replaced -/
def set (s : BitSeq) (i : Nat) (value : Bool) : Except BitsFault BitSeq :=
  if i < s.size then
    let mask := s.order.mask i
    .ok { s with
      bytes := s.bytes.modify (i / 8) fun b => if value then b ||| mask else b &&& ~~~mask }
  else .error (.indexOutOfRange i s.size)

/-- the bits from `first` on and before `last`, zeros past the size -/
def range (s : BitSeq) (first last : Nat) : BitSeq :=
  ofFn s.order (last - first) fun i => s.bit (first + i)

/-- the bits of `s` followed by those of `t` -/
def append (s t : BitSeq) : BitSeq :=
  ofFn s.order (s.size + t.size) fun i => if i < s.size then s.bit i else t.bit (i - s.size)

/-- grow the size up to what the bytes hold, the new bits are zero; never shrinks -/
def forceSize (s : BitSeq) (size : Nat) : Except BitsFault BitSeq :=
  if s.capacity < size then .error (.tooLarge size s.capacity)
  else .ok { s with size := max s.size size }

/-- positions of the set bits, ascending -/
def ones (s : BitSeq) : List Nat := (List.range s.size).filter s.bit

/-- as few bytes as hold the bits, in the order of the run -/
def toBytes (s : BitSeq) : Bytes := s.bytes.toList.take (bytesForBits s.size)

/-- the registers that hold the bits: bit `i` goes to bit `i % 16` of register `i / 16` -/
def toRegisters (s : BitSeq) : Bytes :=
  (List.range ((s.size + 15) / 16)).flatMap fun r =>
    [BitOrder.lsb0.pack fun j => s.bit (16 * r + 8 + j),
      BitOrder.lsb0.pack fun j => s.bit (16 * r + j)]

/-- binary digits, a blank between every eight -/
def digits : Nat → List Bool → List Char
  | _, [] => []
  | i, b :: rest =>
    let tail := (if b then '1' else '0') :: digits (i + 1) rest
    if 0 < i ∧ i % 8 = 0 then ' ' :: tail else tail

/-- the bits as binary digits in index order, a blank between every eight -/
def toText (s : BitSeq) : String := String.ofList (digits 0 s.toList)

/-- one bit for each binary digit, blanks passed over -/
def readDigits : List Char → Except BitsFault (List Bool)
  | [] => .ok []
  | c :: rest =>
    if isBlank c then readDigits rest
    else if c = '0' then (readDigits rest).map (false :: ·)
    else if c = '1' then (readDigits rest).map (true :: ·)
    else .error (.badCharacter c)

/-- the run a text of binary digits stands for -/
def ofText (order : BitOrder) (text : String) : Except BitsFault BitSeq :=
  (readDigits text.toList).map (ofList order)

/-- two runs are the same when their bits are -/
instance : BEq BitSeq where
  beq s t := s.size == t.size && (List.range s.size).all fun i => s.bit i == t.bit i

end BitSeq

end BusMaster
