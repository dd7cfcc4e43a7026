import Mathlib.Data.Nat.Bitwise
import BusMaster.Proofs.Addressing
import BusMaster.Proofs.Words

/-!
# An ideal device

A device is given by what it holds, its `Image`: a coil and a register at every word. It serves each
read and performs and echoes each write at once, the addresses going on from the last to the first.
To the standard functions coils and registers are different things; the extended functions know
registers only, by their packed addresses, and their words travel low byte first.

`Image.serve` looks at the bytes of a request as a device would, with arithmetic on numbers in place
of masks, so what is proved on it does not rest on the packing it is meant to check. `Image.carrier`
puts the device at the other end of a link that loses nothing.
-/

namespace BusMaster

/-- what a device holds -/
structure Image where
  coils : UInt16 → Bool
  registers : UInt16 → UInt16

/-- the bytes of coils, the first coil the lowest digit of the first byte -/
def coilBytes (coils : List Bool) : Bytes :=
  (List.range ((coils.length + 7) / 8)).map fun k =>
    UInt8.ofNat (Nat.ofBits fun j : Fin 8 => coils.getD (8 * k + j) false)

/-- the first `count` coils in bytes -/
def coilsOf (count : Nat) (data : Bytes) : List Bool :=
  (List.range count).map fun i => (data.getD (i / 8) 0).toNat.testBit (i % 8)

@[simp] theorem length_coilBytes (coils : List Bool) :
    (coilBytes coils).length = bytesForBits coils.length := by
  simp [coilBytes, bytesForBits]

/-- The digits of the bytes are the coils. -/
theorem testBit_coilBytes (coils : List Bool) {i : Nat} (hi : i < coils.length) :
    ((coilBytes coils).getD (i / 8) 0).toNat.testBit (i % 8) = coils.getD i false := by
  have hbyte : i / 8 < (coils.length + 7) / 8 := by omega
  have hdigits := Nat.ofBits_lt_two_pow fun j : Fin 8 => coils.getD (8 * (i / 8) + j) false
  have hget : (coilBytes coils).getD (i / 8) 0
      = UInt8.ofNat (Nat.ofBits fun j : Fin 8 => coils.getD (8 * (i / 8) + j) false) := by
    simp [coilBytes, List.getD_eq_getElem?_getD, hbyte]
  rw [hget, UInt8.toNat_ofNat_of_lt' hdigits,
    Nat.testBit_ofBits_lt _ _ (Nat.mod_lt _ (by decide))]
  exact congrArg (coils.getD · false) (Nat.div_add_mod i 8)

/-- pairs of data and mask -/
def pairsOf : List UInt16 → List (UInt16 × UInt16)
  | data :: mask :: rest => (data, mask) :: pairsOf rest
  | _ => []

theorem pairsOf_flatMap (pairs : List (UInt16 × UInt16)) :
    pairsOf (pairs.flatMap fun p => [p.1, p.2]) = pairs := by
  induction pairs with
  | nil => rfl
  | cons p pairs ih => exact congrArg (p :: ·) ih

/-- the register a packed address names: 3 bits of page, 6 of category, 7 of index -/
def packedWord (category index page : UInt8) : UInt16 :=
  UInt16.ofNat (8192 * page.toNat + 128 * category.toNat + index.toNat)

/-- The bytes of a packed address name its register. -/
theorem packedWord_ofWord (w : UInt16) :
    packedWord (PackedAddress.ofWord w).category (PackedAddress.ofWord w).index
      (PackedAddress.ofWord w).page = w := by
  rw [packedWord, PackedAddress.toNat_ofWord]
  exact UInt16.ofNat_toNat

/-- Distances from a start are counted onwards, past the last address too. -/
theorem toNat_add_ofNat_sub (start : UInt16) {i : Nat} (hi : i < 2 ^ 16) :
    (start + UInt16.ofNat i - start).toNat = i := by
  have hstart := start.toNat_lt
  rw [UInt16.toNat_sub, UInt16.toNat_add, UInt16.toNat_ofNat_of_lt' hi]
  omega

namespace Image

/-- `count` coils from `start` on -/
def readCoils (m : Image) (start : UInt16) (count : Nat) : List Bool :=
  (List.range count).map fun i => m.coils (start + UInt16.ofNat i)

/-- `count` registers from `start` on -/
def readRegisters (m : Image) (start : UInt16) (count : Nat) : List UInt16 :=
  (List.range count).map fun i => m.registers (start + UInt16.ofNat i)

/-- coils from `start` on replaced -/
def writeCoils (m : Image) (start : UInt16) (coils : List Bool) : Image :=
  { m with coils := fun x => coils.getD (x - start).toNat (m.coils x) }

/-- registers from `start` on replaced -/
def writeRegisters (m : Image) (start : UInt16) (ws : List UInt16) : Image :=
  { m with registers := fun x => ws.getD (x - start).toNat (m.registers x) }

/-- of the registers from `start` on, the bits replaced whose mask bit is zero -/
def writeMasked (m : Image) (start : UInt16) (pairs : List (UInt16 × UInt16)) : Image :=
  { m with registers := fun x =>
      match pairs[(x - start).toNat]? with
      | some (data, mask) => m.registers x &&& mask ||| data &&& ~~~mask
      | none => m.registers x }

@[simp] theorem length_readCoils (m : Image) (start : UInt16) (count : Nat) :
    (m.readCoils start count).length = count := by
  simp [readCoils]

@[simp] theorem length_readRegisters (m : Image) (start : UInt16) (count : Nat) :
    (m.readRegisters start count).length = count := by
  simp [readRegisters]

theorem getD_readCoils (m : Image) (start : UInt16) {count i : Nat} (hi : i < count) :
    (m.readCoils start count).getD i false = m.coils (start + UInt16.ofNat i) := by
  simp [readCoils, List.getD_eq_getElem?_getD, hi]

theorem getElem?_readRegisters (m : Image) (start : UInt16) {count i : Nat} (hi : i < count) :
    (m.readRegisters start count)[i]? = some (m.registers (start + UInt16.ofNat i)) := by
  simp [readRegisters, hi]

/-- the response to a request, and what the device holds after it -/
def serve (m : Image) : Bytes → Bytes × Image
  | unit :: function :: body =>
    let counted (data : Bytes) : Bytes := unit :: function :: UInt8.ofNat data.length :: data
    match function, body with
    | 0x01, [a, b, c, d] =>
      (counted (coilBytes (m.readCoils (wordOf a b) (wordOf c d).toNat)), m)
    | 0x03, [a, b, c, d] =>
      (counted (wordsBytes (m.readRegisters (wordOf a b) (wordOf c d).toNat)), m)
    | 0x05, [a, b, 0xFF, 0x00] =>
      ([unit, function, a, b, 0xFF, 0x00], m.writeCoils (wordOf a b) [true])
    | 0x05, [a, b, 0x00, 0x00] =>
      ([unit, function, a, b, 0x00, 0x00], m.writeCoils (wordOf a b) [false])
    | 0x06, [a, b, c, d] =>
      ([unit, function, a, b, c, d], m.writeRegisters (wordOf a b) [wordOf c d])
    | 0x0F, a :: b :: c :: d :: _ :: data =>
      ([unit, function, a, b, c, d],
        m.writeCoils (wordOf a b) (coilsOf (wordOf c d).toNat data))
    | 0x10, a :: b :: c :: d :: _ :: data =>
      ([unit, function, a, b, c, d],
        m.writeRegisters (wordOf a b) ((wordsOf data).take (wordOf c d).toNat))
    | 0x42, [category, index, page, c, d] =>
      (counted (swapWords (wordsBytes
        (m.readRegisters (packedWord category index page) (wordOf c d).toNat))), m)
    | 0x43, category :: index :: page :: c :: d :: _ :: data =>
      ([unit, function, category, index, page, c, d],
        m.writeRegisters (packedWord category index page)
          ((wordsOf (swapWords data)).take (wordOf c d).toNat))
    | 0x44, category :: index :: page :: c :: d :: _ :: data =>
      ([unit, function, category, index, page, c, d],
        m.writeMasked (packedWord category index page)
          ((pairsOf (wordsOf data)).take (wordOf c d).toNat))
    | _, _ => ([unit, function ||| 0x80, 0x01], m)
  | request => (request, m)

/-- the device at the other end of an ideal link -/
def carrier : Carrier Image where
  ask m request := (Transceiver.checkException (m.serve request).1, (m.serve request).2)
  tell m request := (.ok (), (m.serve request).2)
  note m _ := m

end Image

end BusMaster
