import BusMaster.Proofs.Device.Image
import BusMaster.Query.Extended

/-!
# Bits of registers

To the extended functions a device is one long row of bits, sixteen to a register, counted from bit 0
of register 0 on and round. `DeviceBit.ofNat` names the bit at a place of the row, and `Image.bitAt` is
what it holds. A write leaves a run of bits at a place, `Image.Patched`, whether it came with data
and masks (`patched_writeMasked`) or as whole registers (`patched_writeRegisters`).
-/

namespace BusMaster

/-- a bit of a register of a device -/
structure DeviceBit where
  register : UInt16
  bit : Fin 16
  deriving DecidableEq, Repr

namespace DeviceBit

/-- the bit at a place of the row, which goes round -/
def ofNat (n : Nat) : DeviceBit := ⟨UInt16.ofNat (n / 16), ⟨n % 16, Nat.mod_lt _ (by decide)⟩⟩

/-- number of bits in the row -/
def count : Nat := 2 ^ 20

theorem ofNat_eq_iff {i j : Nat} : ofNat i = ofNat j ↔ i % count = j % count := by
  have hcount : count = 2 ^ 20 := rfl
  rw [ofNat, ofNat, DeviceBit.mk.injEq, ← UInt16.toNat_inj, Fin.mk.injEq, UInt16.toNat_ofNat',
    UInt16.toNat_ofNat', hcount]
  omega

/-- Every bit of a device has a place less than a whole row after any other place. -/
theorem exists_ofNat (b : DeviceBit) (first : Nat) : ∃ i < count, b = ofNat (first + i) := by
  have hregister := b.register.toNat_lt
  have hcount : count = 2 ^ 20 := rfl
  have hb : b = ofNat (16 * b.register.toNat + b.bit) := by
    have hdiv : (16 * b.register.toNat + b.bit.val) / 16 = b.register.toNat := by omega
    have hmod : (16 * b.register.toNat + b.bit.val) % 16 = b.bit.val := by omega
    simp only [ofNat, hdiv, hmod, UInt16.ofNat_toNat]
  refine ⟨(16 * b.register.toNat + b.bit + (count - first % count)) % count,
    Nat.mod_lt _ (by decide), hb.trans (ofNat_eq_iff.2 ?_)⟩
  rw [hcount]
  omega

end DeviceBit

namespace Image

/-- what the device holds at a bit -/
def bitAt (m : Image) (b : DeviceBit) : Bool := (m.registers b.register).toNat.testBit b.bit

/-- The device after a run of `count` bits was left at a place of the row. -/
structure Patched (m m' : Image) (first count : Nat) (f : Nat → Bool) : Prop where
  inside : ∀ i < count, m'.bitAt (.ofNat (first + i)) = f i
  outside : ∀ b, (∀ i < count, b ≠ .ofNat (first + i)) → m'.bitAt b = m.bitAt b
  coils : m'.coils = m.coils

theorem Patched.congr {m m' : Image} {first count : Nat} {f g : Nat → Bool}
    (h : m.Patched m' first count f) (same : ∀ i < count, f i = g i) :
    m.Patched m' first count g :=
  ⟨fun i hi => (h.inside i hi).trans (same i hi), h.outside, h.coils⟩

theorem bitAt_ofNat_readRegisters (m : Image) (start : UInt16) {n i : Nat} (hi : i < 16 * n) :
    ((m.readRegisters start n).getD (i / 16) 0).toNat.testBit (i % 16)
      = m.bitAt (.ofNat (16 * start.toNat + i)) := by
  have hword : (m.readRegisters start n).getD (i / 16) 0
      = m.registers (UInt16.ofNat ((16 * start.toNat + i) / 16)) := by
    rw [List.getD_eq_getElem?_getD, getElem?_readRegisters _ _ (by omega), Option.getD_some,
      show (16 * start.toNat + i) / 16 = start.toNat + i / 16 by omega, UInt16.ofNat_add,
      UInt16.ofNat_toNat]
  rw [hword, bitAt]
  simp only [DeviceBit.ofNat]
  rw [show (16 * start.toNat + i) % 16 = i % 16 by omega]

/-- the device with all bits alike -/
def filled (value : Bool) : Image where
  coils _ := false
  registers _ := if value then 0xFFFF else 0

theorem bitAt_filled (value : Bool) (b : DeviceBit) : (filled value).bitAt b = value := by
  obtain ⟨x, j⟩ := b
  change (if value then (0xFFFF : UInt16) else 0).toNat.testBit j = value
  cases value with
  | false => exact Nat.zero_testBit j
  | true =>
    have all : ∀ j : Fin 16, (0xFFFF : UInt16).toNat.testBit j = true := by decide
    exact all j

/-- the device with a single bit set -/
def single (b : DeviceBit) : Image where
  coils _ := false
  registers x := if x = b.register then UInt16.ofNat (2 ^ b.bit.val) else 0

theorem bitAt_single (b b' : DeviceBit) : (single b).bitAt b' = decide (b' = b) := by
  obtain ⟨x, j⟩ := b
  obtain ⟨x', j'⟩ := b'
  have hpow : ∀ j : Fin 16, (UInt16.ofNat (2 ^ j.val)).toNat = 2 ^ j.val := by decide
  by_cases hx : x' = x
  · simp [bitAt, single, hx, hpow, Nat.testBit_two_pow, Fin.ext_iff, eq_comm]
  · simp [bitAt, single, hx]

/-- How far a bit is from a register, going round. -/
theorem register_ofNat_sub (start : UInt16) {i : Nat} (hi : i < DeviceBit.count) :
    ((DeviceBit.ofNat (16 * start.toNat + i)).register - start).toNat = i / 16 := by
  have hcount : DeviceBit.count = 2 ^ 20 := rfl
  have hsum : (DeviceBit.ofNat (16 * start.toNat + i)).register
      = start + UInt16.ofNat (i / 16) := by
    rw [DeviceBit.ofNat, show (16 * start.toNat + i) / 16 = start.toNat + i / 16 by omega,
      UInt16.ofNat_add, UInt16.ofNat_toNat]
  rw [hsum, toNat_add_ofNat_sub _ (by omega)]

/-- Registers that are written leave their digits. -/
theorem patched_writeRegisters (m : Image) (start : UInt16) {ws : List UInt16}
    (small : ws.length ≤ 2 ^ 16) :
    m.Patched (m.writeRegisters start ws) (16 * start.toNat) (16 * ws.length)
      fun i => (ws.getD (i / 16) 0).toNat.testBit (i % 16) := by
  have hcount : DeviceBit.count = 2 ^ 20 := rfl
  have hregister : ∀ i < DeviceBit.count,
      (m.writeRegisters start ws).registers (DeviceBit.ofNat (16 * start.toNat + i)).register
        = ws.getD (i / 16) (m.registers (DeviceBit.ofNat (16 * start.toNat + i)).register) := by
    intro i hi
    change ws.getD (_ - start).toNat _ = _
    rw [register_ofNat_sub start hi]
  refine ⟨fun i hi => ?_, fun b hb => ?_, rfl⟩
  · have hin : i / 16 < ws.length := by omega
    rw [bitAt, hregister i (by omega), List.getD_eq_getElem _ _ hin, List.getD_eq_getElem _ _ hin]
    simp only [DeviceBit.ofNat]
    rw [show (16 * start.toNat + i) % 16 = i % 16 by omega]
  · obtain ⟨i, hi, rfl⟩ := b.exists_ofNat (16 * start.toNat)
    have hout : 16 * ws.length ≤ i := Nat.le_of_not_lt fun hlt => hb i hlt rfl
    rw [bitAt, hregister i hi, List.getD_eq_default _ _ (by omega), bitAt]

end Image

/-! ## Data and masks -/

namespace BitSpan

theorem toNat_one_shiftLeft {i : Nat} (hi : i < 16) :
    ((1 : UInt16) <<< UInt16.ofNat i).toNat = 2 ^ i := by
  have all : ∀ i < 16, ((1 : UInt16) <<< UInt16.ofNat i).toNat = 2 ^ i := by decide
  exact all i hi

/-- Setting the digits of a list that a function picks sets those and leaves the others. -/
theorem testBit_foldl_or (f : Nat → Bool) (j : Nat) :
    ∀ (digits : List Nat) (acc : UInt16), (∀ i ∈ digits, i < 16) →
      (digits.foldl (fun acc i => if f i then acc ||| 1 <<< UInt16.ofNat i else acc)
        acc).toNat.testBit j = (acc.toNat.testBit j || (decide (j ∈ digits) && f j)) := by
  intro digits
  induction digits with
  | nil => intro acc _; simp
  | cons i rest ih =>
    intro acc within
    have hi : i < 16 := within i (List.mem_cons_self ..)
    rw [List.foldl_cons, ih _ fun k hk => within k (List.mem_cons_of_mem _ hk)]
    by_cases hij : i = j
    · subst hij
      by_cases hf : f i <;> simp [hf, toNat_one_shiftLeft hi]
    · by_cases hf : f i <;> simp [hf, toNat_one_shiftLeft hi, hij, Ne.symm hij]

/-- A word has the digits it was made of. -/
theorem testBit_packWord (f : Nat → Bool) {j : Nat} (hj : j < 16) :
    (packWord f).toNat.testBit j = f j := by
  rw [packWord, testBit_foldl_or f j _ _ fun i hi => List.mem_range.1 hi]
  simp [hj]

/-- Where the mask is one the digit is kept, and where it is zero it comes from the data. -/
theorem testBit_masked (old data mask : UInt16) {j : Nat} (hj : j < 16) :
    (old &&& mask ||| data &&& ~~~mask).toNat.testBit j
      = if mask.toNat.testBit j then old.toNat.testBit j else data.toNat.testBit j := by
  change (old &&& mask ||| data &&& ~~~mask).toBitVec.getLsbD j
    = if mask.toBitVec.getLsbD j then old.toBitVec.getLsbD j else data.toBitVec.getLsbD j
  simp only [UInt16.toBitVec_or, UInt16.toBitVec_and, UInt16.toBitVec_not, BitVec.getLsbD_or,
    BitVec.getLsbD_and, BitVec.getLsbD_not, hj, decide_true, Bool.true_and]
  cases mask.toBitVec.getLsbD j <;> simp

end BitSpan

/-- Data and masks that are written leave the run they were made from. -/
theorem Image.patched_writeMasked (m : Image) (start : UInt16) {span : BitSpan} {s : BitSeq}
    (registers : span.registers.toNat = (span.first + s.size + 15) / 16) :
    m.Patched (m.writeMasked start (span.maskedPairs s)) (16 * start.toNat + span.first) s.size
      s.bit := by
  have hcount : DeviceBit.count = 2 ^ 20 := rfl
  have hbound := span.registers.toNat_lt
  -- what a bit of the row becomes, seen from the first register of the span
  have hbit : ∀ i < DeviceBit.count,
      (m.writeMasked start (span.maskedPairs s)).bitAt (.ofNat (16 * start.toNat + i))
        = if span.first ≤ i ∧ i - span.first < s.size then s.bit (i - span.first)
          else m.bitAt (.ofNat (16 * start.toNat + i)) := by
    intro i hi
    have hmod : (16 * start.toNat + i) % 16 = i % 16 := by omega
    have hdigit : i % 16 < 16 := Nat.mod_lt _ (by decide)
    have hsplit : 16 * (i / 16) + i % 16 = i := Nat.div_add_mod i 16
    have hregister := register_ofNat_sub start hi
    simp only [bitAt, writeMasked, hregister]
    by_cases hin : i / 16 < span.registers.toNat
    · simp only [BitSpan.maskedPairs, List.getElem?_map, List.getElem?_range hin, Option.map_some]
      simp only [DeviceBit.ofNat, hmod]
      rw [BitSpan.testBit_masked _ _ _ hdigit, BitSpan.testBit_packWord _ hdigit,
        BitSpan.testBit_packWord _ hdigit, hsplit]
      by_cases hcovered : span.first ≤ i ∧ i - span.first < s.size
      · simp [hcovered]
      · rw [if_neg hcovered]
        rw [not_and_or] at hcovered
        rcases hcovered with h | h <;> simp [h]
    · have hnone : (span.maskedPairs s)[i / 16]? = none := by
        simp [BitSpan.maskedPairs, Nat.le_of_not_lt hin]
      rw [hnone, if_neg (by omega)]
  refine ⟨fun i hi => ?_, fun b hb => ?_, rfl⟩
  · rw [Nat.add_assoc, hbit _ (by omega), if_pos (by omega), Nat.add_sub_cancel_left]
  · obtain ⟨i, hi, rfl⟩ := b.exists_ofNat (16 * start.toNat)
    rw [hbit i hi, if_neg]
    rintro ⟨hfirst, hlast⟩
    refine hb (i - span.first) hlast ?_
    rw [show 16 * start.toNat + span.first + (i - span.first) = 16 * start.toNat + i by omega]

end BusMaster
