import Mathlib.Order.Interval.Finset.Nat
import BusMaster.Proofs.Bits.Listing
import BusMaster.Proofs.Device.Extended
import BusMaster.Proofs.Query.Transfer

/-!
# Writing and reading back

What an extended write leaves on a device is what a read of the same range brings. Bits go out as
data and masks, in as few registers as they lie in (`isLeast_covering`), and the device has them in
their places and all other bits as they were (`Image.Patched.bitAt_ofNat`). A write that is made has
a read of as much beside it, since fewer registers may be written than read.
-/

namespace BusMaster

/-! ## The row of bits -/

/-- A run that does not go round is seen in the row from the first bit to the last. -/
theorem Image.Patched.bitAt_ofNat {m m' : Image} {first count : Nat} {f : Nat → Bool}
    (h : m.Patched m' first count f) (fits : first + count ≤ DeviceBit.count) {n : Nat}
    (hn : n < DeviceBit.count) :
    m'.bitAt (.ofNat n)
      = if first ≤ n ∧ n < first + count then f (n - first) else m.bitAt (.ofNat n) := by
  by_cases hin : first ≤ n ∧ n < first + count
  · have hplace : first + (n - first) = n := Nat.add_sub_cancel' hin.1
    rw [if_pos hin, ← h.inside (n - first) (by omega), hplace]
  · rw [if_neg hin]
    refine h.outside _ fun i hi heq => ?_
    rw [DeviceBit.ofNat_eq_iff, Nat.mod_eq_of_lt hn, Nat.mod_eq_of_lt (by omega)] at heq
    omega

/-- the bits of a run lie in some `n` registers -/
def CoveredBy (first count n : Nat) : Prop :=
  ∃ registers : Finset Nat, registers.card = n ∧ ∀ i < count, (first + i) / 16 ∈ registers

/-- Bits that follow one another lie in so many registers and in no fewer. -/
theorem isLeast_covering {first count : Nat} (some : 0 < count) :
    IsLeast {n | CoveredBy first count n} ((first % 16 + count + 15) / 16) := by
  constructor
  · -- the registers from the one of the first bit on
    refine ⟨Finset.Ico (first / 16) (first / 16 + (first % 16 + count + 15) / 16), ?_, ?_⟩
    · rw [Nat.card_Ico, Nat.add_sub_cancel_left]
    · intro i hi
      rw [Finset.mem_Ico]
      omega
  · rintro n ⟨registers, rfl, covers⟩
    have within : Finset.Ico (first / 16) (first / 16 + (first % 16 + count + 15) / 16)
        ⊆ registers := by
      intro k hk
      rw [Finset.mem_Ico] at hk
      -- each of them has one of the bits: its own first, or the first of all
      have hbit : (first + (max (16 * k) first - first)) / 16 = k := by omega
      rw [← hbit]
      exact covers _ (by omega)
    have hcard := Finset.card_le_card within
    rwa [Nat.card_Ico, Nat.add_sub_cancel_left] at hcard

/-! ## Requests -/

/-- the request to write data with masks -/
def maskedRequest (unit : UnitId) (start : UInt16) (pairs : List (UInt16 × UInt16)) : Bytes :=
  unit.value :: 0x44 :: ((PackedAddress.ofWord start).wire ++
    wordBytes (UInt16.ofNat pairs.length) ++
    UInt8.ofNat (4 * pairs.length) :: pairs.flatMap fun p => wordBytes p.1 ++ wordBytes p.2)

/-- what the functions of the extended protocol make that write bits -/
inductive WritesBits (unit : UnitId) (r : AddressRange) (bits : BitSeq) :
    Except RequestFault (Query Unit) → Prop where
  | coils : WritesBits unit r bits (Protocol.vendor.writeCoils unit r bits)
  | coil {value : Bool} : bits.toList = [value] →
    WritesBits unit r bits (Protocol.vendor.writeCoil unit r value)

namespace Extended

variable {unit : UnitId} {r : AddressRange} {bits : BitSeq} {q : Query Unit}

/-- The write of one coil is the write of a run of one bit. -/
theorem writeBits_of_writesBits {e : Except RequestFault (Query Unit)}
    (h : WritesBits unit r bits e) :
    ∃ t : BitSeq, writeBits unit r t = e ∧ t.toList = bits.toList := by
  cases h with
  | coils => exact ⟨bits, rfl, rfl⟩
  | @coil value hvalue =>
    refine ⟨BitSeq.ofList .lsb0 [value], rfl, ?_⟩
    rw [hvalue, BitSeq.ofList_eq_ofFn, BitSeq.toList_ofFn]
    rfl

theorem request_writeMaskedToIndex {start : UInt16} {pairs : List (UInt16 × UInt16)}
    (h : writeMaskedToIndex unit (PackedAddress.ofWord start) pairs = .ok q) :
    q.request = maskedRequest unit start pairs := by
  obtain ⟨⟨⟩, -, h⟩ := bind_eq_ok h
  rw [Query.make_eq_ok h]
  rfl

/-- Bits that were written may be read. -/
theorem exists_readBits (h : writeBits unit r bits = .ok q) :
    (UInt16.ofNat bits.size).toNat = bits.size ∧
      ∃ q', readBits unit { r with count := UInt16.ofNat bits.size } = .ok q' := by
  have yields := yields_writeBits unit r bits
  rw [h] at yields
  obtain ⟨⟨countable, addressable⟩, -, -⟩ := yields
  have few : r.spanned bits.size ≤ 60 := countable.2.2
  have some : 1 ≤ r.spanned bits.size := countable.2.1
  have size : bits.size ≤ 960 := by
    rw [AddressRange.spanned] at few
    split at few
    · omega
    · omega
  have kept : (UInt16.ofNat bits.size).toNat = bits.size :=
    UInt16.toNat_ofNat_of_lt' (Nat.lt_of_le_of_lt size (by decide))
  refine ⟨kept, (yields_readBits unit { r with count := UInt16.ofNat bits.size }).exists_ok ?_⟩
  dsimp only
  rw [kept]
  exact ⟨⟨rfl, some, Nat.le_trans few (show 60 ≤ 125 by decide)⟩, addressable⟩

/-- Bits that were written are read back. -/
theorem run_readBits_of_patched (h : writeBits unit r bits = .ok q) {m m' : Image}
    (patched : m.Patched m' (firstBit r) bits.size bits.bit) :
    ∃ s : BitSeq, (Session.ofQuery (readBits unit { r with count := UInt16.ofNat bits.size })).run
        Image.carrier m' = (.ok s, m') ∧ s.toList = bits.toList := by
  obtain ⟨kept, q', hq'⟩ := exists_readBits h
  obtain ⟨s, hrun, -, hsize, hbits⟩ := run_readBits hq' m'
  rw [hq']
  refine ⟨s, hrun, BitSeq.toList_eq_of_bit ?_ fun i hi => ?_⟩
  · rw [BitSeq.length_toList, hsize, kept]
  · rw [hsize, kept] at hi
    rw [BitSeq.getElem?_toList, if_pos hi, hbits i (by rwa [kept])]
    exact congrArg some (patched.inside i hi).symm

/-- Registers that are written are whole, and few enough to be read. -/
theorem exists_readRegisters {data : Bytes} (h : writeRegisters unit r data = .ok q) :
    data.length % 2 = 0 ∧ (UInt16.ofNat (data.length / 2)).toNat = data.length / 2 ∧
      ∃ q', readRegisters unit { r with count := UInt16.ofNat (data.length / 2) } = .ok q' := by
  have yields := yields_writeRegisters unit r data
  rw [h] at yields
  obtain ⟨⟨⟨whole, some, few⟩, addressable⟩, -, -⟩ := yields
  have kept : (UInt16.ofNat (data.length / 2)).toNat = data.length / 2 :=
    UInt16.toNat_ofNat_of_lt' (Nat.lt_of_le_of_lt few (show 123 < 65536 by decide))
  refine ⟨of_decide_eq_true whole, kept,
    (yields_readRegisters unit { r with count := UInt16.ofNat (data.length / 2) }).exists_ok ?_⟩
  dsimp only
  rw [kept]
  exact ⟨⟨rfl, some, Nat.le_trans few (show 123 ≤ 125 by decide)⟩, addressable⟩

/-- Registers that were written are read back. -/
theorem run_readRegisters_of_patched {data : Bytes} (h : writeRegisters unit r data = .ok q)
    {m m' : Image} (patched : m.Patched m' (firstRegister r) (16 * (wordsOf data).length)
      fun i => ((wordsOf data).getD (i / 16) 0).toNat.testBit (i % 16)) :
    (Session.ofQuery (readRegisters unit { r with count := UInt16.ofNat (data.length / 2) })).run
      Image.carrier m' = (.ok data, m') := by
  obtain ⟨even, kept, q', hq'⟩ := exists_readRegisters h
  obtain ⟨us, hrun, hlength, hbits⟩ := run_readRegisters hq' m'
  have size : us.length = (wordsOf data).length := by
    rw [hlength, kept, length_wordsOf]
  have words : us = wordsOf data := by
    refine List.ext_getElem size fun k hk hk' => word_eq_iff.2 fun j hj => ?_
    have hin : 16 * k + j < 16 * us.length := by omega
    have hdiv : (16 * k + j) / 16 = k := by omega
    have hmod : (16 * k + j) % 16 = j := by omega
    have hbit := (hbits (16 * k + j) (by rwa [← hlength])).trans
      (patched.inside (16 * k + j) (by rwa [← size]))
    rw [bit_ofRegisters, decide_eq_true hin, Bool.true_and, hdiv, hmod] at hbit
    rwa [List.getD_eq_getElem _ _ hk, List.getD_eq_getElem _ _ hk'] at hbit
  rw [hq', hrun, words, wordsBytes_wordsOf even]

end Extended

open Extended (firstBit)

/-- **An extended write of bits sets those bits and no others, and they are read back.** The request
has data and mask for as few registers as the bits lie in, and a device that takes from the data the
digits whose mask is zero has the bits where they belong, whatever it held. Registers that were
written are read back as well. -/
theorem extended_writes_are_read_back (unit : UnitId) (r : AddressRange) :
    (∀ bits e q, WritesBits unit r bits e → e = .ok q →
      ∃ (start : UInt16) (pairs : List (UInt16 × UInt16)),
        q.request = maskedRequest unit start pairs ∧
        start.toNat = r.address.toNat + r.offset.toNat / 16 ∧
        pairs.length ≤ 60 ∧ IsLeast {n | CoveredBy (firstBit r) bits.size n} pairs.length ∧
        ∀ m : Image, firstBit r + bits.size ≤ DeviceBit.count →
          (Session.ofQuery e).run Image.carrier m = (.ok (), m.writeMasked start pairs) ∧
          (∀ n < DeviceBit.count, (m.writeMasked start pairs).bitAt (.ofNat n)
            = if firstBit r ≤ n ∧ n < firstBit r + bits.size then bits.bit (n - firstBit r)
              else m.bitAt (.ofNat n)) ∧
          (m.writeMasked start pairs).coils = m.coils ∧
          ∃ s, (Session.ofQuery (Protocol.vendor.readCoils unit
              { r with count := UInt16.ofNat bits.size })).run Image.carrier
                (m.writeMasked start pairs) = (.ok s, m.writeMasked start pairs) ∧
            (s == bits) = true) ∧
    ∀ data m m', (Session.ofQuery (Protocol.vendor.writeRegisters unit r data)).run
        Image.carrier m = (.ok (), m') →
      (Session.ofQuery (Protocol.vendor.readHoldingRegisters unit
          { r with count := UInt16.ofNat (data.length / 2) })).run Image.carrier m'
        = (.ok data, m') := by
  refine ⟨?_, ?_⟩
  · rintro bits e q writes rfl
    obtain ⟨t, ht, hlist⟩ := Extended.writeBits_of_writesBits writes
    obtain ⟨hsize, hbit⟩ := BitSeq.bit_of_toList hlist
    obtain ⟨start, pairs, hmasked, hstart, some, hlength, small, patched⟩ :=
      Extended.writeBits_eq_ok ht
    rw [← hsize, ← hbit]
    refine ⟨start, pairs, Extended.request_writeMaskedToIndex hmasked, hstart, ?_, ?_, ?_⟩
    · have yields := Extended.yields_writeMaskedToIndex unit (PackedAddress.ofWord start) pairs
      rw [hmasked] at yields
      exact yields.1.1.2.2
    · have hfirst : firstBit r % 16 = r.offset.toNat % 16 := by
        rw [firstBit]
        omega
      rw [hlength, ← hfirst]
      exact isLeast_covering some
    · intro m fits
      obtain ⟨s, hrun, hs⟩ := Extended.run_readBits_of_patched ht (patched m)
      exact ⟨Image.run_writeMaskedToIndex hmasked small m,
        fun n hn => (patched m).bitAt_ofNat fits hn, (patched m).coils, s, hrun,
        (BitSeq.beq_iff_toList s bits).2 (hs.trans hlist)⟩
  · intro data m m' h
    obtain ⟨q, hq⟩ := Session.ofQuery_eq_ok h
    change Extended.writeRegisters unit r data = .ok q at hq
    obtain ⟨even, kept, -⟩ := Extended.exists_readRegisters hq
    have small : (wordsOf data).length < 2 ^ 16 := by
      rw [length_wordsOf, ← kept]
      exact UInt16.toNat_lt _
    obtain ⟨written, hrun, patched⟩ :=
      Extended.run_writeRegisters (by rwa [wordsBytes_wordsOf even]) small m
    change (Session.ofQuery (Extended.writeRegisters unit r data)).run Image.carrier m = _ at h
    rw [hq, hrun] at h
    obtain ⟨-, rfl⟩ := Prod.mk.inj h
    exact Extended.run_readRegisters_of_patched hq patched

/-- fourteen bits, the first in the highest digit of a byte, that start at bit 5 of a register and
end at bit 2 of the next, and registers at the same place -/
theorem extended_writes_are_read_back_across_registers :
    let r : AddressRange := ⟨0x1FFF, 21, 0⟩
    let bits := BitSeq.ofList .msb0
      [true, false, true, true, false, false, true, false, true, true, true, false, false, true]
    let m := Image.filled true
    ∃ (start : UInt16) (pairs : List (UInt16 × UInt16)),
      start.toNat = 0x2000 ∧ (m.writeMasked start pairs).bitAt (.ofNat 0x20004) = true ∧
      (m.writeMasked start pairs).bitAt (.ofNat 0x20006) = false ∧
      (∃ s, (Session.ofQuery (Protocol.vendor.readCoils ⟨17⟩
            { r with count := UInt16.ofNat bits.size })).run Image.carrier
              (m.writeMasked start pairs) = (.ok s, m.writeMasked start pairs) ∧
          (s == bits) = true) ∧
      ∃ m', (Session.ofQuery (Protocol.vendor.readHoldingRegisters ⟨17⟩
        { r with count := UInt16.ofNat 2 })).run Image.carrier m'
          = (.ok [0x12, 0x34, 0x56, 0x78], m') := by
  intro r bits m
  obtain ⟨written, registers⟩ := extended_writes_are_read_back ⟨17⟩ r
  obtain ⟨q, hq⟩ : ∃ q, Protocol.vendor.writeCoils ⟨17⟩ r bits = .ok q :=
    (Extended.yields_writeBits ⟨17⟩ r bits).exists_ok (by decide)
  obtain ⟨start, pairs, -, hstart, -, -, device⟩ := written bits _ q .coils hq
  obtain ⟨-, row, -, read⟩ := device m (by decide)
  obtain ⟨q', hq'⟩ :
      ∃ q', Extended.writeRegisters ⟨17⟩ r (wordsBytes [0x1234, 0x5678]) = .ok q' :=
    (Extended.yields_writeRegisters ⟨17⟩ r _).exists_ok (by decide)
  obtain ⟨m', hrun, -⟩ := Extended.run_writeRegisters hq' (by decide) m
  rw [← hq'] at hrun
  refine ⟨start, pairs, hstart.trans (by decide), ?_, ?_, read, m',
    registers [0x12, 0x34, 0x56, 0x78] m m' hrun⟩
  · exact (row 0x20004 (by decide)).trans (Image.bitAt_filled ..)
  · exact (row 0x20006 (by decide)).trans (by decide)

end BusMaster
