import BusMaster.Proofs.Bits.Listing
import BusMaster.Proofs.Query.Transfer

/-!
# Coils on the wire

A device finds coil `i` of a request in bit `i % 8` of data byte `i / 8`, counted from the least
significant. `Standard.writeCoils` hands it the bytes of the run as they are, so what it finds there
is the bit that the run keeps in that place: bit `i` itself when the least significant bit comes
first, and bit `mirrored i` of the run, the one at the other end of the byte, when it comes last
(`BitSeq.testBit_toBytes_tidy`).

So coils are written by value exactly if the order is that of coils, or the run reads the same with
each of its bytes turned around (`Standard.writeCoils_by_value_iff`). Two runs that are the same
make the same request under the same condition.
-/

namespace BusMaster

/-- the position at the other end of its byte -/
def mirrored (i : Nat) : Nat := 8 * (i / 8) + (7 - i % 8)

/-- the position that a run keeps where a device finds coil `i` -/
def BitOrder.place : BitOrder → Nat → Nat
  | .lsb0, i => i
  | .msb0, i => mirrored i

namespace BitOrder

theorem place_div (order : BitOrder) (i : Nat) : order.place i / 8 = i / 8 := by
  cases order with
  | lsb0 => rfl
  | msb0 =>
    change mirrored i / 8 = i / 8
    rw [mirrored]
    omega

/-- In either order this position has the mask that a device looks through. -/
theorem mask_place (order : BitOrder) (i : Nat) : order.mask (order.place i) = lsb0.mask i := by
  cases order with
  | lsb0 => rfl
  | msb0 =>
    have all : ∀ j < 8, msb0.mask (7 - j) = lsb0.mask j := by decide
    have inByte : mirrored i % 8 = 7 - i % 8 := by
      rw [mirrored]
      omega
    rw [place, ← mask_mod, inByte, all _ (Nat.mod_lt _ (by decide)), mask_mod]

/-- Two orders keep a run in the same places if they are one order, or if the bits at the two ends
of each byte are the same. -/
theorem forall_place_iff (a b : BitOrder) (f : Nat → Bool) :
    (∀ i, f (a.place i) = f (b.place i)) ↔ a = b ∨ ∀ i, f (mirrored i) = f i := by
  cases a <;> cases b
  case lsb0.lsb0 => simp
  case msb0.msb0 => simp
  case lsb0.msb0 => simp [place, eq_comm]
  case msb0.lsb0 => simp [place]

end BitOrder

/-- Bytes with the same binary digits are the same. -/
theorem bytes_ext_testBit {a b : Bytes} (length : a.length = b.length)
    (digits : ∀ i, (a.getD (i / 8) 0).toNat.testBit (i % 8)
      = (b.getD (i / 8) 0).toNat.testBit (i % 8)) : a = b := by
  refine List.ext_getElem length fun k ha hb => UInt8.toNat_inj.1 (Nat.eq_of_testBit_eq fun j => ?_)
  by_cases hj : j < 8
  · have hdiv : (8 * k + j) / 8 = k := by omega
    have hmod : (8 * k + j) % 8 = j := by omega
    simpa only [hdiv, hmod, List.getD_eq_getElem?_getD, List.getElem?_eq_getElem ha,
      List.getElem?_eq_getElem hb, Option.getD_some] using digits (8 * k + j)
  · have small : 2 ^ 8 ≤ 2 ^ j := Nat.pow_le_pow_right (by decide) (Nat.not_lt.1 hj)
    rw [Nat.testBit_lt_two_pow (Nat.lt_of_lt_of_le (UInt8.toNat_lt _) small),
      Nat.testBit_lt_two_pow (Nat.lt_of_lt_of_le (UInt8.toNat_lt _) small)]

namespace BitSeq

/-- What a device finds at `i` in the bytes of a run is the bit that the run keeps there. -/
theorem testBit_toBytes_tidy {s : BitSeq} (tidy : s.Tidy) (i : Nat) :
    (s.toBytes.getD (i / 8) 0).toNat.testBit (i % 8) = s.bit (s.order.place i) := by
  have kept : (s.bytes.getD (i / 8) 0).toNat.testBit (i % 8) = s.bit (s.order.place i) := by
    rw [← tidy.held_eq_bit, held, BitOrder.place_div, BitOrder.mask_place, BitOrder.and_mask_lsb0]
  by_cases sent : i / 8 < bytesForBits s.size
  · rw [toBytes, List.getD_eq_getElem?_getD, List.getElem?_take_of_lt sent, Array.getElem?_toList,
      ← Array.getD_eq_getD_getElem?, kept]
  · have past : s.size ≤ s.order.place i := by
      have hdiv := s.order.place_div i
      rw [bytesForBits] at sent
      omega
    have cut : s.toBytes.getD (i / 8) 0 = 0 := by
      rw [toBytes, List.getD_eq_getElem?_getD, List.getElem?_take_eq_none (Nat.not_lt.1 sent),
        Option.getD_none]
    rw [cut, bit_eq_false past]
    exact Nat.zero_testBit _

/-- The bytes of a run have its bits by value exactly if the order is that of coils, or each byte
reads the same from both ends. -/
theorem toBytes_by_value_iff {s : BitSeq} (tidy : s.Tidy) :
    (∀ i, (s.toBytes.getD (i / 8) 0).toNat.testBit (i % 8) = s.bit i) ↔
      s.order = .lsb0 ∨ ∀ i, s.bit (mirrored i) = s.bit i := by
  rw [← BitOrder.forall_place_iff]
  exact forall_congr' fun i => by rw [testBit_toBytes_tidy tidy]; rfl

/-- Two runs that are the same have the same bytes exactly if they have one order, or each byte
reads the same from both ends. -/
theorem toBytes_eq_iff {s t : BitSeq} (tidy : s.Tidy) (tidy' : t.Tidy) (size : t.size = s.size)
    (bits : ∀ i, t.bit i = s.bit i) :
    t.toBytes = s.toBytes ↔ t.order = s.order ∨ ∀ i, s.bit (mirrored i) = s.bit i := by
  rw [← BitOrder.forall_place_iff]
  constructor
  · intro same i
    rw [← bits, ← testBit_toBytes_tidy tidy', same, testBit_toBytes_tidy tidy]
  · intro places
    refine bytes_ext_testBit ?_ fun i => ?_
    · rw [length_toBytes tidy'.fits, length_toBytes tidy.fits, size]
    · rw [testBit_toBytes_tidy tidy', testBit_toBytes_tidy tidy, bits, places]

end BitSeq

namespace Standard

/-- Coils are written in one request with the bytes of the run, if the coils exist; else they are
refused. -/
theorem writeCoils_cases (unit : UnitId) (r : AddressRange) {s : BitSeq}
    (fits : s.size ≤ s.capacity) (some : 1 ≤ s.size) (few : s.size ≤ 1968) :
    (r.address.toNat + r.offset.toNat + s.size ≤ 65536 ∧
      ∃ q start, writeCoils unit r s = .ok q ∧
        start.toNat = r.address.toNat + r.offset.toNat ∧
        q.request = unit.value :: FunctionCode.writeMultipleCoils.wire ::
          (wordBytes start ++ wordBytes (UInt16.ofNat s.size) ++
            UInt8.ofNat s.toBytes.length :: s.toBytes)) ∨
    (65536 < r.address.toNat + r.offset.toNat + s.size ∧
      writeCoils unit r s = .error (.configuration .addressOverflow)) := by
  have countable : (Transfer.standard unit .writeMultipleCoils r s.size maxWriteBits).Countable :=
    ⟨rfl, some, few⟩
  have yields := yields_writeCoils unit r fits
  cases hmade : writeCoils unit r s with
  | ok q =>
    rw [hmade] at yields
    obtain ⟨⟨-, none | exist⟩, -⟩ := yields
    · exact absurd none (Nat.ne_of_gt some)
    · refine .inl ⟨exist, q, ?_⟩
      obtain ⟨start, hstart, hmake⟩ := bind_eq_ok hmade
      obtain ⟨hfirst, -⟩ := AddressRange.validate_eq_ok (ofConfig_eq_ok hstart)
      exact ⟨start, rfl, hfirst, congrArg Query.request (Query.make_eq_ok hmake)⟩
  | error fault =>
    rw [hmade] at yields
    obtain ⟨cause, rfl, refused⟩ := yields
    refine .inr ⟨Nat.not_le.1 fun exist => refused.notAllowed ⟨countable, .inr exist⟩, ?_⟩
    rw [refused.blamed countable]

/-- **Coils are written by value, or turned around.** From one coil to 1968, a run makes a request
exactly if its coils exist. The request brings as many data bytes as hold the run, and it says so. A
device finds bit `i` of the run as coil `i`, and zeros behind the last one, exactly if the order of
the run is that of coils or each of its bytes reads the same from both ends. A run that is the same
in the other order makes the same request under this condition, and no other time. -/
theorem writeCoils_by_value_iff {s : BitSeq} (made : s.Made) (some : 1 ≤ s.size)
    (few : s.size ≤ 1968) (unit : UnitId) (r : AddressRange) :
    (r.address.toNat + r.offset.toNat + s.size ≤ 65536 →
      ∃ q start data, writeCoils unit r s = .ok q ∧
        start.toNat = r.address.toNat + r.offset.toNat ∧
        data.length = (s.size + 7) / 8 ∧
        q.request = unit.value :: FunctionCode.writeMultipleCoils.wire ::
          (wordBytes start ++ wordBytes (UInt16.ofNat s.size) ++ UInt8.ofNat data.length :: data) ∧
        ((∀ i, (data.getD (i / 8) 0).toNat.testBit (i % 8) = s.bit i) ↔
          s.order = .lsb0 ∨ ∀ i, s.bit (mirrored i) = s.bit i) ∧
        ∀ t : BitSeq, t.Made → (s == t) = true → ∃ q', writeCoils unit r t = .ok q' ∧
          (q'.request = q.request ↔ t.order = s.order ∨ ∀ i, s.bit (mirrored i) = s.bit i)) ∧
    (65536 < r.address.toNat + r.offset.toNat + s.size →
      writeCoils unit r s = .error (.configuration .addressOverflow)) := by
  have tidy : s.Tidy := made.tidy
  rcases writeCoils_cases unit r tidy.fits some few with
    ⟨exist, q, start, hq, hstart, hrequest⟩ | ⟨beyond, refused⟩
  case inr => exact ⟨fun exist => absurd exist (Nat.not_le.2 beyond), fun _ => refused⟩
  refine ⟨fun _ => ⟨q, start, s.toBytes, hq, hstart, BitSeq.length_toBytes tidy.fits, hrequest,
    BitSeq.toBytes_by_value_iff tidy, fun t made' same => ?_⟩,
    fun beyond => absurd exist (Nat.not_le.2 beyond)⟩
  have tidy' : t.Tidy := made'.tidy
  have lists : s.toList = t.toList := (BitSeq.beq_iff_toList s t).1 same
  have size : t.size = s.size := by rw [← BitSeq.length_toList t, ← lists, BitSeq.length_toList]
  have bits : ∀ i, t.bit i = s.bit i := fun i => by
    rw [← BitSeq.getD_toList t, ← lists, BitSeq.getD_toList]
  rcases writeCoils_cases unit r tidy'.fits (size ▸ some) (size ▸ few) with
    ⟨-, q', start', hq', hstart', hrequest'⟩ | ⟨beyond, -⟩
  case inr => exact absurd (size ▸ exist) (Nat.not_le.2 beyond)
  refine ⟨q', hq', ?_⟩
  have starts : start' = start := UInt16.toNat_inj.1 (hstart'.trans hstart.symm)
  have lengths : t.toBytes.length = s.toBytes.length := by
    rw [BitSeq.length_toBytes tidy'.fits, BitSeq.length_toBytes tidy.fits, size]
  rw [← BitSeq.toBytes_eq_iff tidy tidy' size bits, hrequest, hrequest', starts, size, lengths]
  simp

namespace FirstCoil

/-- two coils, the first of them on, in the order of coils -/
def coils : BitSeq := ⟨#[0x01], 2, .lsb0⟩

/-- the same two, the most significant bit first -/
def turned : BitSeq := ⟨#[0x80], 2, .msb0⟩

/-- The two are the same run, and only the first of them makes a request that a device reads as it
is: from the other it reads no coil that is on. -/
theorem first_coil_turned :
    BitSeq.ofText .lsb0 "10" = .ok coils ∧ BitSeq.ofText .msb0 "10" = .ok turned ∧
    (coils == turned) = true ∧
    ∃ q q', writeCoils ⟨17⟩ ⟨0, 0, 2⟩ turned = .ok q ∧ writeCoils ⟨17⟩ ⟨0, 0, 2⟩ coils = .ok q' ∧
      q.request = [0x11, 0x0F, 0x00, 0x00, 0x00, 0x02, 0x01, 0x80] ∧
      q'.request = [0x11, 0x0F, 0x00, 0x00, 0x00, 0x02, 0x01, 0x01] ∧
      q'.request ≠ q.request := by
  have readCoils : BitSeq.ofText .lsb0 "10" = .ok coils := rfl
  have readTurned : BitSeq.ofText .msb0 "10" = .ok turned := rfl
  have same : (turned == coils) = true := by decide
  obtain ⟨q, -, -, hq, -, -, -, -, others⟩ :=
    (writeCoils_by_value_iff (.ofText readTurned) (by decide) (by decide) ⟨17⟩ ⟨0, 0, 2⟩).1
      (by decide)
  obtain ⟨q', hq', requests⟩ := others coils (.ofText readCoils) same
  have request : q.request = [0x11, 0x0F, 0x00, 0x00, 0x00, 0x02, 0x01, 0x80] := by
    cases hq
    rfl
  have request' : q'.request = [0x11, 0x0F, 0x00, 0x00, 0x00, 0x02, 0x01, 0x01] := by
    cases hq'
    rfl
  refine ⟨readCoils, readTurned, by decide, q, q', hq, hq', request, request', fun equal => ?_⟩
  rcases requests.1 equal with orders | symmetric
  · cases orders
  · exact absurd (symmetric 0) (by decide)

end FirstCoil

end Standard

end BusMaster
