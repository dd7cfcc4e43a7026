import BusMaster.Proofs.Device.DeviceBit
import BusMaster.Proofs.Device.Exchange

/-!
# The extended functions on an ideal device

A query of the extended protocol that was made ends well on every device alike. What it brings are
bits of the row from a place on, what it leaves is a run at a place (`Image.Patched`). For bits that
place is the one that the offset of the range counts from its address. For registers it is bit 0 of
the register that this bit lies in.
-/

namespace BusMaster

namespace Image

/-! ## What the device makes of a request -/

theorem serve_readFromIndex (m : Image) (unit : UInt8) (start count : UInt16) :
    m.serve (unit :: FunctionCode.readFromIndex.wire
        :: ((PackedAddress.ofWord start).wire ++ wordBytes count))
      = (unit :: 0x42
          :: UInt8.ofNat (swapWords (wordsBytes (m.readRegisters start count.toNat))).length
          :: swapWords (wordsBytes (m.readRegisters start count.toNat)), m) := by
  conv_rhs => rw [← packedWord_ofWord start, ← wordOf_wordBytes count]
  rfl

theorem serve_writeToIndex (m : Image) (unit : UInt8) (start count : UInt16) (n : UInt8)
    (data : Bytes) :
    m.serve (unit :: FunctionCode.writeToIndex.wire
        :: ((PackedAddress.ofWord start).wire ++ wordBytes count ++ n :: data))
      = (unit :: FunctionCode.writeToIndex.wire
          :: ((PackedAddress.ofWord start).wire ++ wordBytes count),
        m.writeRegisters start ((wordsOf (swapWords data)).take count.toNat)) := by
  conv_rhs =>
    enter [2]
    rw [← packedWord_ofWord start, ← wordOf_wordBytes count]
  rfl

theorem serve_writeMaskedToIndex (m : Image) (unit : UInt8) (start count : UInt16) (n : UInt8)
    (data : Bytes) :
    m.serve (unit :: FunctionCode.writeMaskedToIndex.wire
        :: ((PackedAddress.ofWord start).wire ++ wordBytes count ++ n :: data))
      = (unit :: FunctionCode.writeMaskedToIndex.wire
          :: ((PackedAddress.ofWord start).wire ++ wordBytes count),
        m.writeMasked start ((pairsOf (wordsOf data)).take count.toNat)) := by
  conv_rhs =>
    enter [2]
    rw [← packedWord_ofWord start, ← wordOf_wordBytes count]
  rfl

/-! ## What a query brings or leaves -/

/-- Reading registers by a packed address brings them high byte first, whatever is made of them. -/
theorem run_readFromIndex {α : Type} (g : Bytes → α) {unit : UnitId} {start count : UInt16}
    {q : Query Bytes}
    (h : Extended.readFromIndex unit (PackedAddress.ofWord start) count = .ok q) (m : Image) :
    (Session.ofQuery (.ok (q.map g))).run carrier m
      = (.ok (g (wordsBytes (m.readRegisters start count.toNat))), m) := by
  obtain ⟨⟨⟩, hcount, h⟩ := bind_eq_ok h
  obtain ⟨-, hmax⟩ := checkCount_eq_ok (ofConfig_eq_ok hcount)
  change count.toNat ≤ 125 at hmax
  have hlength : (swapWords (wordsBytes (m.readRegisters start count.toNat))).length
      = 2 * count.toNat := by
    rw [length_swapWords, length_wordsBytes, length_readRegisters]
  rw [Query.make_eq_ok h, run_ofQuery (serve_readFromIndex ..) rfl]
  dsimp only [Query.map]
  rw [Query.countedData_cons hlength (by omega)]
  exact congrArg (fun bytes => (Except.ok (g bytes), m)) (swapWords_swapWords _)

/-- Writing registers by a packed address writes their words. -/
theorem run_writeToIndex {unit : UnitId} {start : UInt16} {ws : List UInt16} {q : Query Unit}
    (h : Extended.writeToIndex unit (PackedAddress.ofWord start) (wordsBytes ws) = .ok q)
    (small : ws.length < 2 ^ 16) (m : Image) :
    (Session.ofQuery (.ok q)).run carrier m = (.ok (), m.writeRegisters start ws) := by
  have hlength : (wordsBytes ws).length / 2 = ws.length := by
    rw [length_wordsBytes]
    omega
  have heven : ¬ (wordsBytes ws).length % 2 ≠ 0 := by
    rw [length_wordsBytes]
    omega
  rw [Extended.writeToIndex] at h
  rw [if_neg heven, hlength] at h
  obtain ⟨⟨⟩, -, h⟩ := bind_eq_ok h
  rw [Query.make_eq_ok h, run_ofQuery (serve_writeToIndex ..) rfl, swapWords_swapWords,
    wordsOf_wordsBytes, UInt16.toNat_ofNat_of_lt' small, List.take_length]
  dsimp only
  rw [Query.checkEcho_take]
  rfl

/-- Writing data and masks by a packed address writes the digits whose mask is zero. -/
theorem run_writeMaskedToIndex {unit : UnitId} {start : UInt16} {pairs : List (UInt16 × UInt16)}
    {q : Query Unit}
    (h : Extended.writeMaskedToIndex unit (PackedAddress.ofWord start) pairs = .ok q)
    (small : pairs.length < 2 ^ 16) (m : Image) :
    (Session.ofQuery (.ok q)).run carrier m = (.ok (), m.writeMasked start pairs) := by
  have hdata : (pairs.flatMap fun p => wordBytes p.1 ++ wordBytes p.2)
      = wordsBytes (pairs.flatMap fun p => [p.1, p.2]) := by
    rw [wordsBytes, List.flatMap_assoc]
    rfl
  obtain ⟨⟨⟩, -, h⟩ := bind_eq_ok h
  rw [Query.make_eq_ok h, run_ofQuery (serve_writeMaskedToIndex ..) rfl, hdata,
    wordsOf_wordsBytes, pairsOf_flatMap, UInt16.toNat_ofNat_of_lt' small, List.take_length]
  dsimp only
  rw [Query.checkEcho_take]
  rfl

end Image

/-! ## Ranges of bits -/

namespace Extended

/-- the place in the row of the first bit of a range -/
def firstBit (r : AddressRange) : Nat := 16 * r.address.toNat + r.offset.toNat

/-- the place in the row of bit 0 of the register that the first bit of a range lies in -/
def firstRegister (r : AddressRange) : Nat := 16 * (r.address.toNat + r.offset.toNat / 16)

/-- Reading bits brings those of the row from the first one of the range on. -/
theorem run_readBits {unit : UnitId} {r : AddressRange} {q : Query BitSeq}
    (h : readBits unit r = .ok q) (m : Image) :
    ∃ s, (Session.ofQuery (.ok q)).run Image.carrier m = (.ok s, m) ∧ s.order = .lsb0 ∧
      s.size = r.count.toNat ∧
      ∀ i < r.count.toNat, s.bit i = m.bitAt (.ofNat (firstBit r + i)) := by
  obtain ⟨⟨⟩, -, h⟩ := bind_eq_ok h
  obtain ⟨span, hspan, h⟩ := bind_eq_ok h
  obtain ⟨-, ⟨start, hstart, haddress⟩, hfirst, hregisters, -⟩ :=
    BitSpan.cover_eq_ok (ofConfig_eq_ok hspan)
  rw [hstart] at h
  obtain ⟨read, hread, h⟩ := bind_eq_ok h
  obtain rfl := Except.ok.inj h
  refine ⟨_, Image.run_readFromIndex _ hread m, rfl, ?_, fun i hi => ?_⟩
  · exact Nat.add_sub_cancel_left ..
  · have hin : span.first + i < 16 * span.registers.toNat := by omega
    have hplace : firstBit r + i = 16 * start.toNat + (span.first + i) := by
      rw [firstBit]
      omega
    rw [BitSeq.bit_range, bit_ofRegisters, Image.bitAt_ofNat_readRegisters m start hin, hplace,
      Image.length_readRegisters]
    simp [hi, hin]

/-- Reading registers brings those of the row from the one of the first bit on. -/
theorem run_readRegisters {unit : UnitId} {r : AddressRange} {q : Query Bytes}
    (h : readRegisters unit r = .ok q) (m : Image) :
    ∃ us : List UInt16,
      (Session.ofQuery (.ok q)).run Image.carrier m = (.ok (wordsBytes us), m) ∧
      us.length = r.count.toNat ∧
      ∀ i < 16 * r.count.toNat, (BitSeq.ofRegisters (wordsBytes us)).bit i
        = m.bitAt (.ofNat (firstRegister r + i)) := by
  obtain ⟨span, hspan, h⟩ := bind_eq_ok h
  obtain ⟨-, ⟨start, hstart, haddress⟩, -⟩ := BitSpan.cover_eq_ok (ofConfig_eq_ok hspan)
  rw [hstart] at h
  have hrun := Image.run_readFromIndex id h m
  have hid : q.map id = q := by simp [Query.map]
  rw [hid] at hrun
  refine ⟨_, hrun, Image.length_readRegisters .., fun i hi => ?_⟩
  rw [bit_ofRegisters, Image.bitAt_ofNat_readRegisters m start hi, Image.length_readRegisters,
    firstRegister, haddress]
  simp [hi]

/-- Bits that are written go out as data and masks, one pair for each register that they lie in. -/
theorem writeBits_eq_ok {unit : UnitId} {r : AddressRange} {s : BitSeq} {q : Query Unit}
    (h : writeBits unit r s = .ok q) :
    ∃ (start : UInt16) (pairs : List (UInt16 × UInt16)),
      writeMaskedToIndex unit (PackedAddress.ofWord start) pairs = .ok q ∧
      start.toNat = r.address.toNat + r.offset.toNat / 16 ∧ 0 < s.size ∧
      pairs.length = (r.offset.toNat % 16 + s.size + 15) / 16 ∧ pairs.length < 2 ^ 16 ∧
      ∀ m : Image, m.Patched (m.writeMasked start pairs) (firstBit r) s.size s.bit := by
  obtain ⟨span, hspan, h⟩ := bind_eq_ok h
  obtain ⟨pos, ⟨start, hstart, haddress⟩, hfirst, hregisters, -⟩ :=
    BitSpan.cover_eq_ok (ofConfig_eq_ok hspan)
  rw [hstart] at h
  have hlength : (span.maskedPairs s).length = span.registers.toNat := by
    rw [BitSpan.maskedPairs, List.length_map, List.length_range]
  have hplace : firstBit r = 16 * start.toNat + span.first := by
    rw [firstBit]
    omega
  refine ⟨start, span.maskedPairs s, h, haddress, pos, hlength.trans hregisters, ?_, fun m => ?_⟩
  · rw [hlength]
    exact span.registers.toNat_lt
  · rw [hplace]
    exact m.patched_writeMasked start (hfirst ▸ hregisters)

/-- Writing bits leaves them in the row from the first one of the range on. -/
theorem run_writeBits {unit : UnitId} {r : AddressRange} {s : BitSeq} {q : Query Unit}
    (h : writeBits unit r s = .ok q) (m : Image) :
    ∃ m', (Session.ofQuery (.ok q)).run Image.carrier m = (.ok (), m') ∧
      m.Patched m' (firstBit r) s.size s.bit := by
  obtain ⟨start, pairs, h, -, -, -, small, patched⟩ := writeBits_eq_ok h
  exact ⟨_, Image.run_writeMaskedToIndex h small m, patched m⟩

/-- Writing registers leaves their digits in the row from the register of the first bit on. -/
theorem run_writeRegisters {unit : UnitId} {r : AddressRange} {ws : List UInt16} {q : Query Unit}
    (h : writeRegisters unit r (wordsBytes ws) = .ok q) (small : ws.length < 2 ^ 16) (m : Image) :
    ∃ m', (Session.ofQuery (.ok q)).run Image.carrier m = (.ok (), m') ∧
      m.Patched m' (firstRegister r) (16 * ws.length)
        fun i => (ws.getD (i / 16) 0).toNat.testBit (i % 16) := by
  obtain ⟨span, hspan, h⟩ := bind_eq_ok h
  obtain ⟨-, ⟨start, hstart, haddress⟩, -⟩ := BitSpan.cover_eq_ok (ofConfig_eq_ok hspan)
  rw [hstart] at h
  refine ⟨_, Image.run_writeToIndex h small m, ?_⟩
  rw [firstRegister, ← haddress]
  exact m.patched_writeRegisters start small.le

end Extended

end BusMaster
