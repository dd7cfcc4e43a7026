import BusMaster.Proofs.Device.Image
import BusMaster.Proofs.Query.Session

/-!
# The standard functions on an ideal device

One lemma for each function that moves data: what a query that was made brings from the device, or
leaves on it. Each says that the session of the query ends well, so nothing that was accepted on
this side of the wire is refused on the other.
-/

namespace BusMaster

namespace Image

/-- A query whose request the device serves ends with its reading of the response. -/
theorem run_ofQuery {α : Type} {q : Query α} {m m' : Image} {response : Bytes}
    (served : m.serve q.request = (response, m'))
    (regular : Transceiver.checkException response = .ok response) :
    (Session.ofQuery (.ok q)).run carrier m = (q.accept response, m') := by
  refine Session.run_ofQuery (fun _ _ => rfl) ?_
  change (Transceiver.checkException (m.serve q.request).1, (m.serve q.request).2) = _
  rw [served, regular]

/-! ## What the device makes of a request -/

theorem serve_readCoils (m : Image) (unit : UInt8) (start count : UInt16) :
    m.serve (unit :: FunctionCode.readCoils.wire :: (wordBytes start ++ wordBytes count))
      = (unit :: 0x01 :: UInt8.ofNat (coilBytes (m.readCoils start count.toNat)).length
          :: coilBytes (m.readCoils start count.toNat), m) := by
  conv_rhs => rw [← wordOf_wordBytes start, ← wordOf_wordBytes count]
  rfl

theorem serve_readHoldingRegisters (m : Image) (unit : UInt8) (start count : UInt16) :
    m.serve (unit :: FunctionCode.readHoldingRegisters.wire
        :: (wordBytes start ++ wordBytes count))
      = (unit :: 0x03 :: UInt8.ofNat (wordsBytes (m.readRegisters start count.toNat)).length
          :: wordsBytes (m.readRegisters start count.toNat), m) := by
  conv_rhs => rw [← wordOf_wordBytes start, ← wordOf_wordBytes count]
  rfl

theorem serve_writeSingleCoil (m : Image) (unit : UInt8) (start : UInt16) (value : Bool) :
    m.serve (unit :: FunctionCode.writeSingleCoil.wire
        :: (wordBytes start ++ wordBytes (if value then Standard.coilOn else Standard.coilOff)))
      = (unit :: FunctionCode.writeSingleCoil.wire
          :: (wordBytes start ++ wordBytes (if value then Standard.coilOn else Standard.coilOff)),
        m.writeCoils start [value]) := by
  cases value with
  | false =>
    change (_, m.writeCoils (wordOf (start >>> 8).toUInt8 start.toUInt8) [false]) = _
    rw [wordOf_wordBytes]
    rfl
  | true =>
    change (_, m.writeCoils (wordOf (start >>> 8).toUInt8 start.toUInt8) [true]) = _
    rw [wordOf_wordBytes]
    rfl

theorem serve_writeMultipleCoils (m : Image) (unit : UInt8) (start count : UInt16) (n : UInt8)
    (data : Bytes) :
    m.serve (unit :: FunctionCode.writeMultipleCoils.wire
        :: (wordBytes start ++ wordBytes count ++ n :: data))
      = (unit :: FunctionCode.writeMultipleCoils.wire :: (wordBytes start ++ wordBytes count),
        m.writeCoils start (coilsOf count.toNat data)) := by
  change (_, m.writeCoils (wordOf (start >>> 8).toUInt8 start.toUInt8)
    (coilsOf (wordOf (count >>> 8).toUInt8 count.toUInt8).toNat data)) = _
  rw [wordOf_wordBytes, wordOf_wordBytes]
  rfl

theorem serve_writeMultipleRegisters (m : Image) (unit : UInt8) (start count : UInt16)
    (n : UInt8) (data : Bytes) :
    m.serve (unit :: FunctionCode.writeMultipleRegisters.wire
        :: (wordBytes start ++ wordBytes count ++ n :: data))
      = (unit :: FunctionCode.writeMultipleRegisters.wire
          :: (wordBytes start ++ wordBytes count),
        m.writeRegisters start ((wordsOf data).take count.toNat)) := by
  change (_, m.writeRegisters (wordOf (start >>> 8).toUInt8 start.toUInt8)
    ((wordsOf data).take (wordOf (count >>> 8).toUInt8 count.toUInt8).toNat)) = _
  rw [wordOf_wordBytes, wordOf_wordBytes]
  rfl

/-! ## What a query brings or leaves -/

/-- Reading coils brings the coils of its range. -/
theorem run_readCoils {unit : UnitId} {r : AddressRange} {q : Query BitSeq}
    (h : Standard.readBits .readCoils unit r = .ok q) (m : Image) :
    ∃ start s, r.validate maxReadBits = .ok start ∧
      (Session.ofQuery (.ok q)).run carrier m = (.ok s, m) ∧
      s.size = r.count.toNat ∧ s.order = .lsb0 ∧
      ∀ i < r.count.toNat, s.bit i = m.coils (start + UInt16.ofNat i) := by
  obtain ⟨start, hstart, h⟩ := bind_eq_ok h
  replace hstart := ofConfig_eq_ok hstart
  obtain ⟨-, -, hmax, -⟩ := AddressRange.validate_eq_ok hstart
  have hlimit : maxReadBits.toNat = 2000 := rfl
  rw [Query.make_eq_ok h, run_ofQuery (serve_readCoils ..) rfl]
  set coils := m.readCoils start r.count.toNat with hcoils
  have hcount : coils.length = r.count.toNat := length_readCoils ..
  have hlength : (coilBytes coils).length = bytesForBits r.count.toNat := by
    rw [length_coilBytes, hcount]
  have hcover : r.count.toNat ≤ 8 * bytesForBits r.count.toNat := by
    rw [bytesForBits]
    omega
  have hsmall : bytesForBits r.count.toNat < 256 := by
    rw [bytesForBits]
    omega
  obtain ⟨s, hs⟩ := BitSeq.ofBytes_of_le .lsb0 (hlength ▸ hcover)
  obtain ⟨hsize, horder⟩ := BitSeq.size_ofBytes hs
  refine ⟨start, s, hstart, ?_, hsize, horder, fun i hi => ?_⟩
  · dsimp only
    rw [Query.countedData_cons hlength hsmall]
    dsimp only [bind, Except.bind]
    rw [hs]
    rfl
  · rw [BitSeq.bit_ofBytes hs, BitOrder.and_mask_lsb0, testBit_coilBytes _ (hcount ▸ hi), hcoils,
      getD_readCoils _ _ hi]
    simp [hi]

/-- Reading registers brings the registers of its range. -/
theorem run_readHoldingRegisters {unit : UnitId} {r : AddressRange} {q : Query Bytes}
    (h : Standard.readRegisters .readHoldingRegisters unit r = .ok q) (m : Image) :
    ∃ start, r.validate maxReadRegisters = .ok start ∧
      (Session.ofQuery (.ok q)).run carrier m
        = (.ok (wordsBytes (m.readRegisters start r.count.toNat)), m) := by
  obtain ⟨start, hstart, h⟩ := bind_eq_ok h
  replace hstart := ofConfig_eq_ok hstart
  obtain ⟨-, -, hmax, -⟩ := AddressRange.validate_eq_ok hstart
  have hlimit : maxReadRegisters.toNat = 125 := rfl
  rw [Query.make_eq_ok h, run_ofQuery (serve_readHoldingRegisters ..) rfl]
  have hlength : (wordsBytes (m.readRegisters start r.count.toNat)).length
      = 2 * r.count.toNat := by
    rw [length_wordsBytes, length_readRegisters]
  refine ⟨start, hstart, ?_⟩
  dsimp only
  rw [Query.countedData_cons hlength (by omega)]

/-- The echo of the write of a coil is accepted. -/
theorem acceptCoil_self (unit : UInt8) (start : UInt16) (value : Bool) (request : Bytes)
    (h : request = unit :: FunctionCode.writeSingleCoil.wire
      :: (wordBytes start ++ wordBytes (if value then Standard.coilOn else Standard.coilOff))) :
    Standard.acceptCoil request request = .ok () := by
  have echo : Query.checkEcho request.length request request = .ok () :=
    Query.checkEcho_take (List.take_length ..)
  subst h
  cases value <;> exact echo

/-- Writing one coil writes that coil. -/
theorem run_writeCoil {unit : UnitId} {r : AddressRange} {value : Bool} {q : Query Unit}
    (h : Standard.writeCoil unit r value = .ok q) (m : Image) :
    ∃ start, r.start = .ok start ∧
      (Session.ofQuery (.ok q)).run carrier m = (.ok (), m.writeCoils start [value]) := by
  obtain ⟨start, hstart, h⟩ := bind_eq_ok h
  refine ⟨start, ofConfig_eq_ok hstart, ?_⟩
  rw [Query.make_eq_ok h, run_ofQuery (serve_writeSingleCoil ..) (by cases value <;> rfl)]
  exact congrArg (·, _) (acceptCoil_self _ _ _ _ rfl)

/-- Writing coils writes the bits of the run. -/
theorem run_writeCoils {unit : UnitId} {r : AddressRange} {s : BitSeq} {q : Query Unit}
    (order : s.order = .lsb0) (small : s.size < 2 ^ 16)
    (h : Standard.writeCoils unit r s = .ok q) (m : Image) :
    ∃ start, { r with count := UInt16.ofNat s.size }.validate maxWriteBits = .ok start ∧
      (Session.ofQuery (.ok q)).run carrier m = (.ok (), m.writeCoils start s.toList) := by
  obtain ⟨start, hstart, h⟩ := bind_eq_ok h
  refine ⟨start, ofConfig_eq_ok hstart, ?_⟩
  have hbits : coilsOf (UInt16.ofNat s.size).toNat s.toBytes = s.toList := by
    rw [UInt16.toNat_ofNat_of_lt' small, coilsOf, BitSeq.toList]
    refine List.map_congr_left fun i hi => ?_
    exact BitSeq.testBit_toBytes order (List.mem_range.1 hi)
  rw [Query.make_eq_ok h, run_ofQuery (serve_writeMultipleCoils ..) rfl, hbits]
  dsimp only
  rw [Query.checkEcho_take]
  rfl

/-- Writing registers writes their words. -/
theorem run_writeRegisters {unit : UnitId} {r : AddressRange} {ws : List UInt16} {q : Query Unit}
    (small : ws.length < 2 ^ 16)
    (h : Standard.writeRegisters unit r (wordsBytes ws) = .ok q) (m : Image) :
    ∃ start, { r with count := UInt16.ofNat ws.length }.validate maxWriteRegisters = .ok start ∧
      (Session.ofQuery (.ok q)).run carrier m = (.ok (), m.writeRegisters start ws) := by
  have hlength : (wordsBytes ws).length / 2 = ws.length := by
    rw [length_wordsBytes]
    omega
  have heven : ¬ (wordsBytes ws).length % 2 ≠ 0 := by
    rw [length_wordsBytes]
    omega
  rw [Standard.writeRegisters] at h
  rw [if_neg heven, hlength] at h
  obtain ⟨start, hstart, h⟩ := bind_eq_ok h
  refine ⟨start, ofConfig_eq_ok hstart, ?_⟩
  rw [Query.make_eq_ok h, run_ofQuery (serve_writeMultipleRegisters ..) rfl, wordsOf_wordsBytes,
    UInt16.toNat_ofNat_of_lt' small, List.take_length]
  dsimp only
  rw [Query.checkEcho_take]
  rfl

end Image

end BusMaster
