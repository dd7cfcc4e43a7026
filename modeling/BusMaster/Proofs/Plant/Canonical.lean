import BusMaster.Proofs.Bits.Conversions
import BusMaster.Proofs.Plant.Placement

/-!
# Encoding what was decoded

A field has one value, and no other field of its class has the same one, unless the class is one
that only the device changes, a binary fraction, or an integer with decimal places. So what was
decoded is encoded to the field it came from: bytes to the same bytes (`Encoding.encode_decodeBytes`),
and a run of bits to a run of the same bits (`Encoding.encode_decodeBits`), least significant first
whatever the order it was decoded in.
-/

namespace BusMaster

/-- a field is as wide as its class, be its bits in either order -/
def Field.Spans (cls : ValueClass) : Field → Prop
  | .bits s => cls.isBitField = true ∧ s.size = cls.width
  | .bytes data => cls.isBitField = false ∧ 8 * data.length = cls.width

/-- two fields have the same bits, or the same bytes -/
inductive Field.Same : Field → Field → Prop
  | bits {s t : BitSeq} : (∀ i, s.bit i = t.bit i) → Same (.bits s) (.bits t)
  | bytes (data : Bytes) : Same (.bytes data) (.bytes data)

/-! ## Words -/

namespace ByteOrder

theorem writeWord_readWord (order : ByteOrder) (a b : UInt8) :
    order.writeWord (order.readWord a b) = [a, b] := by
  cases order with
  | natural => exact wordBytes_wordOf a b
  | swapped => exact congrArg swapWords (wordBytes_wordOf b a)

theorem writeDoubleWord_readDoubleWord (order : ByteOrder) (a b c d : UInt8) :
    order.writeDoubleWord (order.readDoubleWord a b c d) = [a, b, c, d] := by
  cases order with
  | natural =>
    exact (doubleWordBytes_doubleWordOf ..).trans
      (congrArg₂ (· ++ ·) (wordBytes_wordOf a b) (wordBytes_wordOf c d))
  | swapped =>
    exact congrArg swapWords ((doubleWordBytes_doubleWordOf ..).trans
      (congrArg₂ (· ++ ·) (wordBytes_wordOf b a) (wordBytes_wordOf d c)))

end ByteOrder

/-! ## Integers -/

/-- A number in two's complement is the plain one up to whole turns. -/
theorem toInt_emod {n : Nat} (x : BitVec n) : x.toInt % ((2 ^ n : Nat) : Int) = x.toNat := by
  rw [BitVec.toInt_eq_toNat_bmod, Int.bmod_emod]
  exact Int.emod_eq_of_lt (Int.natCast_nonneg _) (Int.ofNat_lt.2 x.isLt)

theorem toNat_emod {n : Nat} (x : BitVec n) :
    (x.toNat : Int) % ((2 ^ n : Nat) : Int) = x.toNat :=
  Int.emod_eq_of_lt (Int.natCast_nonneg _) (Int.ofNat_lt.2 x.isLt)

theorem UInt8.ofInt_eq {b : UInt8} {x : Int} (h : x % ((2 ^ 8 : Nat) : Int) = b.toNat) :
    UInt8.ofInt x = b := by
  change UInt8.ofNat (x % ((2 ^ 8 : Nat) : Int)).toNat = b
  rw [h, Int.toNat_natCast, UInt8.ofNat_toNat]

theorem UInt8.ofInt_toInt8 (b : UInt8) : UInt8.ofInt b.toInt8.toInt = b :=
  UInt8.ofInt_eq (toInt_emod b.toBitVec)

theorem UInt8.ofInt_toNat (b : UInt8) : UInt8.ofInt b.toNat = b :=
  UInt8.ofInt_eq (toNat_emod b.toBitVec)

theorem UInt16.ofInt_eq {w : UInt16} {x : Int} (h : x % ((2 ^ 16 : Nat) : Int) = w.toNat) :
    UInt16.ofInt x = w := by
  change UInt16.ofNat (x % ((2 ^ 16 : Nat) : Int)).toNat = w
  rw [h, Int.toNat_natCast, UInt16.ofNat_toNat]

theorem UInt16.ofInt_toInt16 (w : UInt16) : UInt16.ofInt w.toInt16.toInt = w :=
  UInt16.ofInt_eq (toInt_emod w.toBitVec)

theorem UInt16.ofInt_toNat (w : UInt16) : UInt16.ofInt w.toNat = w :=
  UInt16.ofInt_eq (toNat_emod w.toBitVec)

theorem UInt32.ofInt_eq {d : UInt32} {x : Int} (h : x % ((2 ^ 32 : Nat) : Int) = d.toNat) :
    UInt32.ofInt x = d := by
  change UInt32.ofNat (x % ((2 ^ 32 : Nat) : Int)).toNat = d
  rw [h, Int.toNat_natCast, UInt32.ofNat_toNat]

theorem UInt32.ofInt_toInt32 (d : UInt32) : UInt32.ofInt d.toInt32.toInt = d :=
  UInt32.ofInt_eq (toInt_emod d.toBitVec)

theorem UInt32.ofInt_toNat (d : UInt32) : UInt32.ofInt d.toNat = d :=
  UInt32.ofInt_eq (toNat_emod d.toBitVec)

namespace Encoding

theorem length_eq_four {data : Bytes} (h : data.length = 4) : ∃ a b c d, data = [a, b, c, d] := by
  match data with
  | [a, b, c, d] => exact ⟨a, b, c, d, rfl⟩
  | [] | [_] | [_, _] | [_, _, _] => cases h
  | _ :: _ :: _ :: _ :: _ :: _ =>
    simp only [List.length_cons] at h
    omega

/-- A raw integer is within the bounds of its class, and its bytes are those it was read from. -/
theorem integerBytes_rawInteger (order : ByteOrder) {cls : ValueClass} {data : Bytes} {raw : Int}
    (integer : cls.isInteger = true) (width : 8 * data.length = cls.width)
    (h : rawInteger order cls data = .ok raw) :
    (cls.bounds.1 ≤ raw ∧ raw ≤ cls.bounds.2) ∧ integerBytes order cls raw = data := by
  cases cls with
  | int8 =>
    obtain ⟨b, rfl⟩ := List.length_eq_one_iff.1 (Nat.eq_of_mul_eq_mul_left (by decide) width)
    obtain rfl := Except.ok.inj h
    have low := b.toInt8.le_toInt
    have high := b.toInt8.toInt_lt
    refine ⟨⟨low, by change _ ≤ (127 : Int); omega⟩, ?_⟩
    rw [integerBytes, UInt8.ofInt_toInt8]
  | uint8 =>
    obtain ⟨b, rfl⟩ := List.length_eq_one_iff.1 (Nat.eq_of_mul_eq_mul_left (by decide) width)
    obtain rfl := Except.ok.inj h
    have high := b.toNat_lt
    refine ⟨⟨Int.natCast_nonneg _, by change _ ≤ (255 : Int); omega⟩, ?_⟩
    rw [integerBytes, UInt8.ofInt_toNat]
  | int16 =>
    obtain ⟨a, b, rfl⟩ := List.length_eq_two.1 (Nat.eq_of_mul_eq_mul_left (by decide) width)
    obtain rfl := Except.ok.inj h
    have low := (order.readWord a b).toInt16.le_toInt
    have high := (order.readWord a b).toInt16.toInt_lt
    refine ⟨⟨low, by change _ ≤ (32767 : Int); omega⟩, ?_⟩
    rw [integerBytes, UInt16.ofInt_toInt16, order.writeWord_readWord]
  | uint16 =>
    obtain ⟨a, b, rfl⟩ := List.length_eq_two.1 (Nat.eq_of_mul_eq_mul_left (by decide) width)
    obtain rfl := Except.ok.inj h
    have high := (order.readWord a b).toNat_lt
    refine ⟨⟨Int.natCast_nonneg _, by change _ ≤ (65535 : Int); omega⟩, ?_⟩
    rw [integerBytes, UInt16.ofInt_toNat, order.writeWord_readWord]
  | int32 =>
    obtain ⟨a, b, c, d, rfl⟩ := length_eq_four (Nat.eq_of_mul_eq_mul_left (by decide) width)
    obtain rfl := Except.ok.inj h
    have low := (order.readDoubleWord a b c d).toInt32.le_toInt
    have high := (order.readDoubleWord a b c d).toInt32.toInt_lt
    refine ⟨⟨low, by change _ ≤ (2147483647 : Int); omega⟩, ?_⟩
    change order.writeDoubleWord (UInt32.ofInt _) = _
    rw [UInt32.ofInt_toInt32, order.writeDoubleWord_readDoubleWord]
  | uint32 =>
    obtain ⟨a, b, c, d, rfl⟩ := length_eq_four (Nat.eq_of_mul_eq_mul_left (by decide) width)
    obtain rfl := Except.ok.inj h
    have high := (order.readDoubleWord a b c d).toNat_lt
    refine ⟨⟨Int.natCast_nonneg _, by change _ ≤ (4294967295 : Int); omega⟩, ?_⟩
    change order.writeDoubleWord (UInt32.ofInt _) = _
    rw [UInt32.ofInt_toNat, order.writeDoubleWord_readDoubleWord]
  | _ => cases integer

/-- An integer without decimal places is its own raw integer. -/
theorem integer_int {e : Encoding} {cls : ValueClass} {raw : Int}
    (places : (if cls.isInteger then e.scale else none) = none)
    (bounds : cls.bounds.1 ≤ raw ∧ raw ≤ cls.bounds.2) : e.integer cls (.int raw) = .ok raw := by
  simp only [integer, places]
  exact if_pos bounds

theorem encode_of_isInteger {e : Encoding} {cls : ValueClass} {v : Value}
    (integer : cls.isInteger = true) :
    e.encode cls v = do return .bytes (integerBytes e.order cls (← e.integer cls v)) := by
  cases cls <;> first | rfl | cases integer

/-- Without decimal places bytes are decoded to their raw integer. -/
theorem decode_bytes {e : Encoding} {cls : ValueClass} (integer : cls.isInteger = true)
    (scale : e.scale = none) (data : Bytes) :
    e.decode cls (.bytes data) = (rawInteger e.order cls data).map .int := by
  change e.decodeBytes cls data = _
  rw [decodeBytes]
  · rw [scale]
    rcases rawInteger e.order cls data with fault | raw <;> rfl
  · rintro _ _ rfl _
    cases integer
  · rintro _ _ _ _ rfl _
    cases integer

/-- What plain bytes were decoded to is encoded to the same bytes. -/
theorem encode_decodeBytes {e : Encoding} {cls : ValueClass} {data : Bytes} {v : Value}
    (integer : cls.isInteger = true) (scale : e.scale = none)
    (width : 8 * data.length = cls.width) (h : e.decode cls (.bytes data) = .ok v) :
    e.encode cls v = .ok (.bytes data) := by
  obtain ⟨raw, hraw, rfl⟩ : ∃ raw, rawInteger e.order cls data = .ok raw ∧ v = .int raw := by
    rw [decode_bytes integer scale] at h
    rcases hraw : rawInteger e.order cls data with fault | raw <;> rw [hraw] at h <;> cases h
    exact ⟨raw, rfl, rfl⟩
  obtain ⟨bounds, hdata⟩ := integerBytes_rawInteger e.order integer width hraw
  have hinteger : e.integer cls (.int raw) = .ok raw :=
    integer_int (by rw [scale, ite_self]) bounds
  rw [encode_of_isInteger integer, hinteger]
  exact congrArg (Except.ok <| Field.bytes ·) hdata

end Encoding

/-! ## Binary digits -/

namespace Encoding

/-- A selector of four bits has them as binary digits. -/
theorem selector_four {s : BitSeq} (size : s.size = 4) :
    (0 ≤ selector s ∧ selector s ≤ 15) ∧
      ∀ i < 4, (selector s).toNat.testBit i = s.bit i := by
  have ones : s.ones = [0, 1, 2, 3].filter s.bit := by rw [BitSeq.ones, size]; rfl
  -- the sixteen selectors one by one
  cases h0 : s.bit 0 <;> cases h1 : s.bit 1 <;> cases h2 : s.bit 2 <;> cases h3 : s.bit 3 <;>
    simp only [selector, ones, List.filter, h0, h1, h2, h3] <;>
    refine ⟨by decide, fun i hi => ?_⟩ <;>
    obtain rfl | rfl | rfl | rfl : i = 0 ∨ i = 1 ∨ i = 2 ∨ i = 3 := by omega
  all_goals
    simp only [h0, h1, h2, h3]
    decide

/-- What a run of bits was decoded to is encoded to a run of the same bits. -/
theorem encode_decodeBits {e : Encoding} {cls : ValueClass} {s : BitSeq} {v : Value}
    (bitField : cls.isBitField = true) (size : s.size = cls.width)
    (h : e.decode cls (.bits s) = .ok v) :
    ∃ t, e.encode cls v = .ok (.bits t) ∧ ∀ i, t.bit i = s.bit i := by
  cases cls with
  | bit =>
    rw [decode, BitSeq.get, if_pos (size ▸ Nat.one_pos)] at h
    obtain rfl := Except.ok.inj h
    refine ⟨BitSeq.ofList .lsb0 [s.bit 0], rfl, fun i => ?_⟩
    rw [BitSeq.bit_ofList]
    cases i with
    | zero => rfl
    | succ i => exact (BitSeq.bit_eq_false (size.trans_le (Nat.succ_le_succ i.zero_le))).symm
  | modeSet =>
    obtain rfl := Except.ok.inj h
    obtain ⟨bounds, digits⟩ := selector_four size
    have hinteger : e.integer .modeSet (.int (selector s)) = .ok (selector s) :=
      integer_int rfl bounds
    refine ⟨BitSeq.ofFn .lsb0 4 fun i => (selector s).toNat.testBit i, ?_, fun i => ?_⟩
    · change (e.integer .modeSet (.int (selector s)) >>= _) = _
      rw [hinteger]
      rfl
    · rw [BitSeq.bit_ofFn]
      by_cases hi : i < 4
      · simp [hi, digits i hi]
      · simp [hi, BitSeq.bit_eq_false (size.trans_le (Nat.le_of_not_lt hi))]
  | schedule =>
    obtain rfl := Except.ok.inj h
    have length : s.toList.length = 16 := by simp [BitSeq.toList, size, ValueClass.width]
    refine ⟨BitSeq.ofList .lsb0 s.toList, ?_, fun i => ?_⟩
    · have bits : scheduleBits (.text s.toText) = .ok (BitSeq.ofList .lsb0 s.toList) := by
        rw [scheduleBits, BitSeq.ofText_toText]
        exact if_pos (by rw [BitSeq.ofList_eq_ofFn, BitSeq.size_ofFn, length]; rfl)
      change (scheduleBits (.text s.toText) >>= _) = _
      rw [bits]
      rfl
    · rw [BitSeq.bit_ofList, BitSeq.toList, List.getD_eq_getElem?_getD, List.getElem?_map]
      by_cases hi : i < s.size
      · simp [hi]
      · simp [hi, BitSeq.bit_eq_false (Nat.le_of_not_lt hi)]
  | _ => cases bitField

/-- **What was decoded is encoded to the field it came from**, where the host may write values of the
class and they lose nothing by decoding. -/
theorem encode_decode {e : Encoding} {cls : ValueClass} {field : Field} {v : Value}
    (writable : cls.isWritable = true) (float : cls ≠ .float32) (scale : e.scale = none)
    (spans : field.Spans cls) (h : e.decode cls field = .ok v) :
    ∃ field', e.encode cls v = .ok field' ∧ field'.Same field := by
  cases field with
  | bits s =>
    obtain ⟨t, ht, bits⟩ := encode_decodeBits spans.1 spans.2 h
    exact ⟨_, ht, .bits bits⟩
  | bytes data =>
    obtain ⟨bytes, width⟩ := spans
    have integer : cls.isInteger = true := by
      cases cls <;> simp_all [ValueClass.isWritable, ValueClass.isBitField, ValueClass.isInteger]
    exact ⟨_, encode_decodeBytes integer scale width h, .bytes data⟩

end Encoding

end BusMaster
