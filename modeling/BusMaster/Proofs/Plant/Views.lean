import Mathlib.Algebra.BigOperators.Ring.Finset
import BusMaster.Proofs.Plant.Canonical
import BusMaster.Proofs.Plant.Extraction
import BusMaster.Proofs.Plant.Halves

/-!
# Views of registers

Register bytes are a row of bits, bit `i` of it being digit `i % 16` of register `i / 16`
(`registerBit`). Channels come to them on three ways: a bit field is cut out of the row, a byte is
looked up at the place where it was sent, and a register is taken as two bytes. All three number the
bits alike. What a channel reads is the bit at its index, or the number that its bits are the binary
digits of (`views_agree`), so a byte is the sum of eight channels of a bit each, and a register the
sum of sixteen of them or of its two bytes.
-/

namespace BusMaster

/-- digit `i % 16` of register `i / 16` -/
def registerBit (bytes : Bytes) (i : Nat) : Bool :=
  ((wordsOf bytes).getD (i / 16) 0).toNat.testBit (i % 16)

/-- the number with these binary digits: `count` bits from `first` on, least significant first -/
def number (row : Nat → Bool) (first count : Nat) : Nat :=
  ∑ k ∈ Finset.range count, 2 ^ k * (row (first + k)).toNat

/-! ## Binary digits -/

/-- Digits of a number are those of its remainder. -/
theorem number_eq_mod {row : Nat → Bool} {first count n : Nat}
    (digits : ∀ k < count, row (first + k) = n.testBit k) :
    number row first count = n % 2 ^ count := by
  induction count with
  | zero => simp [number, Nat.mod_one]
  | succ count ih =>
    have low := ih fun k hk => digits k (Nat.lt_succ_of_lt hk)
    rw [number, Finset.sum_range_succ, ← number, low, digits count (Nat.lt_succ_self count),
      Nat.toNat_testBit, Nat.pow_succ, Nat.mod_mul]

/-- A number is that of its digits. -/
theorem number_eq {row : Nat → Bool} {first count n : Nat} (small : n < 2 ^ count)
    (digits : ∀ k < count, row (first + k) = n.testBit k) : number row first count = n :=
  (number_eq_mod digits).trans (Nat.mod_eq_of_lt small)

/-- The digits of a number go on with those of its higher part. -/
theorem number_add (row : Nat → Bool) (first low high : Nat) :
    number row first (low + high)
      = number row first low + 2 ^ low * number row (first + low) high := by
  simp only [number, Finset.sum_range_add, Finset.mul_sum, Nat.pow_add, Nat.mul_assoc,
    Nat.add_assoc]

namespace Channel

variable {ch : Channel} {us : List UInt16} {cls : ValueClass}

/-- A channel lies behind as many values of its width as its index says. -/
theorem position_of_cls (h : ch.cls = cls) : ch.position = cls.width * ch.index.toNat := by
  rw [position, h, Nat.mul_comm]

/-- The register of a channel is there. -/
theorem register_lt (fits : ch.last ≤ 16 * us.length) : ch.position / 16 < us.length := by
  have wide : 0 < ch.cls.width := by cases ch.cls <;> decide
  rw [last] at fits
  omega

theorem registerBit_wordsBytes (us : List UInt16) (i : Nat) :
    registerBit (wordsBytes us) i = (us.getD (i / 16) 0).toNat.testBit (i % 16) := by
  rw [registerBit, wordsOf_wordsBytes]

/-! ## What is read -/

theorem read_eq_decode {p : Payload} {field : Field} (cut : ch.extract p = .ok field) :
    ch.read p = ch.encoding.decode ch.cls field := by
  rw [read, cut]
  rfl

/-- A bit field is read from the bits of the row. -/
theorem read_bitField (bitField : ch.cls.isBitField = true) (fits : ch.last ≤ 16 * us.length) :
    ch.read (.registers (wordsBytes us)) = ch.encoding.decode ch.cls (.bits
      (.ofFn .lsb0 ch.cls.width fun i => registerBit (wordsBytes us) (ch.position + i))) := by
  have inside : ch.last ≤ (Payload.registers (wordsBytes us)).bitLength := by
    rw [Payload.bitLength, length_wordsBytes]
    omega
  have bits : ∀ i < ch.cls.width, (Payload.registers (wordsBytes us)).toBits.bit (ch.position + i)
      = registerBit (wordsBytes us) (ch.position + i) := by
    intro i hi
    have within : ch.position + i < 16 * us.length := by
      rw [last] at fits
      omega
    rw [registerBit_wordsBytes, Payload.toBits, bit_ofRegisters, decide_eq_true within,
      Bool.true_and]
  exact read_eq_decode (extract_bits bitField rfl inside bits)

theorem read_bit (h : ch.cls = .bit) (fits : ch.last ≤ 16 * us.length) :
    ch.read (.registers (wordsBytes us))
      = .ok (.bool (registerBit (wordsBytes us) ch.index.toNat)) := by
  have position : ch.position = 1 * ch.index.toNat := position_of_cls h
  rw [read_bitField (by rw [h]; rfl) fits, h, position, Nat.one_mul]
  simp [Encoding.decode, BitSeq.get, BitSeq.bit_ofFn, ValueClass.width]

theorem read_modeSet (h : ch.cls = .modeSet) (fits : ch.last ≤ 16 * us.length) :
    ch.read (.registers (wordsBytes us))
      = .ok (.int (number (registerBit (wordsBytes us)) (4 * ch.index.toNat) 4)) := by
  have position : ch.position = 4 * ch.index.toNat := position_of_cls h
  rw [read_bitField (by rw [h]; rfl) fits, h, position]
  generalize hs : BitSeq.ofFn .lsb0 _ _ = s
  obtain ⟨⟨low, high⟩, digits⟩ := Encoding.selector_four (show s.size = 4 by rw [← hs]; rfl)
  have sum : number (registerBit (wordsBytes us)) (4 * ch.index.toNat) 4
      = (Encoding.selector s).toNat := by
    refine number_eq ?_ fun k hk => ?_
    · change _ < 16
      omega
    · rw [digits k hk, ← hs, BitSeq.bit_ofFn]
      simp [ValueClass.width, hk]
  rw [sum, Int.toNat_of_nonneg low]
  rfl

theorem read_schedule (h : ch.cls = .schedule) (fits : ch.last ≤ 16 * us.length) :
    ∃ text, ch.read (.registers (wordsBytes us)) = .ok (.text text) ∧
      text.toList.filter (· != ' ') = (List.range 16).map fun k =>
        if registerBit (wordsBytes us) (16 * ch.index.toNat + k) then '1' else '0' := by
  have position : ch.position = 16 * ch.index.toNat := position_of_cls h
  rw [read_bitField (by rw [h]; rfl) fits, h, position]
  refine ⟨_, rfl, ?_⟩
  rw [BitSeq.toText, String.toList_ofList, BitSeq.filter_digits rfl rfl rfl, BitSeq.toList_ofFn,
    List.map_map]
  rfl

theorem read_uint8 (h : ch.cls = .uint8) (plain : ch.encoding.scale = none)
    (fits : ch.last ≤ 16 * us.length) :
    ch.read (.registers (wordsBytes us))
      = .ok (.int (number (registerBit (wordsBytes us)) (8 * ch.index.toNat) 8)) := by
  have position : ch.position = 8 * ch.index.toNat := position_of_cls h
  have within := register_lt fits
  have cut := extract_byte (by rw [h]; rfl) (by rw [h]; rfl) fits (List.getElem?_eq_getElem within)
  rw [← byteAt] at cut
  have sum : number (registerBit (wordsBytes us)) (8 * ch.index.toNat) 8
      = (byteAt us[ch.position / 16] ch.position).toNat := by
    refine number_eq (UInt8.toNat_lt _) fun k hk => ?_
    -- a byte is within one register, eight digits of it from its first bit on
    have place : (ch.position + k) / 16 = ch.position / 16 ∧
        (ch.position + k) % 16 = ch.position % 16 + k := by omega
    rw [← position, registerBit_wordsBytes, place.1, place.2, List.getD_eq_getElem _ _ within,
      testBit_byteAt _ (by omega) hk]
  rw [read_eq_decode cut, h, Encoding.decode_bytes rfl plain, sum]
  rfl

theorem read_uint16 (h : ch.cls = .uint16) (plain : ch.encoding.scale = none)
    (natural : ch.encoding.order = .natural) (fits : ch.last ≤ 16 * us.length) :
    ch.read (.registers (wordsBytes us))
      = .ok (.int (number (registerBit (wordsBytes us)) (16 * ch.index.toNat) 16)) := by
  have position : ch.position = 16 * ch.index.toNat := position_of_cls h
  have within := register_lt fits
  have whole : ch.cls.width = 16 * 1 := by rw [h]; rfl
  have cut := extract_words (by rw [h]; rfl) whole fits
  rw [List.drop_eq_getElem_cons within] at cut
  have sum : number (registerBit (wordsBytes us)) (16 * ch.index.toNat) 16
      = us[ch.position / 16].toNat := by
    refine number_eq (UInt16.toNat_lt _) fun k hk => ?_
    have place : (ch.position + k) / 16 = ch.position / 16 ∧ (ch.position + k) % 16 = k := by omega
    rw [← position, registerBit_wordsBytes, place.1, place.2, List.getD_eq_getElem _ _ within]
  have word : ByteOrder.natural.readWord (us[ch.position / 16] >>> 8).toUInt8
      us[ch.position / 16].toUInt8 = us[ch.position / 16] := wordOf_wordBytes _
  rw [read_eq_decode cut, h, Encoding.decode_bytes rfl plain, natural, sum]
  exact congrArg (fun w : UInt16 => Except.ok (Value.int w.toNat)) word

end Channel

/-- what channels read in register bytes, told by a row of bits -/
structure Views (bytes : Bytes) (row : Nat → Bool) : Prop where
  /-- a bit is the one at its index -/
  bit : ∀ ch : Channel, ch.cls = .bit → ch.last ≤ 8 * bytes.length →
    ch.read (.registers bytes) = .ok (.bool (row ch.index.toNat))
  /-- a selector is made of four bits -/
  selector : ∀ ch : Channel, ch.cls = .modeSet → ch.last ≤ 8 * bytes.length →
    ch.read (.registers bytes) = .ok (.int (number row (4 * ch.index.toNat) 4))
  /-- a byte is made of eight bits -/
  byte : ∀ ch : Channel, ch.cls = .uint8 → ch.encoding.scale = none →
    ch.last ≤ 8 * bytes.length →
    ch.read (.registers bytes) = .ok (.int (number row (8 * ch.index.toNat) 8))
  /-- a register is made of sixteen bits -/
  word : ∀ ch : Channel, ch.cls = .uint16 → ch.encoding.scale = none →
    ch.encoding.order = .natural → ch.last ≤ 8 * bytes.length →
    ch.read (.registers bytes) = .ok (.int (number row (16 * ch.index.toNat) 16))
  /-- a register is made of two bytes, the one at the even index the lower one -/
  halves : ∀ ch low high : Channel, ch.cls = .uint16 → ch.encoding.scale = none →
    ch.encoding.order = .natural → ch.last ≤ 8 * bytes.length →
    low.cls = .uint8 → low.encoding.scale = none → low.index.toNat = 2 * ch.index.toNat →
    high.cls = .uint8 → high.encoding.scale = none → high.index.toNat = 2 * ch.index.toNat + 1 →
    ∃ w l h : Nat, ch.read (.registers bytes) = .ok (.int w) ∧
      low.read (.registers bytes) = .ok (.int l) ∧ high.read (.registers bytes) = .ok (.int h) ∧
      w = l + 256 * h
  /-- the digits of a schedule are sixteen bits, in their order -/
  schedule : ∀ ch : Channel, ch.cls = .schedule → ch.last ≤ 8 * bytes.length →
    ∃ text, ch.read (.registers bytes) = .ok (.text text) ∧
      text.toList.filter (· != ' ') = (List.range 16).map fun k =>
        if row (16 * ch.index.toNat + k) then '1' else '0'

/-- **All views of registers number the bits alike.** In whole registers, at every index where it
fits: a channel of one bit reads the digit at its index, a selector, a byte and a register read the
numbers with their four, eight and sixteen bits as binary digits, the least significant first, and a
schedule shows its bits in this order. So a register is its byte at the even index and 256 times the
one at the odd index. -/
theorem views_agree (bytes : Bytes) (whole : bytes.length % 2 = 0) :
    Views bytes (registerBit bytes) := by
  obtain ⟨us, rfl⟩ : ∃ us, bytes = wordsBytes us := ⟨_, (wordsBytes_wordsOf whole).symm⟩
  have inside {ch : Channel} (fits : ch.last ≤ 8 * (wordsBytes us).length) :
      ch.last ≤ 16 * us.length := by
    rw [length_wordsBytes] at fits
    omega
  refine ⟨fun ch h fits => Channel.read_bit h (inside fits),
    fun ch h fits => Channel.read_modeSet h (inside fits),
    fun ch h plain fits => Channel.read_uint8 h plain (inside fits),
    fun ch h plain natural fits => Channel.read_uint16 h plain natural (inside fits), ?_,
    fun ch h fits => Channel.read_schedule h (inside fits)⟩
  intro ch low high h plain natural fits hlow plainLow even hhigh plainHigh odd
  have register : ch.position = 16 * ch.index.toNat := Channel.position_of_cls h
  have first : low.position = 8 * low.index.toNat := Channel.position_of_cls hlow
  have second : high.position = 8 * high.index.toNat := Channel.position_of_cls hhigh
  have fits' := inside fits
  rw [Channel.last, register, h] at fits'
  change _ + 16 ≤ _ at fits'
  refine ⟨_, _, _, Channel.read_uint16 h plain natural (inside fits),
    Channel.read_uint8 hlow plainLow ?_, Channel.read_uint8 hhigh plainHigh ?_, ?_⟩
  · rw [Channel.last, first, hlow]
    change _ + 8 ≤ _
    omega
  · rw [Channel.last, second, hhigh]
    change _ + 8 ≤ _
    omega
  · rw [show 8 * low.index.toNat = 16 * ch.index.toNat by omega,
      show 8 * high.index.toNat = 16 * ch.index.toNat + 8 by omega]
    exact number_add _ _ 8 8

/-! ## A pump

Two registers. The second one holds a speed of `0x12F0`, and its lower half starts with the bit that
says that the pump runs. -/

namespace Pump

def bytes : Bytes := [0xA5, 0x3C, 0x12, 0xF0]

def channel (cls : ValueClass) (index : UInt16) : Channel where
  id := "pump"
  dataset := 1
  index := index
  cls := cls

/-- The speed is made of its halves, and its fifth bit is the first one that is set. -/
theorem pump_views :
    bytes.length % 2 = 0 ∧
    (channel .bit 19).read (.registers bytes) = .ok (.bool false) ∧
    (channel .bit 20).read (.registers bytes) = .ok (.bool true) ∧
    (channel .modeSet 5).read (.registers bytes) = .ok (.int 15) ∧
    (channel .uint8 1).read (.registers bytes) = .ok (.int 0xA5) ∧
    (∃ w l h : Nat, (channel .uint16 1).read (.registers bytes) = .ok (.int w) ∧
      (channel .uint8 2).read (.registers bytes) = .ok (.int l) ∧
      (channel .uint8 3).read (.registers bytes) = .ok (.int h) ∧ w = l + 256 * h) := by
  have views := views_agree bytes rfl
  refine ⟨rfl, views.bit _ rfl (by decide), views.bit _ rfl (by decide), ?_, ?_,
    views.halves _ _ _ rfl rfl rfl (by decide) rfl rfl rfl rfl rfl rfl⟩
  · exact (views.selector _ rfl (by decide)).trans (by decide +kernel)
  · exact (views.byte _ rfl rfl (by decide)).trans (by decide +kernel)

end Pump

end BusMaster
