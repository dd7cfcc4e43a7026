import BusMaster.Proofs.Plant.Placement

/-!
# What is cut out

Cutting a channel out of a payload looks at the bits of the channel and at nothing else
(`Channel.extract_eq_extract_iff`), for runs of bits, for single bytes and for whole registers alike.
So a payload that has a field where the channel is gives the field back: `extract_bits` for bits, and
`extract_registersOf` for the words that are written for it.
-/

namespace BusMaster

/-- What is no run of bits and no byte is whole registers. -/
theorem ValueClass.width_eq (cls : ValueClass) (bytes : cls.isBitField = false)
    (byte : cls.width ≠ 8) : ∃ count, 0 < count ∧ cls.width = 16 * count := by
  cases cls <;>
    first
    | exact absurd bytes Bool.noConfusion
    | exact absurd rfl byte
    | exact ⟨1, Nat.one_pos, rfl⟩
    | exact ⟨2, Nat.two_pos, rfl⟩

namespace Channel

theorem last_sub_position (ch : Channel) : ch.last - ch.position = ch.cls.width := by
  rw [last]
  omega

/-- A channel in registers occupies as many of them as its width needs. -/
theorem last_add_div (ch : Channel) (whole : ch.cls.width % 8 = 0) :
    (ch.last + 15) / 16 = ch.position / 16 + (ch.cls.width + 15) / 16 := by
  have hwidth : ch.cls.width = 8 ∨ ch.cls.width = 16 ∨ ch.cls.width = 32 := by
    cases hcls : ch.cls <;> rw [hcls] at whole <;> first | decide | exact absurd whole (by decide)
  rw [last, position]
  rcases hwidth with h | h | h <;> rw [h] <;> omega

/-- A bit field is cut out of a payload that has its bits. -/
theorem extract_bits {ch : Channel} (bitField : ch.cls.isBitField = true) {f : Nat → Bool}
    {p : Payload} (order : p.toBits.order = .lsb0) (fits : ch.last ≤ p.bitLength)
    (h : ∀ i < ch.cls.width, p.toBits.bit (ch.position + i) = f i) :
    ch.extract p = .ok (.bits (BitSeq.ofFn .lsb0 ch.cls.width f)) := by
  unfold extract
  rw [if_neg (Nat.not_lt.2 fits), if_pos bitField, BitSeq.range, last_sub_position, order,
    BitSeq.ofFn_congr h]

/-- A byte is cut out of registers whose word at its place has it. -/
theorem extract_byte {ch : Channel} (byte : ch.cls.width = 8)
    (bytes : ch.cls.isBitField = false) {us : List UInt16} {w : UInt16}
    (fits : ch.last ≤ 16 * us.length) (h : us[ch.position / 16]? = some w) :
    ch.extract (.registers (wordsBytes us)) = .ok (.bytes
      [if ch.position % 16 = 0 then w.toUInt8 else (w >>> 8).toUInt8]) := by
  have hlength : ¬ 8 * (wordsBytes us).length < ch.last := by
    rw [length_wordsBytes]
    omega
  unfold extract
  rw [Payload.bitLength, if_neg hlength, bytes, if_neg Bool.false_ne_true]
  dsimp only
  rw [if_pos byte, slice_bytePosition h]

/-- A value of whole registers is cut out as their bytes. -/
theorem extract_words {ch : Channel} (bytes : ch.cls.isBitField = false) {count : Nat}
    (whole : ch.cls.width = 16 * count) {us : List UInt16} (fits : ch.last ≤ 16 * us.length) :
    ch.extract (.registers (wordsBytes us))
      = .ok (.bytes (wordsBytes ((us.drop (ch.position / 16)).take count))) := by
  have hlength : ¬ 8 * (wordsBytes us).length < ch.last := by
    rw [length_wordsBytes]
    omega
  have hposition : ch.position / 8 = 2 * (ch.position / 16) := by
    have multiple : ch.position = 16 * (count * ch.index.toNat) := by
      rw [position, whole, Nat.mul_comm, Nat.mul_assoc]
    omega
  unfold extract
  rw [Payload.bitLength, if_neg hlength, bytes, if_neg Bool.false_ne_true]
  dsimp only
  rw [if_neg (by omega), hposition, show ch.cls.width / 8 = 2 * count by omega, slice_wordsBytes]

/-- What is written as registers is whole bytes. -/
theorem width_mod {ch : Channel} {d : Dataset} {field : Field} (fits : field.Fits ch.cls)
    (fills : ∀ s, field = .bits s → Catalog.FillsRegisters d ch.position s) :
    ch.cls.width % 8 = 0 := by
  cases field with
  | bits s =>
    obtain ⟨-, f, rfl⟩ := fits
    obtain ⟨-, -, hsize⟩ := fills _ rfl
    rw [BitSeq.size_ofFn] at hsize
    omega
  | bytes data =>
    obtain ⟨-, hwidth⟩ := fits
    omega

/-- Only a value of a register dataset is written as registers. -/
theorem cls_of_fills {ch : Channel} {d : Dataset} {field : Field} (fits : field.Fits ch.cls)
    (kind : d.cls.isBits = true → ch.cls.isBitField = true)
    (cls : d.cls = .coil ∨ d.cls = .holdingRegister)
    (fills : ∀ s, field = .bits s → Catalog.FillsRegisters d ch.position s) :
    d.cls = .holdingRegister := by
  refine cls.resolve_left fun coil => ?_
  cases field with
  | bits s =>
    obtain ⟨registers, -⟩ := fills s rfl
    rw [coil] at registers
    cases registers
  | bytes data =>
    have bitField := kind (by rw [coil]; rfl)
    rw [fits.1] at bitField
    cases bitField

/-- So few bits fill no register. -/
theorem not_fills {ch : Channel} {d : Dataset} {field : Field} (fits : field.Fits ch.cls)
    (few : ch.cls = .bit ∨ ch.cls = .modeSet) :
    ¬∀ s, field = .bits s → Catalog.FillsRegisters d ch.position s := by
  intro fills
  have narrow : ch.cls.isBitField = true ∧ ch.cls.width % 16 ≠ 0 := by
    rcases few with h | h <;> rw [h] <;> decide
  cases field with
  | bits s =>
    obtain ⟨-, f, rfl⟩ := fits
    obtain ⟨-, -, whole⟩ := fills _ rfl
    exact narrow.2 whole
  | bytes data =>
    have bitField := narrow.1
    rw [fits.1] at bitField
    cases bitField

/-- Bits that do not fill registers of a register dataset are a few. -/
theorem few_of_not_fills {ch : Channel} {d : Dataset} {s : BitSeq}
    (fits : (Field.bits s).Fits ch.cls) (registers : d.cls.isRegisters = true)
    (fills : ¬Catalog.FillsRegisters d ch.position s) : ch.cls = .bit ∨ ch.cls = .modeSet := by
  obtain ⟨bitField, f, rfl⟩ := fits
  have hcls : ch.cls = .bit ∨ ch.cls = .modeSet ∨ ch.cls = .schedule := by
    rcases hcls : ch.cls <;> rw [hcls] at bitField <;> simp_all [ValueClass.isBitField]
  rcases hcls with hcls | hcls | hcls
  · exact .inl hcls
  · exact .inr hcls
  · refine absurd ⟨registers, ?_, ?_⟩ fills
    · rw [position, hcls, ValueClass.width]
      omega
    · rw [BitSeq.size_ofFn, hcls, ValueClass.width]

/-- **A field written as registers is cut out of any registers that have its words where it is.** -/
theorem extract_registersOf {ch : Channel} {d : Dataset} {field : Field} (fits : field.Fits ch.cls)
    (fills : ∀ s, field = .bits s → Catalog.FillsRegisters d ch.position s)
    (cache : Option Payload) :
    ∃ ws, Catalog.registersOf cache ch.position field = wordsBytes ws ∧
      ws.length = (ch.cls.width + 15) / 16 ∧
      ∀ us, ch.last ≤ 16 * us.length → (us.drop (ch.position / 16)).take ws.length = ws →
        ch.extract (.registers (wordsBytes us)) = .ok field := by
  cases field with
  | bits s =>
    obtain ⟨bitField, f, rfl⟩ := fits
    obtain ⟨-, hposition, hsize⟩ := fills _ rfl
    rw [BitSeq.size_ofFn] at hsize
    refine ⟨_, BitSeq.toRegisters_eq _, by rw [BitSeq.length_words]; rfl, fun us hus hws => ?_⟩
    refine extract_bits bitField rfl ?_ fun i hi => ?_
    · rw [Payload.bitLength, length_wordsBytes]
      omega
    · have hplace : (ch.position + i) / 16 = ch.position / 16 + i / 16 := by omega
      have hin : i / 16 < (BitSeq.ofFn .lsb0 ch.cls.width f).words.length := by
        rw [BitSeq.length_words, BitSeq.size_ofFn]
        omega
      have hword : us.getD ((ch.position + i) / 16) 0
          = (BitSeq.ofFn .lsb0 ch.cls.width f).words.getD (i / 16) 0 := by
        rw [List.getD_eq_getElem?_getD, List.getD_eq_getElem?_getD, hplace,
          take_drop_eq_iff.1 hws _ hin]
      have hcovered : ch.position + i < 16 * us.length := by
        rw [last] at hus
        omega
      rw [Payload.toBits, bit_ofRegisters, hword, show (ch.position + i) % 16 = i % 16 by omega,
        BitSeq.testBit_words hi, BitSeq.bit_ofFn]
      simp [hi, hcovered]
  | bytes data =>
    obtain ⟨bytes, hwidth⟩ := fits
    by_cases byte : ch.cls.width = 8
    · obtain ⟨b, rfl⟩ := List.length_eq_one_iff.1 (show data.length = 1 by omega)
      obtain ⟨hi, lo, hmerge, hb⟩ := Catalog.mergeByte_eq cache ch.position b
      have hbytes : [((wordOf hi lo) >>> 8).toUInt8, (wordOf hi lo).toUInt8] = [hi, lo] :=
        wordBytes_wordOf hi lo
      obtain ⟨hhigh, hlow⟩ := List.cons.inj hbytes
      refine ⟨[wordOf hi lo], hmerge.trans (wordBytes_wordOf hi lo).symm, by simp [byte],
        fun us hus hws => ?_⟩
      have hword : us[ch.position / 16]? = some (wordOf hi lo) :=
        take_drop_eq_iff.1 hws 0 Nat.one_pos
      rw [extract_byte byte bytes hus hword, hhigh, List.head_eq_of_cons_eq hlow, hb]
    · obtain ⟨count, pos, hcount⟩ := ch.cls.width_eq bytes byte
      have hdata : Catalog.registersOf cache ch.position (.bytes data) = data := by
        unfold Catalog.registersOf
        split <;> simp_all
      have hwords : wordsBytes (wordsOf data) = data := wordsBytes_wordsOf (by omega)
      have hlength : (wordsOf data).length = count := by
        rw [length_wordsOf]
        omega
      refine ⟨wordsOf data, hdata.trans hwords.symm, by omega, fun us hus hws => ?_⟩
      rw [extract_words bytes hcount hus, ← hlength, hws, hwords]

/-! ## What extraction looks at -/

/-- The bits of register bytes, by byte and digit. -/
theorem bit_toBits_registers {bytes : Bytes} {k j : Nat} (whole : 2 * (k / 2) + 1 < bytes.length)
    (hj : j < 8) :
    (Payload.registers bytes).toBits.bit (8 * k + j)
      = (bytes.getD (otherHalf k) 0).toNat.testBit j := by
  have hin : 8 * k + j < 8 * (swapWords bytes).length := by
    rw [length_swapWords]
    omega
  have hdiv : (8 * k + j) / 8 = k := by omega
  have hmod : (8 * k + j) % 8 = j := by omega
  rw [Payload.toBits, BitSeq.ofRegisters, BitSeq.bit_ofSwappedWords, decide_eq_true hin, hdiv, hmod,
    getD_swapWords whole, Bool.true_and]

/-- The bits of register bytes, by register and digit. -/
theorem bit_toBits {us : List UInt16} {k j : Nat} {w : UInt16} (h : us[k]? = some w) (hj : j < 16) :
    (Payload.registers (wordsBytes us)).toBits.bit (16 * k + j) = w.toNat.testBit j := by
  obtain ⟨hk, hw⟩ := List.getElem?_eq_some_iff.1 h
  have hdiv : (16 * k + j) / 16 = k := by omega
  have hmod : (16 * k + j) % 16 = j := by omega
  rw [Payload.toBits, bit_ofRegisters, hdiv, hmod, List.getD_eq_getElem?_getD, h]
  simp
  omega

theorem extract_byte_eq_iff {ch : Channel} (byte : ch.cls.width = 8)
    (bytes : ch.cls.isBitField = false) {us vs : List UInt16} (hus : ch.last ≤ 16 * us.length)
    (hvs : ch.last ≤ 16 * vs.length) :
    ch.extract (.registers (wordsBytes us)) = ch.extract (.registers (wordsBytes vs)) ↔
      ∀ i < ch.cls.width, (Payload.registers (wordsBytes us)).toBits.bit (ch.position + i)
        = (Payload.registers (wordsBytes vs)).toBits.bit (ch.position + i) := by
  have hposition : ch.position % 16 = 0 ∨ ch.position % 16 = 8 := by
    rw [position, byte]
    omega
  have hin : ∀ {ws : List UInt16}, ch.last ≤ 16 * ws.length → ∃ w, ws[ch.position / 16]? = some w :=
    fun hws => ⟨_, List.getElem?_eq_getElem (by rw [last, byte] at hws; omega)⟩
  obtain ⟨w, hw⟩ := hin hus
  obtain ⟨x, hx⟩ := hin hvs
  rw [extract_byte byte bytes hus hw, extract_byte byte bytes hvs hx, byte]
  -- the byte lies within one register, in its low or its high half
  have hdigits : ∀ i < 8, ∃ j < 16, ch.position + i = 16 * (ch.position / 16) + j ∧
      j = ch.position % 16 + i := fun i hi => ⟨_, by omega, by omega, rfl⟩
  have hbits : (∀ i < 8, (Payload.registers (wordsBytes us)).toBits.bit (ch.position + i)
        = (Payload.registers (wordsBytes vs)).toBits.bit (ch.position + i)) ↔
      ∀ i < 8, w.toNat.testBit (ch.position % 16 + i) = x.toNat.testBit (ch.position % 16 + i) := by
    refine forall₂_congr fun i hi => ?_
    obtain ⟨j, hj, hplace, rfl⟩ := hdigits i hi
    rw [hplace, bit_toBits hw hj, bit_toBits hx hj]
  rw [hbits, Except.ok.injEq, Field.bytes.injEq, List.cons.injEq, and_iff_left rfl, byte_eq_iff]
  refine forall₂_congr fun i hi => ?_
  rcases hposition with h | h
  · rw [if_pos h, if_pos h, h, testBit_toUInt8 _ hi, testBit_toUInt8 _ hi, Nat.zero_add]
  · rw [if_neg (by omega), if_neg (by omega), h, testBit_shiftRight_toUInt8 _ hi,
      testBit_shiftRight_toUInt8 _ hi]

theorem extract_words_eq_iff {ch : Channel} (bytes : ch.cls.isBitField = false) {count : Nat}
    (whole : ch.cls.width = 16 * count) {us vs : List UInt16} (hus : ch.last ≤ 16 * us.length)
    (hvs : ch.last ≤ 16 * vs.length) :
    ch.extract (.registers (wordsBytes us)) = ch.extract (.registers (wordsBytes vs)) ↔
      ∀ i < ch.cls.width, (Payload.registers (wordsBytes us)).toBits.bit (ch.position + i)
        = (Payload.registers (wordsBytes vs)).toBits.bit (ch.position + i) := by
  have hposition : ch.position = 16 * (ch.position / 16) := by
    have multiple : ch.position = 16 * (count * ch.index.toNat) := by
      rw [position, whole, Nat.mul_comm, Nat.mul_assoc]
    omega
  have hlast : ch.last = ch.position + 16 * count := by rw [last, whole]
  have hlength : ((vs.drop (ch.position / 16)).take count).length = count := by
    rw [List.length_take, List.length_drop]
    omega
  have hwords : (us.drop (ch.position / 16)).take count = (vs.drop (ch.position / 16)).take count ↔
      ∀ k < count, us[ch.position / 16 + k]? = vs[ch.position / 16 + k]? := by
    have hfound : ∀ ws : List UInt16, ws.length = count →
        ((us.drop (ch.position / 16)).take count = ws ↔
          ∀ k < count, us[ch.position / 16 + k]? = ws[k]?) := by
      rintro ws rfl
      exact take_drop_eq_iff
    refine (hfound _ hlength).trans (forall₂_congr fun k hk => ?_)
    rw [List.getElem?_take_of_lt hk, List.getElem?_drop]
  rw [extract_words bytes whole hus, extract_words bytes whole hvs, Except.ok.injEq,
    Field.bytes.injEq, wordsBytes_inj, hwords, whole]
  constructor
  · intro h i hi
    obtain ⟨w, hw⟩ : ∃ w, us[ch.position / 16 + i / 16]? = some w :=
      ⟨_, List.getElem?_eq_getElem (by omega)⟩
    have hx := (h (i / 16) (by omega)).symm.trans hw
    have hdigit : i % 16 < 16 := Nat.mod_lt _ (by decide)
    rw [show ch.position + i = 16 * (ch.position / 16 + i / 16) + i % 16 by omega,
      bit_toBits hw hdigit, bit_toBits hx hdigit]
  · intro h k hk
    obtain ⟨w, hw⟩ : ∃ w, us[ch.position / 16 + k]? = some w :=
      ⟨_, List.getElem?_eq_getElem (by omega)⟩
    obtain ⟨x, hx⟩ : ∃ x, vs[ch.position / 16 + k]? = some x :=
      ⟨_, List.getElem?_eq_getElem (by omega)⟩
    rw [hw, hx, Option.some_inj, word_eq_iff]
    intro j hj
    have hbit := h (16 * k + j) (by omega)
    rwa [show ch.position + (16 * k + j) = 16 * (ch.position / 16 + k) + j by omega,
      bit_toBits hw hj, bit_toBits hx hj] at hbit

theorem extract_bits_eq_iff {ch : Channel} (bitField : ch.cls.isBitField = true) {p q : Payload}
    (hp : ch.last ≤ p.bitLength) (hq : ch.last ≤ q.bitLength) (op : p.toBits.order = .lsb0)
    (oq : q.toBits.order = .lsb0) :
    ch.extract p = ch.extract q ↔
      ∀ i < ch.cls.width, p.toBits.bit (ch.position + i) = q.toBits.bit (ch.position + i) := by
  rw [extract_bits bitField op hp fun _ _ => rfl, extract_bits bitField oq hq fun _ _ => rfl,
    Except.ok.injEq, Field.bits.injEq]
  constructor
  · intro h i hi
    have hbit := congrArg (BitSeq.bit · i) h
    simpa [BitSeq.bit_ofFn, hi] using hbit
  · exact fun h => BitSeq.ofFn_congr h

end Channel

/-- a payload as reads bring it: bits least significant first, or the bytes of words -/
inductive Payload.Regular : Payload → Prop where
  | bits {s : BitSeq} : s.order = .lsb0 → Regular (.bits s)
  | registers (us : List UInt16) : Regular (.registers (wordsBytes us))

/-- the payload is register bytes -/
def Payload.isRegisters : Payload → Bool
  | .bits _ => false
  | .registers _ => true

/-- **Extraction looks at the bits of the channel and at nothing else.** -/
theorem Channel.extract_eq_extract_iff {ch : Channel} {p q : Payload} (hp : p.Regular)
    (hq : q.Regular) (fitp : ch.last ≤ p.bitLength) (fitq : ch.last ≤ q.bitLength)
    (kind : ch.cls.isBitField = false → p.isRegisters = true ∧ q.isRegisters = true) :
    ch.extract p = ch.extract q ↔
      ∀ i < ch.cls.width, p.toBits.bit (ch.position + i) = q.toBits.bit (ch.position + i) := by
  cases hfield : ch.cls.isBitField with
  | true =>
    refine extract_bits_eq_iff hfield fitp fitq ?_ ?_
    · cases hp <;> first | assumption | rfl
    · cases hq <;> first | assumption | rfl
  | false =>
    obtain ⟨kp, kq⟩ := kind hfield
    cases hp with
    | bits _ => cases kp
    | registers us =>
      cases hq with
      | bits _ => cases kq
      | registers vs =>
        rw [Payload.bitLength, length_wordsBytes] at fitp fitq
        by_cases byte : ch.cls.width = 8
        · exact extract_byte_eq_iff byte hfield (by omega) (by omega)
        · obtain ⟨count, -, whole⟩ := ch.cls.width_eq hfield byte
          exact extract_words_eq_iff hfield whole (by omega) (by omega)

end BusMaster
