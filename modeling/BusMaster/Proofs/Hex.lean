import BusMaster.Hex
import BusMaster.Proofs.Addressing
import BusMaster.Proofs.Words

/-!
# Hex text

A character is the digit of a value when it is, in upper case, the character that is written for it
(`value_eq_ok_iff`), and the two halves of a byte determine it. So a text is read as the bytes whose
text it is in upper case, and as nothing else (`decode_eq_ok_iff`): every text of bytes is read back,
and no two byte strings have a text in common. A text of even length that is not read fails with its
first character that is no digit (`decode_cases`).
-/

namespace BusMaster.Hex

/-- a letter in upper case, any other character as it is -/
def upper (c : UInt8) : UInt8 := if 0x61 ≤ c ∧ c ≤ 0x7A then c - 0x20 else c

variable {c v : UInt8} {text bytes : Bytes}

/-! ## Digits -/

/-- The digit of a value is read as the value, and is in upper case. -/
theorem value_digit (h : v < 16) : value (digit v) = .ok v ∧ upper (digit v) = digit v := by
  have all := forall_byte
    (P := fun v => v < 16 → (value (digit v)).toOption = some v ∧ upper (digit v) = digit v)
    (by decide +kernel) v h
  refine ⟨?_, all.2⟩
  rcases hvalue : value (digit v) with fault | w <;> rw [hvalue] at all
  · cases all.1
  · rw [Option.some.inj all.1]

/-- A letter has the same value in either case, and what has a value is its digit in upper case. -/
theorem value_upper (c : UInt8) : (value (upper c)).toOption = (value c).toOption ∧
    ((value c).toOption.all fun w => decide (w < 16 ∧ upper c = digit w)) = true :=
  forall_byte (P := fun c => (value (upper c)).toOption = (value c).toOption ∧
    ((value c).toOption.all fun w => decide (w < 16 ∧ upper c = digit w)) = true)
    (by decide +kernel) c

/-- **A character is read as a value when it is the value's digit, in either case.** -/
theorem value_eq_ok_iff : value c = .ok v ↔ v < 16 ∧ upper c = digit v := by
  obtain ⟨same, digits⟩ := value_upper c
  refine ⟨fun h => ?_, fun ⟨small, digit⟩ => ?_⟩
  · rw [h] at digits
    exact of_decide_eq_true digits
  · rw [digit, (value_digit small).1] at same
    rcases hvalue : value c with fault | w <;> rw [hvalue] at same
    · cases same
    · rw [← Option.some.inj same]

/-! ## Halves of a byte -/

theorem halves (b : UInt8) :
    b >>> 4 < 16 ∧ b &&& 0x0F < 16 ∧ (b >>> 4) <<< 4 ||| (b &&& 0x0F) = b :=
  forall_byte (P := fun b => b >>> 4 < 16 ∧ b &&& 0x0F < 16 ∧
    (b >>> 4) <<< 4 ||| (b &&& 0x0F) = b) (by decide +kernel) b

theorem halves_of_small {h l : UInt8} (hh : h < 16) (hl : l < 16) :
    (h <<< 4 ||| l) >>> 4 = h ∧ (h <<< 4 ||| l) &&& 0x0F = l := by
  have all : ∀ m < 16, ∀ n < 16,
      (UInt8.ofNat m <<< 4 ||| UInt8.ofNat n) >>> 4 = UInt8.ofNat m ∧
        (UInt8.ofNat m <<< 4 ||| UInt8.ofNat n) &&& 0x0F = UInt8.ofNat n := by decide +kernel
  have small := all h.toNat (UInt8.lt_iff_toNat_lt.1 hh) l.toNat (UInt8.lt_iff_toNat_lt.1 hl)
  rwa [UInt8.ofNat_toNat, UInt8.ofNat_toNat] at small

/-! ## Texts -/

@[simp] theorem length_encode (bytes : Bytes) : (encode bytes).length = 2 * bytes.length := by
  induction bytes with
  | nil => rfl
  | cons b bytes ih =>
    rw [encode, List.length_cons, List.length_cons, ih, List.length_cons]
    omega

theorem encode_append (front back : Bytes) :
    encode (front ++ back) = encode front ++ encode back := by
  induction front with
  | nil => rfl
  | cons b front ih => rw [List.cons_append, encode, ih, encode]; rfl

/-- A text of bytes is in upper case. -/
theorem map_upper_encode (bytes : Bytes) : (encode bytes).map upper = encode bytes := by
  induction bytes with
  | nil => rfl
  | cons b bytes ih =>
    obtain ⟨high, low, -⟩ := halves b
    rw [encode, List.map_cons, List.map_cons, (value_digit high).2, (value_digit low).2, ih]

theorem decodePairs_eq_ok_iff (even : text.length % 2 = 0) :
    decodePairs text = .ok bytes ↔ text.map upper = encode bytes := by
  induction bytes generalizing text with
  | nil =>
    rcases text with _ | ⟨high, _ | ⟨low, rest⟩⟩
    · exact ⟨fun _ => rfl, fun _ => rfl⟩
    · cases even
    · refine ⟨fun h => ?_, fun h => (by cases h)⟩
      obtain ⟨_, -, h⟩ := bind_eq_ok h
      obtain ⟨_, -, h⟩ := bind_eq_ok h
      obtain ⟨_, -, h⟩ := bind_eq_ok h
      cases h
  | cons b bytes ih =>
    rcases text with _ | ⟨high, _ | ⟨low, rest⟩⟩
    · exact ⟨fun h => (by cases h), fun h => (by cases h)⟩
    · cases even
    · have rest_even : rest.length % 2 = 0 := by
        rw [List.length_cons, List.length_cons] at even
        omega
      constructor
      · intro h
        obtain ⟨hi, hhigh, h⟩ := bind_eq_ok h
        obtain ⟨lo, hlow, h⟩ := bind_eq_ok h
        obtain ⟨tail, htail, h⟩ := bind_eq_ok h
        obtain ⟨rfl, rfl⟩ := List.cons.inj (Except.ok.inj h)
        obtain ⟨smallHigh, hhigh⟩ := value_eq_ok_iff.1 hhigh
        obtain ⟨smallLow, hlow⟩ := value_eq_ok_iff.1 hlow
        obtain ⟨first, second⟩ := halves_of_small smallHigh smallLow
        rw [encode, first, second, List.map_cons, List.map_cons, hhigh, hlow,
          (ih rest_even).1 htail]
      · intro h
        obtain ⟨hhigh, h⟩ := List.cons.inj h
        obtain ⟨hlow, hrest⟩ := List.cons.inj h
        obtain ⟨smallHigh, smallLow, whole⟩ := halves b
        rw [decodePairs, value_eq_ok_iff.2 ⟨smallHigh, hhigh⟩, value_eq_ok_iff.2 ⟨smallLow, hlow⟩,
          (ih rest_even).2 hrest]
        exact congrArg (fun b => Except.ok (b :: bytes)) whole

/-- **A text is read as the bytes whose text it is, in either case.** -/
theorem decode_eq_ok_iff : decode text = .ok bytes ↔ text.map upper = encode bytes := by
  rw [decode]
  split
  · rename_i odd
    refine ⟨fun h => (by cases h), fun h => ?_⟩
    have length := congrArg List.length h
    rw [List.length_map, length_encode] at length
    omega
  · exact decodePairs_eq_ok_iff (by omega)

theorem decode_encode (bytes : Bytes) : decode (encode bytes) = .ok bytes :=
  decode_eq_ok_iff.2 (map_upper_encode bytes)

/-- Every character of a text is a digit. -/
theorem exists_value_of_mem (h : text.map upper = encode bytes) (hc : c ∈ text) :
    ∃ v, value c = .ok v := by
  have digits : ∀ {bytes : Bytes} {d : UInt8}, d ∈ encode bytes → ∃ v < 16, d = digit v := by
    intro bytes d hd
    induction bytes with
    | nil => cases hd
    | cons b bytes ih =>
      rw [encode, List.mem_cons, List.mem_cons] at hd
      obtain ⟨high, low, -⟩ := halves b
      rcases hd with rfl | rfl | hd
      · exact ⟨_, high, rfl⟩
      · exact ⟨_, low, rfl⟩
      · exact ih hd
  obtain ⟨v, small, digit⟩ := digits (h ▸ List.mem_map_of_mem hc)
  exact ⟨v, value_eq_ok_iff.2 ⟨small, digit⟩⟩

/-! ## Texts that cannot be read -/

/-- a hex digit of either case -/
def IsDigit (c : UInt8) : Prop :=
  0x30 ≤ c ∧ c ≤ 0x39 ∨ 0x41 ≤ c ∧ c ≤ 0x46 ∨ 0x61 ≤ c ∧ c ≤ 0x66

instance : DecidablePred IsDigit := fun c => inferInstanceAs
  (Decidable (0x30 ≤ c ∧ c ≤ 0x39 ∨ 0x41 ≤ c ∧ c ≤ 0x46 ∨ 0x61 ≤ c ∧ c ≤ 0x66))

/-- the first character that is no digit -/
def stray? (text : Bytes) : Option UInt8 := text.find? fun c => ¬IsDigit c

theorem stray?_eq_none : stray? text = none ↔ ∀ c ∈ text, IsDigit c := by
  simp [stray?]

theorem stray?_cons (c : UInt8) (text : Bytes) :
    stray? (c :: text) = if IsDigit c then stray? text else some c := by
  rw [stray?, List.find?_cons]
  by_cases digit : IsDigit c <;> simp [digit, stray?]

/-- A digit has a value, and any other character is named. -/
theorem value_cases (c : UInt8) :
    IsDigit c ∧ (∃ v, value c = .ok v) ∨ ¬IsDigit c ∧ value c = .error (.badHexCharacter c) := by
  rw [value, IsDigit]
  split
  · exact .inl ⟨.inl ‹_›, _, rfl⟩
  split
  · exact .inl ⟨.inr (.inl ‹_›), _, rfl⟩
  split
  · exact .inl ⟨.inr (.inr ‹_›), _, rfl⟩
  · exact .inr ⟨not_or.2 ⟨‹_›, not_or.2 ⟨‹_›, ‹_›⟩⟩, rfl⟩

/-- Pairs of digits are read, and otherwise the first character that is none is named: the high
half of a byte is looked at before the low one, and both before the bytes behind. -/
theorem decodePairs_cases : ∀ {text : Bytes}, text.length % 2 = 0 →
    stray? text = none ∧ (∃ bytes, decodePairs text = .ok bytes) ∨
      ∃ c, stray? text = some c ∧ decodePairs text = .error (.badHexCharacter c)
  | [], _ => .inl ⟨rfl, [], rfl⟩
  | [_], even => nomatch even
  | high :: low :: rest, even => by
    have rest_even : rest.length % 2 = 0 := by
      rw [List.length_cons, List.length_cons] at even
      omega
    rw [stray?_cons, stray?_cons, decodePairs]
    rcases value_cases high with ⟨digit, h, hhigh⟩ | ⟨stray, hhigh⟩
    · rw [if_pos digit, hhigh]
      rcases value_cases low with ⟨digit, l, hlow⟩ | ⟨stray, hlow⟩
      · rw [if_pos digit, hlow]
        rcases decodePairs_cases rest_even with ⟨none, tail, hrest⟩ | ⟨c, some, hrest⟩
        · rw [hrest]
          exact .inl ⟨none, _, rfl⟩
        · rw [hrest]
          exact .inr ⟨c, some, rfl⟩
      · rw [if_neg stray, hlow]
        exact .inr ⟨low, rfl, rfl⟩
    · rw [if_neg stray, hhigh]
      exact .inr ⟨high, rfl, rfl⟩

/-- A text is refused for its length, or read, or refused for its first character that is no
digit. -/
theorem decode_cases (text : Bytes) :
    text.length % 2 = 1 ∧ decode text = .error .oddHexLength ∨
    text.length % 2 = 0 ∧ stray? text = none ∧ (∃ bytes, decode text = .ok bytes) ∨
    text.length % 2 = 0 ∧ ∃ c, stray? text = some c ∧
      decode text = .error (.badHexCharacter c) := by
  rcases Nat.mod_two_eq_zero_or_one text.length with even | odd
  · rw [decode, if_neg (by omega)]
    rcases decodePairs_cases even with read | named
    · exact .inr (.inl ⟨even, read⟩)
    · exact .inr (.inr ⟨even, named⟩)
  · exact .inl ⟨odd, if_pos odd⟩

/-- **Exactly hex texts are read.** A text is read as some bytes exactly if its length is even, its
characters are hex digits of either case, and in upper case it is the text of the bytes. So every
text of bytes is read back. Of a text that is not read, the length is looked at first, and then the
first character that is no digit is named. -/
theorem reads_exactly_hex (text bytes : Bytes) (fault : FrameFault) :
    (decode text = .ok bytes ↔ text.length % 2 = 0 ∧ (∀ c ∈ text, IsDigit c) ∧
      encode bytes = text.map upper) ∧
    decode (encode bytes) = .ok bytes ∧
    (decode text = .error fault ↔
      if text.length % 2 = 1 then fault = .oddHexLength
      else ∃ c, stray? text = some c ∧ fault = .badHexCharacter c) := by
  refine ⟨⟨fun read => ?_, fun ⟨_, _, same⟩ => decode_eq_ok_iff.2 same.symm⟩,
    decode_encode bytes, ?_⟩
  · rcases decode_cases text with ⟨-, odd⟩ | ⟨even, digits, -⟩ | ⟨-, c, -, named⟩
    · rw [odd] at read
      cases read
    · exact ⟨even, stray?_eq_none.1 digits, (decode_eq_ok_iff.1 read).symm⟩
    · rw [named] at read
      cases read
  · rcases decode_cases text with ⟨odd, refused⟩ | ⟨even, digits, _, read⟩ | ⟨even, c, stray, named⟩
    · rw [refused, if_pos odd, Except.error.injEq, eq_comm]
    · rw [read, if_neg (by omega), digits]
      refine iff_of_false (fun h => nomatch h) ?_
      rintro ⟨c, h, -⟩
      cases h
    · rw [named, if_neg (by omega), stray, Except.error.injEq]
      refine ⟨fun h => ⟨c, rfl, h.symm⟩, ?_⟩
      rintro ⟨d, hd, rfl⟩
      rw [Option.some.inj hd]

end BusMaster.Hex
