import BusMaster.Proofs.Bits.Listing
import BusMaster.Proofs.Words

/-!
# Bits as text and as registers

A run of bits is written down as text or as registers, and read back from either. The text has one
binary digit for each bit, and a reader passes over blanks (`readDigits_of_legible`) and stops at the
first character that is neither (`readDigits_of_illegible`). Registers come in whole ones: those that
a run is written to have zeros behind its last bit (`toList_ofRegisters_toRegisters`), and a run that
is read from registers is written to the same ones (`toRegisters_ofRegisters`). The order of a run
plays no part in any of this (`conversions_are_inverse`).
-/

namespace BusMaster.BitSeq

theorem toList_ofList (order : BitOrder) (bits : List Bool) :
    (ofList order bits).toList = bits := by
  have size : bits.length = (ofList order bits).size := by
    rw [ofList_eq_ofFn, size_ofFn]
  refine toList_eq_of_bit size fun i hi => ?_
  rw [← size] at hi
  simp [bit_ofList, List.getElem?_eq_getElem hi]

/-! ## Text -/

/-- a binary digit or a blank -/
def Legible (c : Char) : Prop := isBlank c = true ∨ c = '0' ∨ c = '1'

instance : DecidablePred Legible := fun c =>
  inferInstanceAs (Decidable (isBlank c = true ∨ c = '0' ∨ c = '1'))

/-- A reader takes one bit from each digit, in their order. -/
theorem readDigits_of_legible {text : List Char} (legible : ∀ c ∈ text, Legible c) :
    readDigits text = .ok ((text.filter (!isBlank ·)).map (· == '1')) := by
  induction text with
  | nil => rfl
  | cons c text ih =>
    have rest := ih fun x hx => legible x (List.mem_cons_of_mem c hx)
    by_cases blank : isBlank c = true
    · simp [readDigits, blank, rest]
    · rcases (legible c List.mem_cons_self).resolve_left blank with rfl | rfl <;>
        simp [readDigits, blank, rest, Except.map]

/-- A reader fails with the first character that is no digit and no blank. -/
theorem readDigits_of_illegible {front : List Char} (legible : ∀ x ∈ front, Legible x) {c : Char}
    (illegible : ¬Legible c) (back : List Char) :
    readDigits (front ++ c :: back) = .error (.badCharacter c) := by
  induction front with
  | nil =>
    obtain ⟨blank, zero, one⟩ : isBlank c = false ∧ c ≠ '0' ∧ c ≠ '1' := by
      simpa [Legible] using illegible
    simp [readDigits, blank, zero, one]
  | cons x front ih =>
    have rest := ih fun y hy => legible y (List.mem_cons_of_mem x hy)
    by_cases blank : isBlank x = true
    · simp [readDigits, blank, rest]
    · rcases (legible x List.mem_cons_self).resolve_left blank with rfl | rfl <;>
        simp [readDigits, blank, rest, Except.map]

theorem digits_cons (i : Nat) (b : Bool) (rest : List Bool) :
    digits i (b :: rest) = (if 0 < i ∧ i % 8 = 0 then [' '] else [])
      ++ (if b then '1' else '0') :: digits (i + 1) rest := by
  rw [digits]
  split <;> rfl

/-- The text of some bits is legible. -/
theorem legible_digits (i : Nat) (bits : List Bool) : ∀ c ∈ digits i bits, Legible c := by
  induction bits generalizing i with
  | nil => exact fun c hc => absurd hc List.not_mem_nil
  | cons b rest ih =>
    intro c hc
    rw [digits_cons, List.mem_append, List.mem_cons] at hc
    rcases hc with blank | rfl | later
    · split at blank
      · obtain rfl := List.mem_singleton.1 blank
        exact .inl rfl
      · cases blank
    · cases b
      · exact .inr (.inl rfl)
      · exact .inr (.inr rfl)
    · exact ih (i + 1) c later

/-- But for its blanks the text of some bits is a digit for each of them. -/
theorem filter_digits {p : Char → Bool} (blank : p ' ' = false) (zero : p '0' = true)
    (one : p '1' = true) (i : Nat) (bits : List Bool) :
    (digits i bits).filter p = bits.map fun b => if b then '1' else '0' := by
  induction bits generalizing i with
  | nil => rfl
  | cons b rest ih =>
    rw [digits_cons, List.filter_append, List.map_cons, ← ih (i + 1)]
    cases b <;> split <;> simp [blank, zero, one]

theorem readDigits_digits (i : Nat) (bits : List Bool) : readDigits (digits i bits) = .ok bits := by
  rw [readDigits_of_legible (legible_digits i bits), filter_digits rfl rfl rfl, List.map_map]
  congr 1
  refine (List.map_congr_left fun b _ => ?_).trans (List.map_id bits)
  cases b <;> rfl

/-- The text of a run stands for its bits. -/
theorem ofText_toText (order : BitOrder) (s : BitSeq) :
    ofText order s.toText = .ok (ofList order s.toList) := by
  rw [ofText, toText, String.toList_ofList, readDigits_digits]
  rfl

/-! ## Registers -/

/-- The registers of a run that was read from registers are these. -/
theorem words_ofRegisters (us : List UInt16) : (ofRegisters (wordsBytes us)).words = us := by
  have size : (ofRegisters (wordsBytes us)).size = 16 * us.length := by
    change 8 * (swapWords (wordsBytes us)).length = _
    rw [length_swapWords, length_wordsBytes]
    omega
  have length : (ofRegisters (wordsBytes us)).words.length = us.length := by
    rw [length_words, size]
    omega
  refine List.ext_getElem length fun r hr hr' => word_eq_iff.2 fun j hj => ?_
  have place : (16 * r + j) / 16 = r ∧ (16 * r + j) % 16 = j := by omega
  have within : 16 * r + j < 16 * us.length := by omega
  have digit := testBit_words (s := ofRegisters (wordsBytes us)) (i := 16 * r + j) (by omega)
  rw [bit_ofRegisters, place.1, place.2, decide_eq_true within, Bool.true_and,
    List.getD_eq_getElem _ _ hr, List.getD_eq_getElem _ _ hr'] at digit
  exact digit

theorem toRegisters_ofRegisters {bytes : Bytes} (even : bytes.length % 2 = 0) :
    (ofRegisters bytes).toRegisters = bytes := by
  rw [← wordsBytes_wordsOf even, toRegisters_eq, words_ofRegisters]

/-- To exchange the bytes of every word is to put each where the other one is. -/
theorem swapWords_eq_map {bytes : Bytes} (even : bytes.length % 2 = 0) :
    swapWords bytes = (List.range bytes.length).map fun k => bytes.getD (otherHalf k) 0 := by
  refine List.ext_getElem (by simp [length_swapWords]) fun k hk _ => ?_
  rw [length_swapWords] at hk
  rw [← List.getD_eq_getElem _ 0, getD_swapWords (by omega)]
  simp

/-- The registers of a run have its bits, and zeros up to the end of the last one. -/
theorem toList_ofRegisters_toRegisters (s : BitSeq) :
    (ofRegisters s.toRegisters).toList =
      s.toList ++ List.replicate (16 * ((s.size + 15) / 16) - s.size) false := by
  have size : (ofRegisters (wordsBytes s.words)).size = 16 * ((s.size + 15) / 16) := by
    change 8 * (swapWords (wordsBytes s.words)).length = _
    rw [length_swapWords, length_wordsBytes, length_words]
    omega
  rw [toRegisters_eq]
  refine toList_eq_of_bit ?_ fun i hi => ?_
  · rw [size, List.length_append, length_toList, List.length_replicate]
    omega
  rw [size] at hi
  rw [bit_ofRegisters, length_words, decide_eq_true hi, Bool.true_and,
    testBit_words_of_lt (by omega), List.getElem?_append, length_toList, getElem?_toList]
  by_cases within : i < s.size
  · simp [within]
  · have behind : i - s.size < 16 * ((s.size + 15) / 16) - s.size := by omega
    simp [within, behind, bit_eq_false (Nat.le_of_not_lt within)]

/-- **Runs, texts and registers give each other back.** The text of a run is read as the same run, in
either order. A text of binary digits and blanks is read as one bit for each digit, and any other
one fails with its first character that is neither. Registers are read as a run that is written to
the same registers, and a run is written to registers that are read as the run with zeros behind it,
as many as fill its last register. -/
theorem conversions_are_inverse :
    (∀ (s : BitSeq) order, ∃ t, ofText order s.toText = .ok t ∧ t.order = order ∧
      (t == s) = true) ∧
    (∀ order text, (∀ c ∈ text.toList, Legible c) → ∃ t, ofText order text = .ok t ∧
      t.order = order ∧ t.toList = (text.toList.filter (!isBlank ·)).map (· == '1')) ∧
    (∀ order text front c back, text.toList = front ++ c :: back → (∀ x ∈ front, Legible x) →
      ¬Legible c → ofText order text = .error (.badCharacter c)) ∧
    (∀ bytes : Bytes, bytes.length % 2 = 0 → (ofRegisters bytes).toRegisters = bytes ∧
      ofRegisters bytes =
        ofSwappedWords ((List.range bytes.length).map fun k => bytes.getD (otherHalf k) 0)) ∧
    ∀ s : BitSeq, (ofRegisters s.toRegisters).toList =
      s.toList ++ List.replicate (16 * ((s.size + 15) / 16) - s.size) false := by
  refine ⟨fun s order => ?_, fun order text legible => ?_,
    fun order text front c back split legible illegible => ?_, fun bytes even => ?_,
    toList_ofRegisters_toRegisters⟩
  · refine ⟨ofList order s.toList, ofText_toText order s, by rw [ofList_eq_ofFn]; rfl, ?_⟩
    rw [beq_iff_toList, toList_ofList]
  · refine ⟨ofList order ((text.toList.filter (!isBlank ·)).map (· == '1')), ?_,
      by rw [ofList_eq_ofFn]; rfl, toList_ofList ..⟩
    rw [ofText, readDigits_of_legible legible]
    rfl
  · rw [ofText, split, readDigits_of_illegible legible illegible]
    rfl
  · refine ⟨toRegisters_ofRegisters even, ?_⟩
    rw [ofRegisters, swapWords_eq_map even]

namespace Dozen

/-- twelve bits, the most significant first -/
def run : BitSeq := ofList .msb0
  [true, false, false, true, false, true, true, true, false, false, true, true]

/-- the bits, with a blank that is no space in between -/
def spaced : List Char := ['1', '0', '0', '1', '0', '1', '1', '1', '\u00a0', '0', '0', '1', '1']

/-- a letter instead of a digit -/
def misspelled : List Char := ['1', '0', ' ', 'O', '1', 'x']

/-- Twelve bits as text, and in a register that has room for four more. -/
theorem dozen_comes_back :
    (∃ t, ofText .lsb0 run.toText = .ok t ∧ t.order = .lsb0 ∧ (t == run) = true) ∧
    (∃ t, ofText .msb0 (String.ofList spaced) = .ok t ∧ t.order = .msb0 ∧ t.toList = run.toList) ∧
    ofText .msb0 (String.ofList misspelled) = .error (.badCharacter 'O') ∧
    (ofRegisters [0x0C, 0xE9]).toRegisters = [0x0C, 0xE9] ∧
    (ofRegisters run.toRegisters).toList = run.toList ++ [false, false, false, false] := by
  obtain ⟨texts, digits, others, registers, padded⟩ := conversions_are_inverse
  have legible : ∀ c ∈ (String.ofList spaced).toList, Legible c := by
    rw [String.toList_ofList]
    simp [spaced, Legible, isBlank]
  obtain ⟨t, ht, order, bits⟩ := digits .msb0 _ legible
  rw [String.toList_ofList] at bits
  refine ⟨texts run .lsb0, ⟨t, ht, order, bits.trans (by decide)⟩, ?_,
    (registers [0x0C, 0xE9] rfl).1, padded run⟩
  exact others .msb0 _ ['1', '0', ' '] 'O' ['1', 'x'] String.toList_ofList
    (by simp [Legible, isBlank]) (by decide)

end Dozen

end BusMaster.BitSeq
