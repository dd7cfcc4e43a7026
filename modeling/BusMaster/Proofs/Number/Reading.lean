import Mathlib.Data.List.TakeDrop
import Mathlib.Data.List.TakeWhile
import Mathlib.Tactic.Ring
import BusMaster.Number.Reading
import BusMaster.Text.Blank

/-!
# Numbers that are read

Every reader of numbers looks at all characters of its text, and none of them takes a blank, in front
or behind or in between. So a text that is read as a whole number or as a decimal is solid
(`solid_of_readInt`, `solid_of_readDecimal`). The other way round, digits alone are always read as a
whole number, unless there are too many for the bounds (`readInt_of_digits`).
-/

namespace BusMaster

variable {c : Char} {text : List Char} {acc n : Nat}

/-- no character is blank -/
def Solid (text : List Char) : Prop := ∀ c ∈ text, isBlank c = false

instance : DecidablePred Solid := fun text =>
  decidable_of_iff (text.all (!isBlank ·) = true) (by simp [Solid])

theorem solid_nil : Solid [] := fun _ h => absurd h List.not_mem_nil

theorem solid_cons : Solid (c :: text) ↔ isBlank c = false ∧ Solid text :=
  List.forall_mem_cons

theorem solid_append {other : List Char} : Solid (text ++ other) ↔ Solid text ∧ Solid other :=
  List.forall_mem_append

/-- A text that is not solid has a blank somewhere. -/
theorem not_solid : ¬Solid text ↔ ∃ c ∈ text, isBlank c = true := by
  simp [Solid]

/-! ## Digits -/

/-- A digit is below ten, and no blank. -/
theorem digitValue_eq_some {d : Nat} (h : digitValue c = some d) : d < 10 ∧ isBlank c = false := by
  rw [digitValue] at h
  split at h
  · rename_i range
    obtain ⟨low, high⟩ : 48 ≤ c.toNat ∧ c.toNat ≤ 57 := range
    obtain rfl : c.toNat - 48 = d := Option.some.inj h
    refine ⟨by omega, ?_⟩
    simp [isBlank]
    omega
  · cases h

theorem solid_of_readDigitsFrom (h : readDigitsFrom acc text = some n) : Solid text := by
  induction text generalizing acc with
  | nil => exact solid_nil
  | cons c rest ih =>
    obtain ⟨d, hd, hrest⟩ := Option.bind_eq_some_iff.1 h
    exact solid_cons.2 ⟨(digitValue_eq_some hd).2, ih hrest⟩

theorem solid_of_readExponentFrom (h : readExponentFrom acc text = some n) : Solid text := by
  induction text generalizing acc with
  | nil => exact solid_nil
  | cons c rest ih =>
    obtain ⟨d, hd, hrest⟩ := Option.bind_eq_some_iff.1 h
    exact solid_cons.2 ⟨(digitValue_eq_some hd).2, ih hrest⟩

/-- Digits are read as a number with at most so many digits. -/
theorem readDigitsFrom_of_digits (digits : ∀ c ∈ text, (digitValue c).isSome) (acc : Nat) :
    ∃ n, readDigitsFrom acc text = some n ∧ n + 1 ≤ (acc + 1) * 10 ^ text.length := by
  induction text generalizing acc with
  | nil => exact ⟨acc, rfl, by simp⟩
  | cons c rest ih =>
    obtain ⟨digit, digits⟩ := List.forall_mem_cons.1 digits
    obtain ⟨d, hd⟩ := Option.isSome_iff_exists.1 digit
    obtain ⟨n, hn, small⟩ := ih digits (10 * acc + d)
    refine ⟨n, by rw [readDigitsFrom, hd]; exact hn, ?_⟩
    have below := (digitValue_eq_some hd).1
    calc n + 1 ≤ (10 * acc + d + 1) * 10 ^ rest.length := small
      _ ≤ (10 * (acc + 1)) * 10 ^ rest.length := Nat.mul_le_mul_right _ (by omega)
      _ = (acc + 1) * 10 ^ (c :: rest).length := by
        rw [List.length_cons, Nat.pow_succ]
        ring

/-! ## Whole numbers -/

/-- A sign is no blank. -/
theorem solid_of_splitSign (h : Solid (splitSign text).2) : Solid text := by
  rw [splitSign.eq_def] at h
  split at h
  · exact solid_cons.2 ⟨rfl, h⟩
  · exact solid_cons.2 ⟨rfl, h⟩
  · exact h

theorem readNat_eq_some : readNat text = some n ↔ text ≠ [] ∧ readDigitsFrom 0 text = some n := by
  rw [readNat]
  cases text with
  | nil => simp
  | cons c rest => simp

theorem readInt_eq (min max : Int) (text : String) :
    readInt min max text = (readNat (splitSign text.toList).2).bind fun n =>
      let i : Int := if (splitSign text.toList).1 then -n else n
      if min ≤ i ∧ i ≤ max then some i else none := rfl

theorem solid_of_readInt {min max i : Int} {text : String} (h : readInt min max text = some i) :
    Solid text.toList := by
  rw [readInt_eq] at h
  obtain ⟨n, hn, -⟩ := Option.bind_eq_some_iff.1 h
  exact solid_of_splitSign (solid_of_readDigitsFrom (readNat_eq_some.1 hn).2)

/-- A digit is no sign. -/
theorem splitSign_of_digit (h : (digitValue c).isSome) :
    splitSign (c :: text) = (false, c :: text) := by
  rw [splitSign.eq_def]
  split
  · rename_i heq
    rw [(List.cons.inj heq).1] at h
    cases h
  · rename_i heq
    rw [(List.cons.inj heq).1] at h
    cases h
  · rfl

/-- **Digits are read as a whole number** if as many of them stay within the bounds. -/
theorem readInt_of_digits {min max : Int} {text : String} (nonempty : text.toList ≠ [])
    (digits : ∀ c ∈ text.toList, (digitValue c).isSome) (low : min ≤ 0)
    (high : (10 ^ text.toList.length : Nat) ≤ max + 1) :
    ∃ n : Nat, readInt min max text = some n := by
  obtain ⟨n, hn, small⟩ := readDigitsFrom_of_digits digits 0
  rw [Nat.zero_add, Nat.one_mul] at small
  have split : splitSign text.toList = (false, text.toList) := by
    cases htext : text.toList with
    | nil => exact absurd htext nonempty
    | cons c rest =>
      rw [htext] at digits
      exact splitSign_of_digit (digits c List.mem_cons_self)
  have within : min ≤ (n : Int) ∧ (n : Int) ≤ max := by omega
  refine ⟨n, ?_⟩
  rw [readInt_eq, split, readNat_eq_some.2 ⟨nonempty, hn⟩]
  exact if_pos within

/-! ## Decimals -/

theorem solid_of_readExponent {i : Int} (h : readExponent text = some i) : Solid text := by
  rw [readExponent.eq_def] at h
  split at h
  · exact solid_nil
  rename_i c rest
  split at h
  · rename_i letter
    obtain ⟨_, -, h⟩ := Option.bind_eq_some_iff.1 h
    obtain ⟨n, hn, -⟩ := Option.bind_eq_some_iff.1 h
    refine solid_cons.2 ⟨?_, solid_of_splitSign (solid_of_readExponentFrom hn)⟩
    rcases letter with rfl | rfl <;> rfl
  · cases h

/-- Digits are taken off the front of a text. -/
theorem spanDigits_eq (text : List Char) :
    ∃ digits rest, spanDigits text = (digits, rest) ∧ Solid digits ∧ text = digits ++ rest := by
  refine ⟨_, _, List.span_eq_takeWhile_dropWhile _ text, fun c hc => ?_,
    List.takeWhile_append_dropWhile.symm⟩
  obtain ⟨d, hd⟩ := Option.isSome_iff_exists.1 <|
    List.mem_takeWhile_imp (p := fun c => (digitValue c).isSome) hc
  exact (digitValue_eq_some hd).2

theorem solid_of_readMagnitude {negative : Bool} {x : Binary64}
    (h : readMagnitude negative text = some x) : Solid text := by
  obtain ⟨whole, rest, hspan, solid, rfl⟩ := spanDigits_eq text
  simp only [readMagnitude, hspan, Option.bind_eq_bind, Option.bind_eq_some_iff] at h
  obtain ⟨_, -, exponent, hexponent, -⟩ := h
  have behind := solid_of_readExponent hexponent
  clear hexponent
  refine solid_append.2 ⟨solid, ?_⟩
  -- what follows the leading digits is the point and a fraction, or nothing but the exponent
  split at behind
  · rename_i point
    obtain ⟨fraction, back, hfraction, solid, rfl⟩ := spanDigits_eq point
    rw [hfraction] at behind
    exact solid_cons.2 ⟨rfl, solid_append.2 ⟨solid, behind⟩⟩
  · exact behind

/-- A blank is the same in lower case. -/
theorem toLower_of_isBlank (blank : isBlank c = true) : c.toLower = c := by
  have small : ¬(c.val ≥ 'A'.val ∧ c.val ≤ 'Z'.val) := by
    rintro ⟨low, high⟩
    obtain ⟨low, high⟩ : 65 ≤ c.toNat ∧ c.toNat ≤ 90 := ⟨low, high⟩
    simp [isBlank] at blank
    omega
  exact dif_neg small

/-- A word is solid if it is so in lower case. -/
theorem solid_of_word {word : String} (h : String.ofList (text.map Char.toLower) = word)
    (solid : Solid word.toList) : Solid text := by
  rw [← h, String.toList_ofList] at solid
  intro c hc
  rw [← Bool.not_eq_true]
  intro blank
  have lower := solid _ (List.mem_map_of_mem hc)
  rw [toLower_of_isBlank blank, blank] at lower
  cases lower

theorem solid_of_readDecimal {text : String} {x : Binary64} (h : readDecimal text = some x) :
    Solid text.toList := by
  refine solid_of_splitSign ?_
  rw [readDecimal] at h
  dsimp only at h
  split at h
  · rename_i word
    rcases word with word | word <;> exact solid_of_word word (by decide)
  split at h
  · rename_i word
    exact solid_of_word word (by decide)
  · exact solid_of_readMagnitude h

end BusMaster
