import BusMaster.Proofs.Number.Powers
import BusMaster.Proofs.Plant.Canonical

/-!
# Integers that are written

An integer class holds whole numbers within bounds. A value is written as one of them, its raw
integer (`Value.Raw`): itself if it is whole, or with its decimal places undone and rounded. What
has a raw integer within the bounds is encoded to it, and the field reads as that integer again
(`Encoding.decode_integerField`). What has none is refused, with one exception
(`Encoding.integer_eq_ok_iff`). The bounds are checked on an integer of 64 bits
(`Binary64.toInt64_eq_iff`). To get there a number that is too large becomes the largest one, which
is still out of bounds, but what is no number becomes zero. Without decimal places it is refused
before, because it is not whole. With decimal places it is written as zero.
-/

namespace BusMaster

/-! ## Raw integers -/

/-- the class holds the integer -/
def ValueClass.Holds (cls : ValueClass) (i : ℤ) : Prop := cls.bounds.1 ≤ i ∧ i ≤ cls.bounds.2

/-- the number that a value is -/
inductive Value.Is : Value → ℚ → Prop
  | int (i : ℤ) : Is (.int i) i
  | float {x : Binary64} : x.isFinite = true → Is (.float x) x.toRat

/-- the raw integer of a value with or without decimal places -/
inductive Value.Raw : Option UInt8 → Value → ℤ → Prop
  /-- an integer is its own -/
  | int (i : ℤ) : Raw none (.int i) i
  /-- a fraction must be whole -/
  | whole {x : Binary64} {i : ℤ} : x.isFinite = true → x.toRat = i → Raw none (.float x) i
  /-- decimal places are undone by a product, and the rest is rounded, a half away from zero -/
  | scaled {places : UInt8} {v : Value} {x : Binary64} {i : ℤ} : v.number? = some x →
      (x.mul (.tenTo places.toNat)).isFinite = true →
      RoundsTo (x.mul (.tenTo places.toNat)).toRat i → Raw (some places) v i

/-- the value is no number -/
def Value.IsNaN (v : Value) : Prop := ∃ x, v = .float x ∧ x.isNaN = true

namespace Encoding

/-- the decimal places that count for a class -/
def places (e : Encoding) (cls : ValueClass) : Option UInt8 :=
  if cls.isInteger then e.scale else none

/-- the same reading without decimal places -/
def plain (e : Encoding) : Encoding := { e with scale := none }

end Encoding

/-- Classes are held within 64 bits. -/
theorem ValueClass.Holds.inside {cls : ValueClass} {i : ℤ} (h : cls.Holds i) :
    Int64.minValue.toInt < i ∧ i < Int64.maxValue.toInt := by
  obtain ⟨low, high⟩ := h
  have bounds : Int64.minValue.toInt < cls.bounds.1 ∧ cls.bounds.2 < Int64.maxValue.toInt := by
    cases cls <;> decide
  omega

/-- What a class holds is within 33 bits. -/
theorem ValueClass.Holds.abs_raw_le {cls : ValueClass} {i : ℤ} (h : cls.Holds i) :
    |i| ≤ 2 ^ 32 := by
  obtain ⟨low, high⟩ := h
  have bounds : -2 ^ 32 ≤ cls.bounds.1 ∧ cls.bounds.2 ≤ 2 ^ 32 := by
    cases cls <;> decide
  rw [abs_le]
  omega

namespace Binary64

variable {x : Binary64} {i : ℤ}

theorem isFinite_iff : x.isFinite = true ↔ x.isNaN = false ∧ x.isInfinite = false := by
  refine ⟨fun finite => ?_, fun ⟨nan, infinite⟩ => isFinite_of_not nan infinite⟩
  rw [isFinite, decide_eq_true_eq] at finite
  rw [isNaN, isInfinite, decide_eq_false_iff_not, decide_eq_false_iff_not]
  omega

/-- **A number held within 64 bits is an integer inside of them** exactly if it was brought to that
integer, or if it was no number and the integer is zero. -/
theorem toInt64_eq_iff {whole : Binary64 → ℤ}
    (inside : Int64.minValue.toInt < i ∧ i < Int64.maxValue.toInt) :
    x.toInt64 whole = i ↔ x.isFinite = true ∧ whole x = i ∨ x.isNaN = true ∧ i = 0 := by
  rw [isFinite_iff, toInt64]
  rcases nan : x.isNaN with _ | _
  · rcases infinite : x.isInfinite with _ | _
    · simp only [Bool.false_eq_true, if_false, true_and, false_and, or_false]
      omega
    · simp only [Bool.false_eq_true, Bool.true_eq_false, if_false, if_true, and_false, false_and,
        or_false, iff_false]
      split <;> omega
  · simp only [if_true, Bool.true_eq_false, false_and, false_or, true_and]
    exact eq_comm

/-- A product with a power of ten is no number exactly if the factor is none. -/
theorem isNaN_mul_tenTo {k : Nat} (h : k < 256) :
    (x.mul (tenTo k)).isNaN = true ↔ x.isNaN = true := by
  obtain ⟨finite, nonzero⟩ := tenTo_finite h
  obtain ⟨number, bounded⟩ := isFinite_iff.1 finite
  rw [mul, number, bounded, Bool.or_false, Bool.or_false]
  rcases nan : x.isNaN with _ | _
  · rw [if_neg Bool.false_ne_true, Bool.false_eq_true, iff_false, Bool.not_eq_true]
    split
    · rename_i infinite
      have large : ¬(x.unsigned = 0 ∨ (tenTo k).unsigned = 0) := by
        rw [isInfinite, decide_eq_true_eq] at infinite
        rw [infinite]
        exact not_or.2 ⟨by decide, nonzero⟩
      rw [if_neg (by simpa using large)]
      exact isNaN_assemble (Nat.le_refl _) _
    · exact isNaN_assemble (nearest_le_infinity ..) _
  · rw [if_pos rfl]
    exact iff_of_true (by decide) rfl

end Binary64

namespace Encoding

variable {e : Encoding} {cls : ValueClass} {v : Value} {raw : ℤ}

/-- the integer, if the class holds it -/
def held (cls : ValueClass) (i : ℤ) : Except ConfigFault ℤ :=
  if cls.bounds.1 ≤ i ∧ i ≤ cls.bounds.2 then .ok i else .error .valueOutOfRange

theorem held_eq_ok_iff {i : ℤ} : held cls i = .ok raw ↔ i = raw ∧ cls.Holds raw := by
  rw [held]
  split
  · rename_i holds
    rw [Except.ok.injEq]
    exact ⟨fun h => ⟨h, h ▸ holds⟩, And.left⟩
  · rename_i outside
    refine iff_of_false (fun h => nomatch h) ?_
    rintro ⟨rfl, holds⟩
    exact outside holds

theorem integer_scaled {places : UInt8} {x : Binary64} (h : e.places cls = some places)
    (number : v.number? = some x) :
    e.integer cls v = held cls ((x.mul (.tenTo places.toNat)).toInt64 Binary64.roundAway) := by
  change (if cls.isInteger then e.scale else none) = some places at h
  simp only [integer, h, number]
  rfl

theorem integer_no_number {places : UInt8} (h : e.places cls = some places)
    (number : v.number? = none) : e.integer cls v = .error .valueMismatch := by
  change (if cls.isInteger then e.scale else none) = some places at h
  simp only [integer, h, number]
  rfl

theorem integer_whole {x : Binary64} (h : e.places cls = none) :
    e.integer cls (.float x) = if x.isWhole then held cls (x.toInt64 Binary64.truncate)
      else .error .valueOutOfRange := by
  change (if cls.isInteger then e.scale else none) = none at h
  simp only [integer, h]
  split <;> rfl

theorem integer_plain_eq_ok_iff (h : e.places cls = none) :
    e.integer cls v = .ok raw ↔ cls.Holds raw ∧ v.Raw none raw := by
  have plain : (if cls.isInteger then e.scale else none) = none := h
  cases v with
  | int i =>
    have hinteger : e.integer cls (.int i) = held cls i := by
      simp only [integer, plain]
      rfl
    rw [hinteger, held_eq_ok_iff]
    constructor
    · rintro ⟨rfl, holds⟩
      exact ⟨holds, .int _⟩
    · rintro ⟨holds, ⟨⟩⟩
      exact ⟨rfl, holds⟩
  | float x =>
    rw [integer_whole h]
    constructor
    · intro hok
      split at hok
      · rename_i whole
        rw [Binary64.isWhole, Bool.and_eq_true, decide_eq_true_eq] at whole
        obtain ⟨hraw, holds⟩ := held_eq_ok_iff.1 hok
        obtain ⟨finite, rfl⟩ | ⟨nan, -⟩ := (Binary64.toInt64_eq_iff holds.inside).1 hraw
        · exact ⟨holds, .whole finite (Binary64.toRat_eq_intCast_iff.2 ⟨whole.2, rfl⟩)⟩
        · rw [(Binary64.isFinite_iff.1 whole.1).1] at nan
          cases nan
      · cases hok
    · rintro ⟨holds, _ | ⟨finite, value⟩⟩
      obtain ⟨whole, truncated⟩ := Binary64.toRat_eq_intCast_iff.1 value
      rw [Binary64.isWhole, finite, Bool.true_and, if_pos (decide_eq_true whole)]
      exact held_eq_ok_iff.2
        ⟨(Binary64.toInt64_eq_iff holds.inside).2 (.inl ⟨finite, truncated⟩), holds⟩
  | bool b =>
    have refused : e.integer cls (.bool b) = .error .valueMismatch := by
      simp only [integer, plain]
      rfl
    rw [refused]
    refine iff_of_false ?_ ?_
    · rintro ⟨⟩
    · rintro ⟨-, ⟨⟩⟩
  | text s =>
    have refused : e.integer cls (.text s) = .error .valueMismatch := by
      simp only [integer, plain]
      rfl
    rw [refused]
    refine iff_of_false ?_ ?_
    · rintro ⟨⟩
    · rintro ⟨-, ⟨⟩⟩

theorem integer_scaled_eq_ok_iff {k : UInt8} (h : e.places cls = some k) :
    e.integer cls v = .ok raw ↔ cls.Holds raw ∧ (v.Raw (some k) raw ∨ v.IsNaN ∧ raw = 0) := by
  rcases number : v.number? with _ | x
  · rw [integer_no_number h number]
    refine iff_of_false (fun h => nomatch h) ?_
    rintro ⟨-, (_ | _ | ⟨hnumber, -, -⟩) | ⟨⟨x, rfl, -⟩, -⟩⟩
    · rw [number] at hnumber
      cases hnumber
    · cases number
  have nan_iff : v.IsNaN ↔ x.isNaN = true := by
    constructor
    · rintro ⟨y, rfl, nan⟩
      exact Option.some.inj number ▸ nan
    · intro nan
      cases v with
      | int i =>
        rw [← Option.some.inj number, Binary64.isNaN_ofInt] at nan
        cases nan
      | float y => exact ⟨y, rfl, Option.some.inj number ▸ nan⟩
      | bool b => cases number
      | text s => cases number
  have rounds (y : Binary64) : y.roundAway = raw ↔ RoundsTo y.toRat raw :=
    ⟨fun h => h ▸ y.rounds_roundAway, y.rounds_roundAway.unique⟩
  have raw_iff : v.Raw (some k) raw ↔ (x.mul (.tenTo k.toNat)).isFinite = true ∧
      RoundsTo (x.mul (.tenTo k.toNat)).toRat raw := by
    constructor
    · rintro (_ | _ | ⟨hnumber, finite, near⟩)
      obtain rfl := Option.some.inj (number.symm.trans hnumber)
      exact ⟨finite, near⟩
    · rintro ⟨finite, near⟩
      exact .scaled number finite near
  rw [integer_scaled h number, held_eq_ok_iff, and_comm]
  refine and_congr_right fun holds => ?_
  rw [Binary64.toInt64_eq_iff holds.inside, rounds, Binary64.isNaN_mul_tenTo k.toNat_lt, raw_iff,
    nan_iff]

/-- **What a value is written as**: its raw integer within the bounds, and zero for what is no
number where it has decimal places. -/
theorem integer_eq_ok_iff : e.integer cls v = .ok raw ↔ cls.Holds raw ∧
    (v.Raw (e.places cls) raw ∨ e.places cls ≠ none ∧ v.IsNaN ∧ raw = 0) := by
  rcases places : e.places cls with _ | k
  · rw [integer_plain_eq_ok_iff places]
    simp
  · rw [integer_scaled_eq_ok_iff places]
    simp

end Encoding

/-! ## Fields -/

theorem UInt8.toNat_ofInt (i : ℤ) : ((UInt8.ofInt i).toNat : ℤ) = i % ((2 ^ 8 : Nat) : ℤ) := by
  change (((UInt8.ofNat (i % 2 ^ 8).toNat).toNat : Nat) : ℤ) = _
  rw [UInt8.toNat_ofNat']
  omega

theorem UInt16.toNat_ofInt (i : ℤ) : ((UInt16.ofInt i).toNat : ℤ) = i % ((2 ^ 16 : Nat) : ℤ) := by
  change (((UInt16.ofNat (i % 2 ^ 16).toNat).toNat : Nat) : ℤ) = _
  rw [UInt16.toNat_ofNat']
  omega

theorem UInt32.toNat_ofInt (i : ℤ) : ((UInt32.ofInt i).toNat : ℤ) = i % ((2 ^ 32 : Nat) : ℤ) := by
  change (((UInt32.ofNat (i % 2 ^ 32).toNat).toNat : Nat) : ℤ) = _
  rw [UInt32.toNat_ofNat']
  omega

/-- A word with the low digits of an integer is that integer, if it is within the signed bounds. -/
theorem toInt_eq_of_digits {n : Nat} {w : BitVec n} {i : ℤ}
    (digits : (w.toNat : ℤ) = i % ((2 ^ n : Nat) : ℤ)) (low : -((2 ^ n : Nat) / 2 : ℤ) ≤ i)
    (high : i < ((2 ^ n : Nat) + 1) / 2) : w.toInt = i := by
  rw [BitVec.toInt_eq_toNat_bmod, digits, Int.emod_bmod, Int.bmod_eq_of_le low high]

namespace ByteOrder

theorem exists_writeWord (order : ByteOrder) (w : UInt16) :
    ∃ a b, order.writeWord w = [a, b] ∧ order.readWord a b = w := by
  cases order with
  | natural => exact ⟨_, _, rfl, wordOf_wordBytes w⟩
  | swapped => exact ⟨_, _, rfl, wordOf_wordBytes w⟩

theorem exists_writeDoubleWord (order : ByteOrder) (w : UInt32) :
    ∃ a b c d, order.writeDoubleWord w = [a, b, c, d] ∧ order.readDoubleWord a b c d = w := by
  cases order with
  | natural => exact ⟨_, _, _, _, rfl, doubleWordOf_doubleWordBytes w⟩
  | swapped => exact ⟨_, _, _, _, rfl, doubleWordOf_doubleWordBytes w⟩

end ByteOrder

namespace Encoding

variable {e : Encoding} {cls : ValueClass} {v : Value} {raw : ℤ}

/-- The bytes of an integer that the class holds are read as that integer. -/
theorem rawInteger_integerBytes (order : ByteOrder) (integer : cls.isInteger = true)
    (h : cls.Holds raw) : rawInteger order cls (integerBytes order cls raw) = .ok raw := by
  obtain ⟨low, high⟩ := h
  have below := Int.lt_add_one_of_le high
  cases cls with
  | int8 => exact congrArg Except.ok (toInt_eq_of_digits (UInt8.toNat_ofInt raw) low below)
  | uint8 =>
    exact congrArg Except.ok ((UInt8.toNat_ofInt raw).trans (Int.emod_eq_of_lt low below))
  | int16 =>
    obtain ⟨a, b, hbytes, hword⟩ := order.exists_writeWord (UInt16.ofInt raw)
    rw [integerBytes, hbytes, rawInteger, hword]
    exact congrArg Except.ok (toInt_eq_of_digits (UInt16.toNat_ofInt raw) low below)
  | uint16 =>
    obtain ⟨a, b, hbytes, hword⟩ := order.exists_writeWord (UInt16.ofInt raw)
    rw [integerBytes, hbytes, rawInteger, hword]
    exact congrArg Except.ok ((UInt16.toNat_ofInt raw).trans (Int.emod_eq_of_lt low below))
  | int32 =>
    obtain ⟨a, b, c, d, hbytes, hword⟩ := order.exists_writeDoubleWord (UInt32.ofInt raw)
    change rawInteger order .int32 (order.writeDoubleWord _) = _
    rw [hbytes, rawInteger, hword]
    exact congrArg Except.ok (toInt_eq_of_digits (UInt32.toNat_ofInt raw) low below)
  | uint32 =>
    obtain ⟨a, b, c, d, hbytes, hword⟩ := order.exists_writeDoubleWord (UInt32.ofInt raw)
    change rawInteger order .uint32 (order.writeDoubleWord _) = _
    rw [hbytes, rawInteger, hword]
    exact congrArg Except.ok ((UInt32.toNat_ofInt raw).trans (Int.emod_eq_of_lt low below))
  | _ => cases integer

theorem decode_integerBytes (e : Encoding) (integer : cls.isInteger = true) (h : cls.Holds raw) :
    e.plain.decode cls (.bytes (integerBytes e.order cls raw)) = .ok (.int raw) := by
  rw [decode_bytes integer rfl]
  exact congrArg (Except.map Value.int) (rawInteger_integerBytes e.order integer h)

theorem decode_selector (e : Encoding) (h : ValueClass.modeSet.Holds raw) :
    e.plain.decode .modeSet (.bits (BitSeq.ofFn .lsb0 4 fun i => raw.toNat.testBit i))
      = .ok (.int raw) := by
  obtain ⟨low, high⟩ := h
  change 0 ≤ raw at low
  change raw ≤ 15 at high
  have all : ∀ n : Nat, n < 16 →
      selector (BitSeq.ofFn .lsb0 4 fun i => n.testBit i) = n := by decide +kernel
  refine congrArg (Except.ok ∘ Value.int) ((all raw.toNat (by omega)).trans ?_)
  omega

/-- the field of a raw integer -/
def integerField (order : ByteOrder) (cls : ValueClass) (raw : ℤ) : Field :=
  if cls = .modeSet then .bits (BitSeq.ofFn .lsb0 4 fun i => raw.toNat.testBit i)
  else .bytes (integerBytes order cls raw)

theorem encode_eq_map (kind : cls.isInteger = true ∨ cls = .modeSet) :
    e.encode cls v = (e.integer cls v).map (integerField e.order cls) := by
  rcases kind with integer | rfl
  · have other : cls ≠ .modeSet := by
      rintro rfl
      cases integer
    rw [encode_of_isInteger integer]
    rcases e.integer cls v with fault | raw
    · rfl
    · rw [Except.map, integerField, if_neg other]
      rfl
  · change (e.integer .modeSet v >>= _) = _
    rcases e.integer .modeSet v with fault | raw <;> rfl

/-- The field of an integer that the class holds reads as that integer. -/
theorem decode_integerField (kind : cls.isInteger = true ∨ cls = .modeSet) (h : cls.Holds raw) :
    e.plain.decode cls (integerField e.order cls raw) = .ok (.int raw) := by
  rw [integerField]
  split
  · rename_i selector
    subst selector
    exact e.decode_selector h
  · rename_i other
    exact e.decode_integerBytes (kind.resolve_right other) h

theorem encode_eq_ok_iff {field : Field} (kind : cls.isInteger = true ∨ cls = .modeSet) :
    e.encode cls v = .ok field ↔
      ∃ raw, e.integer cls v = .ok raw ∧ field = integerField e.order cls raw := by
  rw [encode_eq_map kind]
  rcases e.integer cls v with fault | raw
  · refine iff_of_false (fun h => nomatch h) ?_
    rintro ⟨raw, ⟨⟩, -⟩
  · constructor
    · intro h
      exact ⟨raw, rfl, (Except.ok.inj h).symm⟩
    · rintro ⟨_, ⟨⟩, rfl⟩
      rfl

/-! ## Faithful encoding -/

/-- the value is encoded exactly if it has a raw integer that the class holds, and the field reads
as that integer -/
structure Faithful (e : Encoding) (cls : ValueClass) (v : Value) : Prop where
  encoded : ∀ raw, v.Raw (e.places cls) raw → cls.Holds raw → ∃ field, e.encode cls v = .ok field
  read : ∀ field, e.encode cls v = .ok field → ∃ raw, v.Raw (e.places cls) raw ∧
    cls.Holds raw ∧ e.plain.decode cls field = .ok (.int raw)

/-- What is no number has no raw integer. -/
theorem not_raw_of_isNaN {places : Option UInt8} (nan : v.IsNaN) : ¬v.Raw places raw := by
  obtain ⟨x, rfl, nan⟩ := nan
  rintro (_ | ⟨finite, -⟩ | ⟨number, finite, -⟩)
  · rw [(Binary64.isFinite_iff.1 finite).1] at nan
    cases nan
  · obtain rfl := Option.some.inj number
    rw [(Binary64.isFinite_iff.1 (Binary64.near_mul finite).1).1] at nan
    cases nan

/-- **A raw integer is near the number times its power of ten**, by what rounding takes and a little
for the product. -/
theorem near_of_raw {places : UInt8} {q : ℚ} (is : v.Is q) (h : v.Raw (some places) raw)
    (holds : cls.Holds raw) : |(raw : ℚ) - q * 10 ^ places.toNat| ≤ 1 / 2 + 1 / 2 ^ 16 := by
  obtain _ | _ | @⟨_, _, x, _, number, finite, rounds⟩ := h
  have stands : |x.toRat - q| ≤ |q| / 2 ^ 53 + Binary64.tiny := by
    cases is with
    | int i =>
      obtain rfl := Option.some.inj number
      exact Binary64.near_ofInt (Binary64.near_mul finite).1
    | float bounded =>
      obtain rfl := Option.some.inj number
      have := Binary64.tiny_pos
      rw [sub_self, abs_zero]
      positivity
  have small : |(x.mul (.tenTo places.toNat)).toRat| ≤ 2 ^ 32 + 1 := by
    have size : |(raw : ℚ)| ≤ 2 ^ 32 := by exact_mod_cast holds.abs_raw_le
    have off := abs_sub_abs_le_abs_sub (x.mul (.tenTo places.toNat)).toRat (raw : ℚ)
    have near := rounds.near
    rw [abs_sub_comm] at near
    linarith
  have product := Binary64.near_scaled places.toNat_lt stands finite small
  calc |(raw : ℚ) - q * 10 ^ places.toNat|
    _ ≤ |(raw : ℚ) - (x.mul (.tenTo places.toNat)).toRat|
        + |(x.mul (.tenTo places.toNat)).toRat - q * 10 ^ places.toNat| := abs_sub_le ..
    _ ≤ 1 / 2 + 1 / 2 ^ 16 := add_le_add rounds.near product

/-- **Integers are encoded faithfully or refused**, unless the value is no number and the class has
decimal places: then it is encoded as zero. Undoing decimal places multiplies binary fractions, which
is not exact, and the raw integer is as near to the exact product as is said here. -/
theorem integers_faithful_iff (e : Encoding) (kind : cls.isInteger = true ∨ cls = .modeSet)
    (v : Value) : (e.Faithful cls v ↔ ¬(e.places cls ≠ none ∧ v.IsNaN)) ∧
      (e.places cls ≠ none → v.IsNaN → ∃ field, e.encode cls v = .ok field ∧
        e.plain.decode cls field = .ok (.int 0)) ∧
      ∀ places raw q, e.places cls = some places → v.Is q → v.Raw (some places) raw →
        cls.Holds raw → |(raw : ℚ) - q * 10 ^ places.toNat| ≤ 1 / 2 + 1 / 2 ^ 16 := by
  have zero : cls.Holds 0 := by cases cls <;> exact ⟨by decide, by decide⟩
  have astray (scaled : e.places cls ≠ none) (nan : v.IsNaN) :
      ∃ field, e.encode cls v = .ok field ∧ e.plain.decode cls field = .ok (.int 0) :=
    ⟨_, (encode_eq_ok_iff kind).2 ⟨0, integer_eq_ok_iff.2 ⟨zero, .inr ⟨scaled, nan, rfl⟩⟩, rfl⟩,
      decode_integerField kind zero⟩
  refine ⟨⟨fun faithful => ?_, fun number => ⟨fun raw hraw holds => ?_, fun field h => ?_⟩⟩, astray,
    fun places raw q _ is hraw holds => near_of_raw is hraw holds⟩
  · rintro ⟨scaled, nan⟩
    obtain ⟨field, hfield, -⟩ := astray scaled nan
    obtain ⟨raw, hraw, -⟩ := faithful.read field hfield
    exact not_raw_of_isNaN nan hraw
  · exact ⟨_, (encode_eq_ok_iff kind).2 ⟨raw, integer_eq_ok_iff.2 ⟨holds, .inl hraw⟩, rfl⟩⟩
  · obtain ⟨raw, hinteger, rfl⟩ := (encode_eq_ok_iff kind).1 h
    obtain ⟨holds, hraw | ⟨scaled, nan, -⟩⟩ := integer_eq_ok_iff.1 hinteger
    · exact ⟨raw, hraw, holds, decode_integerField kind holds⟩
    · exact absurd ⟨scaled, nan⟩ number

end Encoding

/-! ### A thermometer

Tenths of a degree in one register. -/

namespace Thermometer

def tenths : Encoding := { scale := some 1 }

/-- 21.5 degrees -/
def mild : Value := .float ⟨0x4035800000000000⟩

/-- a sensor that measures nothing -/
def loose : Value := .float ⟨0x7FF8000000000000⟩

/-- A mild day is 215 tenths of a degree. What is no number is written like freezing point. -/
theorem loose_sensor_is_freezing :
    (tenths.Faithful .int16 mild ∧ tenths.encode .int16 mild = .ok (.bytes [0, 215]) ∧
      ∀ q, mild.Is q → |(215 : ℤ) - q * 10 ^ 1| ≤ 1 / 2 + 1 / 2 ^ 16) ∧
    ¬tenths.Faithful .int16 loose ∧ tenths.encode .int16 loose = .ok (.bytes [0, 0]) ∧
      tenths.plain.decode .int16 (.bytes [0, 0]) = .ok (.int 0) := by
  have kind : ValueClass.int16.isInteger = true ∨ ValueClass.int16 = .modeSet := .inl rfl
  have scaled : tenths.places .int16 ≠ none := by decide
  obtain ⟨mild_iff, -, near⟩ := tenths.integers_faithful_iff kind mild
  obtain ⟨loose_iff, astray, -⟩ := tenths.integers_faithful_iff kind loose
  have number : ¬mild.IsNaN := by
    rintro ⟨x, hx, nan⟩
    obtain rfl := Value.float.inj hx
    revert nan
    decide
  have raw : tenths.integer .int16 mild = .ok 215 := by
    rw [Encoding.integer_scaled rfl rfl, Encoding.held_eq_ok_iff]
    exact ⟨by decide +kernel, by decide, by decide⟩
  obtain ⟨holds, hraw | ⟨-, nan, -⟩⟩ := Encoding.integer_eq_ok_iff.1 raw
  · have nan : loose.IsNaN := ⟨_, rfl, by decide⟩
    obtain ⟨field, hfield, hread⟩ := astray scaled nan
    have zero : tenths.encode .int16 loose = .ok (.bytes [0, 0]) := rfl
    obtain rfl := Except.ok.inj (zero.symm.trans hfield)
    exact ⟨⟨mild_iff.2 fun h => number h.2, (Encoding.encode_eq_ok_iff kind).2 ⟨215, raw, rfl⟩,
      fun q is => near 1 215 q rfl is hraw holds⟩,
      fun faithful => loose_iff.1 faithful ⟨scaled, nan⟩, zero, hread⟩
  · exact absurd nan number

end Thermometer

end BusMaster
