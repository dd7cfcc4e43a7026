import Mathlib.Algebra.Order.Field.Basic
import Mathlib.Data.Nat.Cast.Field
import Mathlib.Data.Nat.Cast.Order.Field
import Mathlib.Data.Rat.Cast.Order
import Mathlib.Tactic.FieldSimp
import Mathlib.Tactic.Linarith
import Mathlib.Tactic.NormNum
import Mathlib.Tactic.Positivity
import Mathlib.Tactic.Ring
import BusMaster.Proofs.Number.Binary

/-!
# What rounding does to a value

A finite number has an exact value (`Binary64.toRat`), and what arithmetic and rounding make of it is
said of these values. Two kinds of rounding come together. A quotient is rounded to the nearest
number of the format: the bits of a magnitude are its steps on a grid that gets coarser by the
exponent (`Format.magnitude_steps`), so the error is half a step of the grid, and that is a small
part of the value unless the value is among the smallest (`Format.magnitude_nearest`). A number is
rounded to a whole one, of two as near to the one further from zero (`Binary64.rounds_roundAway`).
-/

namespace BusMaster

/-- the whole number is nearest to `q`, and of two as near it is the one further from zero -/
structure RoundsTo (q : ℚ) (n : ℤ) : Prop where
  near : |(n : ℚ) - q| ≤ 1 / 2
  away : |(n : ℚ) - q| = 1 / 2 → |q| < |(n : ℚ)|

/-- There is one such whole number. -/
theorem RoundsTo.unique {q : ℚ} {n m : ℤ} (hn : RoundsTo q n) (hm : RoundsTo q m) : n = m := by
  by_contra ne
  wlog less : n < m generalizing n m
  · exact this hm hn (Ne.symm ne) (lt_of_le_of_ne (not_lt.1 less) (Ne.symm ne))
  -- the two are on both sides of the middle between them, and one of the two is nearer to zero
  have step : (n : ℚ) + 1 ≤ m := by exact_mod_cast less
  obtain ⟨-, highn⟩ := abs_le.1 hn.near
  obtain ⟨lowm, -⟩ := abs_le.1 hm.near
  obtain ⟨lown, -⟩ := abs_le.1 hn.near
  obtain ⟨-, highm⟩ := abs_le.1 hm.near
  have middle : q = n + 1 / 2 := by linarith
  have next : (m : ℚ) = n + 1 := by linarith
  have below := hn.away (by rw [middle, abs_of_nonpos (by linarith)]; ring)
  have above := hm.away (by rw [middle, next, abs_of_nonneg (by linarith)]; ring)
  rcases le_or_gt 0 n with positive | negative
  · have : (0 : ℚ) ≤ n := by exact_mod_cast positive
    rw [middle, abs_of_nonneg (by linarith), abs_of_nonneg this] at below
    linarith
  · have : (n : ℚ) + 1 ≤ 0 := by exact_mod_cast negative
    rw [middle, next, abs_of_nonpos (by linarith), abs_of_nonpos this] at above
    linarith

namespace Format

theorem roundEven_near (num : Nat) {den : Nat} (pos : 0 < den) :
    |(roundEven num den : ℚ) - num / den| ≤ 1 / 2 := by
  have hden : (0 : ℚ) < den := by exact_mod_cast pos
  have quotient : (num : ℚ) / den = (num / den : ℕ) + (num % den : ℕ) / den := by
    rw [eq_comm, eq_div_iff hden.ne', add_mul, div_mul_cancel₀ _ hden.ne']
    exact_mod_cast Nat.div_add_mod' num den
  have low : ((num % den : ℕ) : ℚ) / den ≤ 1 / 2 ↔ 2 * (num % den) ≤ den := by
    rw [div_le_div_iff₀ hden two_pos]
    norm_cast
    omega
  have high : 1 / 2 ≤ ((num % den : ℕ) : ℚ) / den ↔ den ≤ 2 * (num % den) := by
    rw [div_le_div_iff₀ two_pos hden]
    norm_cast
    omega
  have positive : (0 : ℚ) ≤ (num % den : ℕ) / den := by positivity
  have below : ((num % den : ℕ) : ℚ) / den ≤ 1 := by
    rw [div_le_one hden]
    exact_mod_cast (Nat.mod_lt num pos).le
  rw [quotient, roundEven, abs_le]
  split
  · have := low.2 (by omega)
    constructor <;> linarith
  split
  · have := high.2 (by omega)
    push_cast
    constructor <;> linarith
  have half := low.2 (by omega)
  have half' := high.2 (by omega)
  split
  · constructor <;> linarith
  · push_cast
    constructor <;> linarith

/-- **The bits of a magnitude are its steps**: so many of the grid of its exponent, be it that they
reach the next exponent. -/
theorem magnitude_steps (f : Format) {shift steps : Nat} (most : steps ≤ 2 ^ (f.fractionBits + 1))
    (least : shift = 0 ∨ 2 ^ f.fractionBits ≤ steps) :
    f.magnitude (shift <<< f.fractionBits + steps) = steps * 2 ^ shift := by
  rw [magnitude, Nat.shiftRight_eq_div_pow, Nat.one_shiftLeft, Nat.shiftLeft_eq]
  rw [Nat.pow_succ] at most
  have positive : 0 < 2 ^ f.fractionBits := Nat.two_pow_pos _
  generalize 2 ^ f.fractionBits = B at *
  rcases Nat.lt_or_ge steps B with small | large
  · obtain rfl : shift = 0 := least.resolve_right (Nat.not_le.2 small)
    rw [Nat.zero_mul, Nat.zero_add, Nat.div_eq_of_lt small, Nat.mod_eq_of_lt small, Nat.pow_zero,
      Nat.mul_one]
    rfl
  obtain ⟨rest, rfl⟩ := Nat.exists_eq_add_of_le large
  have split : shift * B + (B + rest) = rest + B * (shift + 1) := by ring
  rcases Nat.lt_or_ge rest B with inside | outside
  · rw [split, Nat.add_mul_div_left _ _ positive, Nat.add_mul_mod_self_left,
      Nat.div_eq_of_lt inside, Nat.mod_eq_of_lt inside, Nat.zero_add, if_neg (Nat.succ_ne_zero _),
      Nat.shiftLeft_eq, Nat.add_sub_cancel]
  · obtain rfl : rest = B := by omega
    have next : shift * rest + (rest + rest) = rest * (shift + 2) := by ring
    rw [next, Nat.mul_div_cancel_left _ positive, Nat.mul_mod_right, if_neg (Nat.succ_ne_zero _),
      Nat.shiftLeft_eq, Nat.add_zero, show shift + 2 - 1 = shift + 1 from rfl, Nat.pow_succ]
    ring

/-- **The nearest magnitude is off by half a step.** -/
theorem magnitude_nearest (f : Format) (num : Nat) {den : Nat} (pos : 0 < den)
    (finite : f.nearest num den < f.infinity) :
    |(f.magnitude (f.nearest num den) : ℚ) - num / den|
      ≤ num / den / 2 ^ (f.fractionBits + 1) + 1 / 2 := by
  obtain ⟨shift, hshift⟩ : ∃ shift, shift = Nat.log2 (num / den) - f.fractionBits := ⟨_, rfl⟩
  have digits : num / (den * 2 ^ shift) < 2 ^ (f.fractionBits + 1) := by
    rw [← Nat.div_div_eq_div_mul, Nat.div_lt_iff_lt_mul (Nat.two_pow_pos _), ← Nat.pow_add]
    exact Nat.lt_of_lt_of_le Nat.lt_log2_self (Nat.pow_le_pow_right two_pos (by omega))
  have normal : shift = 0 ∨ 2 ^ f.fractionBits * 2 ^ shift ≤ num / den := by
    rcases Nat.eq_zero_or_pos shift with zero | coarse
    · exact .inl zero
    · refine .inr ?_
      have value : num / den ≠ 0 := by
        intro zero
        rw [zero, Nat.log2_zero] at hshift
        omega
      rw [← Nat.pow_add, show f.fractionBits + shift = Nat.log2 (num / den) by omega]
      exact Nat.log2_self_le value
  have least : shift = 0 ∨ 2 ^ f.fractionBits ≤ roundEven num (den * 2 ^ shift) := by
    refine normal.imp_right fun large => ?_
    refine Nat.le_trans ?_ (Binary64.le_roundEven _ _)
    rwa [← Nat.div_div_eq_div_mul, Nat.le_div_iff_mul_le (Nat.two_pow_pos _)]
  have most : roundEven num (den * 2 ^ shift) ≤ 2 ^ (f.fractionBits + 1) :=
    Nat.le_trans (Binary64.roundEven_le _ _) digits
  have bits : f.nearest num den
      = shift <<< f.fractionBits + roundEven num (den * 2 ^ shift) := by
    rw [nearest] at finite ⊢
    rw [← hshift, Nat.shiftLeft_eq den] at finite ⊢
    omega
  have rounded := roundEven_near num (Nat.mul_pos pos (Nat.two_pow_pos shift))
  have grid : (0 : ℚ) < 2 ^ shift := by positivity
  have half : (2 : ℚ) ^ shift / 2 ≤ num / den / 2 ^ (f.fractionBits + 1) + 1 / 2 := by
    have positive : (0 : ℚ) ≤ num / den / 2 ^ (f.fractionBits + 1) := by positivity
    rcases normal with rfl | large
    · rw [pow_zero]
      linarith
    · have quotient : ((2 ^ f.fractionBits * 2 ^ shift : ℕ) : ℚ) ≤ num / den :=
        (Nat.cast_le.2 large).trans Nat.cast_div_le
      have part : (2 : ℚ) ^ shift / 2 ≤ num / den / 2 ^ (f.fractionBits + 1) := by
        rw [le_div_iff₀ (by positivity)]
        push_cast at quotient
        calc (2 : ℚ) ^ shift / 2 * 2 ^ (f.fractionBits + 1)
          _ = 2 ^ f.fractionBits * 2 ^ shift := by ring
          _ ≤ num / den := quotient
      linarith
  rw [bits, magnitude_steps f most least]
  push_cast at rounded ⊢
  have scaled : |(roundEven num (den * 2 ^ shift) : ℚ) * 2 ^ shift - num / den|
      = |(roundEven num (den * 2 ^ shift) : ℚ) - num / (den * 2 ^ shift)| * 2 ^ shift := by
    rw [← abs_of_pos grid, ← abs_mul, abs_of_pos grid, sub_mul]
    congr 2
    field_simp
  rw [scaled]
  calc |(roundEven num (den * 2 ^ shift) : ℚ) - num / (den * 2 ^ shift)| * 2 ^ shift
    _ ≤ 1 / 2 * 2 ^ shift := mul_le_mul_of_nonneg_right rounded grid.le
    _ = 2 ^ shift / 2 := by ring
    _ ≤ _ := half

end Format

namespace Binary64

variable {x y : Binary64} {negative : Bool} {n : Nat}

/-! ## Values -/

/-- the factor of a sign -/
def sign (negative : Bool) : ℚ := if negative then -1 else 1

/-- the value of a finite number -/
def toRat (x : Binary64) : ℚ := sign x.negative * (x.magnitude / Format.binary64.one)

/-- half of the smallest unit -/
def tiny : ℚ := 1 / 2 / Format.binary64.one

theorem one_pos : 0 < Format.binary64.one := by
  rw [Format.one, Nat.one_shiftLeft]
  exact Nat.two_pow_pos _

theorem cast_one_pos : (0 : ℚ) < Format.binary64.one := Nat.cast_pos.2 one_pos

theorem abs_sign_mul (negative : Bool) (q : ℚ) : |sign negative * q| = |q| := by
  cases negative
  · rw [sign, if_neg Bool.false_ne_true, one_mul]
  · rw [sign, if_pos rfl, neg_one_mul, abs_neg]

theorem sign_mul_sign (a b : Bool) : sign a * sign b = sign (a != b) := by
  cases a <;> cases b <;> norm_num [sign]

theorem abs_toRat (x : Binary64) : |x.toRat| = x.magnitude / Format.binary64.one := by
  rw [toRat, abs_sign_mul, abs_of_nonneg (by positivity)]

theorem cast_signed (x : Binary64) (n : Nat) : ((x.signed n : ℤ) : ℚ) = sign x.negative * n := by
  rw [signed, sign]
  split
  · push_cast
    ring
  · push_cast
    ring

/-! ## Whole numbers -/

/-- **The nearest whole number to a number**, and of two as near the one further from zero. -/
theorem rounds_roundAway (x : Binary64) : RoundsTo x.toRat x.roundAway := by
  have positive := one_pos
  have hone := cast_one_pos
  obtain ⟨r, hr⟩ : ∃ r, r = (2 * x.magnitude + Format.binary64.one) / (2 * Format.binary64.one) :=
    ⟨_, rfl⟩
  have most : 2 * Format.binary64.one * r ≤ 2 * x.magnitude + Format.binary64.one :=
    hr ▸ Nat.mul_div_le _ _
  have least : 2 * x.magnitude + Format.binary64.one < 2 * Format.binary64.one * (r + 1) :=
    hr ▸ Nat.lt_mul_div_succ _ (by omega)
  -- a tie is off upwards only
  have above : (r : ℚ) - x.magnitude / Format.binary64.one ≤ 1 / 2 := by
    rw [sub_le_iff_le_add, div_add_div _ _ two_ne_zero hone.ne', le_div_iff₀ (by positivity)]
    have cast : (2 * Format.binary64.one * r : ℚ) ≤ 2 * x.magnitude + Format.binary64.one := by
      exact_mod_cast most
    linarith
  have below : (x.magnitude : ℚ) / Format.binary64.one - r < 1 / 2 := by
    rw [sub_lt_iff_lt_add, div_add' _ _ _ two_ne_zero, div_lt_div_iff₀ hone two_pos]
    have cast : (2 * x.magnitude + Format.binary64.one : ℚ)
        < 2 * Format.binary64.one * (r + 1) := by
      exact_mod_cast least
    linarith
  have off : |((x.signed r : ℤ) : ℚ) - x.toRat| = |(r : ℚ) - x.magnitude / Format.binary64.one| := by
    rw [cast_signed, toRat, ← mul_sub, abs_sign_mul]
  rw [roundAway, ← hr]
  refine ⟨?_, fun tie => ?_⟩
  · rw [off, abs_le]
    constructor <;> linarith
  · have upwards : (r : ℚ) - x.magnitude / Format.binary64.one = 1 / 2 := by
      rw [off, abs_eq (by norm_num)] at tie
      exact tie.resolve_right (by linarith)
    rw [abs_toRat, cast_signed, abs_sign_mul, abs_of_nonneg (Nat.cast_nonneg r)]
    linarith

/-- A value is a whole number exactly if it has no fractional part, and then it is its whole part. -/
theorem toRat_eq_intCast_iff {i : ℤ} : x.toRat = i ↔
    x.magnitude % Format.binary64.one = 0 ∧ x.truncate = i := by
  have hone := cast_one_pos
  have value (dvd : Format.binary64.one ∣ x.magnitude) : x.toRat = x.truncate := by
    rw [toRat, truncate, cast_signed, Nat.cast_div dvd hone.ne']
  constructor
  · intro h
    have size : (x.magnitude : ℚ) = i.natAbs * Format.binary64.one := by
      have := congrArg abs h
      rw [abs_toRat, div_eq_iff hone.ne', ← Int.cast_abs, Int.abs_eq_natAbs] at this
      exact_mod_cast this
    have dvd : Format.binary64.one ∣ x.magnitude := ⟨i.natAbs, by
      rw [Nat.mul_comm]
      exact_mod_cast size⟩
    refine ⟨Nat.mod_eq_zero_of_dvd dvd, ?_⟩
    rw [value dvd] at h
    exact_mod_cast h
  · rintro ⟨dvd, rfl⟩
    exact value (Nat.dvd_of_mod_eq_zero dvd)

/-! ## Results of arithmetic -/

theorem negative_assemble (h : n < 2 ^ 63) : (assemble negative n).negative = negative := by
  have top : 1 <<< 63 = 2 ^ 63 := rfl
  rw [Binary64.negative, assemble, UInt64.toNat_ofNat', top]
  cases negative
  · rw [if_neg Bool.false_ne_true, decide_eq_false_iff_not]
    omega
  · rw [if_pos rfl, decide_eq_true_eq]
    omega

theorem toRat_assemble (h : n < 2 ^ 63) : (assemble negative n).toRat
    = sign negative * (Format.binary64.magnitude n / Format.binary64.one) := by
  rw [toRat, negative_assemble h, magnitude, unsigned_assemble h]

theorem isFinite_assemble (h : n ≤ Format.binary64.infinity) :
    (assemble negative n).isFinite = true ↔ n < Format.binary64.infinity := by
  have bound : Format.binary64.infinity < 2 ^ 63 := by decide
  rw [isFinite, unsigned_assemble (Nat.lt_of_le_of_lt h bound), decide_eq_true_eq]

/-- **A quotient is rounded to a value near it.** -/
theorem near_nearest (negative : Bool) (num : Nat) {den : Nat} (pos : 0 < den)
    (finite : (assemble negative (Format.binary64.nearest num den)).isFinite = true) :
    |(assemble negative (Format.binary64.nearest num den)).toRat
        - sign negative * (num / den / Format.binary64.one)|
      ≤ num / den / Format.binary64.one / 2 ^ 53 + tiny := by
  have hone := cast_one_pos
  have below := (isFinite_assemble (nearest_le_infinity ..)).1 finite
  have bound : Format.binary64.infinity < 2 ^ 63 := by decide
  have rounded := Format.magnitude_nearest .binary64 num pos below
  rw [toRat_assemble (below.trans bound), ← mul_sub, abs_sign_mul, ← sub_div, abs_div,
    abs_of_pos hone, tiny]
  calc _ ≤ ((num : ℚ) / den / 2 ^ 53 + 1 / 2) / Format.binary64.one :=
        div_le_div_of_nonneg_right rounded hone.le
    _ = _ := by ring

theorem isFinite_of_not (nan : x.isNaN = false) (infinite : x.isInfinite = false) :
    x.isFinite = true := by
  rw [isNaN, decide_eq_false_iff_not] at nan
  rw [isInfinite, decide_eq_false_iff_not] at infinite
  rw [isFinite, decide_eq_true_eq]
  omega

/-- A product is finite only if both factors are, and then it is near to the exact one. -/
theorem near_mul (finite : (x.mul y).isFinite = true) : x.isFinite = true ∧ y.isFinite = true ∧
    |(x.mul y).toRat - x.toRat * y.toRat| ≤ |x.toRat * y.toRat| / 2 ^ 53 + tiny := by
  have unbounded (negative : Bool) : (infinite negative).isFinite = false := by
    cases negative <;> decide
  have number : nan.isFinite = false := by decide
  rw [mul] at finite ⊢
  split at finite
  · rw [number] at finite
    cases finite
  rename_i numbers
  split at finite
  · split at finite
    · rw [number] at finite
      cases finite
    · rw [unbounded] at finite
      cases finite
  rename_i bounded
  rw [if_neg numbers, if_neg bounded]
  rw [Bool.not_eq_true, Bool.or_eq_false_iff] at numbers bounded
  refine ⟨isFinite_of_not numbers.1 bounded.1, isFinite_of_not numbers.2 bounded.2, ?_⟩
  have size : |x.toRat * y.toRat|
      = (x.magnitude * y.magnitude : ℕ) / Format.binary64.one / Format.binary64.one := by
    rw [abs_mul, abs_toRat, abs_toRat]
    push_cast
    ring
  have product : x.toRat * y.toRat = sign (x.negative != y.negative)
      * ((x.magnitude * y.magnitude : ℕ) / Format.binary64.one / Format.binary64.one) := by
    rw [toRat, toRat, ← sign_mul_sign]
    push_cast
    ring
  rw [size, product]
  exact near_nearest _ _ one_pos finite

theorem near_ofQuotient {num den : Nat} (pos : 0 < den)
    (finite : (ofQuotient negative num den).isFinite = true) :
    |(ofQuotient negative num den).toRat - sign negative * (num / den)|
      ≤ num / den / 2 ^ 53 + tiny := by
  have near := near_nearest negative _ pos finite
  have value : ((num * Format.binary64.one : ℕ) : ℚ) / den / Format.binary64.one = num / den := by
    have := cast_one_pos.ne'
    push_cast
    field_simp
  rwa [value] at near

theorem near_ofInt {i : ℤ} (finite : (ofInt i).isFinite = true) :
    |(ofInt i).toRat - i| ≤ |(i : ℚ)| / 2 ^ 53 + tiny := by
  have near := near_ofQuotient Nat.one_pos finite
  have size : |(i : ℚ)| = (i.natAbs : ℕ) / (1 : ℕ) := by
    rw [Nat.cast_one, div_one, Nat.cast_natAbs, Int.cast_abs]
  have value : (i : ℚ) = sign (decide (i < 0)) * (i.natAbs / (1 : ℕ)) := by
    rw [← size, sign]
    by_cases negative : i < 0
    · rw [decide_eq_true negative, if_pos rfl, abs_of_neg (by exact_mod_cast negative)]
      ring
    · rw [decide_eq_false negative, if_neg Bool.false_ne_true, one_mul,
        abs_of_nonneg (by exact_mod_cast not_lt.1 negative)]
  rwa [← value, ← size] at near

end Binary64

end BusMaster
