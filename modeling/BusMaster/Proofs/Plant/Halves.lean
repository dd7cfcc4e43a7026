import BusMaster.Proofs.Plant.Placement

/-!
# The halves of a register

A byte shares its register with another one, and goes onto the wire with it. What the catalog writes
beside a byte is what the payload that it keeps has there, and zero where it keeps none
(`Catalog.mergeByte_of_holds`).
-/

namespace BusMaster

/-- the byte of a register that holds the bits from `i` on: the low byte comes first -/
def byteAt (w : UInt16) (i : Nat) : UInt8 := if i % 16 = 0 then w.toUInt8 else (w >>> 8).toUInt8

theorem byteAt_wordOf (hi lo : UInt8) (i : Nat) :
    byteAt (wordOf hi lo) i = if i % 16 = 0 then lo else hi := by
  have halves : [((wordOf hi lo) >>> 8).toUInt8, (wordOf hi lo).toUInt8] = [hi, lo] :=
    wordBytes_wordOf hi lo
  obtain ⟨high, low⟩ := List.cons.inj halves
  rw [byteAt, high, List.head_eq_of_cons_eq low]

/-- The digits of a half are eight of the register's. -/
theorem testBit_byteAt (w : UInt16) {i : Nat} (aligned : i % 16 = 0 ∨ i % 16 = 8) {k : Nat}
    (hk : k < 8) : (byteAt w i).toNat.testBit k = w.toNat.testBit (i % 16 + k) := by
  rcases aligned with low | high
  · rw [byteAt, if_pos low, testBit_toUInt8 _ hk, low, Nat.zero_add]
  · rw [byteAt, if_neg (by omega), testBit_shiftRight_toUInt8 _ hk, high]

/-- A register is known by its two halves. -/
theorem eq_of_byteAt_eq {v w : UInt16} {i : Nat} (aligned : i % 16 = 0 ∨ i % 16 = 8)
    (here : byteAt v i = byteAt w i) (beside : byteAt v (i + 8) = byteAt w (i + 8)) : v = w := by
  have halves : v.toUInt8 = w.toUInt8 ∧ (v >>> 8).toUInt8 = (w >>> 8).toUInt8 := by
    rcases aligned with low | high
    · have next : (i + 8) % 16 ≠ 0 := by omega
      simp only [byteAt, low, next, if_true, if_false] at here beside
      exact ⟨here, beside⟩
    · have next : (i + 8) % 16 = 0 := by omega
      have this : i % 16 ≠ 0 := by omega
      simp only [byteAt, this, next, if_true, if_false] at here beside
      exact ⟨beside, here⟩
  rw [← wordOf_wordBytes v, ← wordOf_wordBytes w, halves.1, halves.2]

namespace Catalog

/-- what the register at a bit position held by a payload, zero where there is none -/
inductive Holds (i : Nat) : Option Payload → UInt16 → Prop
  | unread : Holds i none 0
  | read {us : List UInt16} {w : UInt16} :
      us[i / 16]? = some w → Holds i (some (.registers (wordsBytes us))) w

theorem mergeByte_eq_of_holds {cache : Option Payload} {i : Nat} {w : UInt16}
    (h : Holds i cache w) (b : UInt8) :
    mergeByte cache i b = if i % 16 = 0 then [(w >>> 8).toUInt8, b] else [b, w.toUInt8] := by
  have first : bytePosition i = 2 * (i / 16) ↔ i % 16 ≠ 0 := by
    rw [bytePosition]
    split <;> omega
  cases h with
  | unread =>
    simp only [mergeByte, first, ne_eq, ite_not]
    rfl
  | @read us w hw =>
    have hslice : Channel.slice (wordsBytes us) (2 * (i / 16)) 2
        = [(w >>> 8).toUInt8, w.toUInt8] := by
      have hword : (us.drop (i / 16)).take [w].length = [w] := by
        refine take_drop_eq_iff.2 fun k hk => ?_
        obtain rfl : k = 0 := Nat.lt_one_iff.1 hk
        exact hw
      have whole := slice_wordsBytes us (i / 16) [w].length
      rw [hword] at whole
      exact whole
    simp only [mergeByte, hslice, first, ne_eq, ite_not]

/-- Beside a byte is written what its register held. -/
theorem mergeByte_of_holds {cache : Option Payload} {i : Nat} {w : UInt16} (h : Holds i cache w)
    (aligned : i % 16 = 0 ∨ i % 16 = 8) (b : UInt8) :
    ∃ w', mergeByte cache i b = wordsBytes [w'] ∧ byteAt w' i = b ∧
      byteAt w' (i + 8) = byteAt w (i + 8) := by
  have bytes (hi lo : UInt8) : [hi, lo] = wordsBytes [wordOf hi lo] := (wordBytes_wordOf hi lo).symm
  rw [mergeByte_eq_of_holds h]
  rcases aligned with low | high
  · have next : (i + 8) % 16 ≠ 0 := by omega
    refine ⟨wordOf (w >>> 8).toUInt8 b, ?_, ?_, ?_⟩
    · rw [if_pos low, bytes]
    · rw [byteAt_wordOf, if_pos low]
    · rw [byteAt_wordOf, byteAt, if_neg next, if_neg next]
  · have next : (i + 8) % 16 = 0 := by omega
    have this : i % 16 ≠ 0 := by omega
    refine ⟨wordOf b w.toUInt8, ?_, ?_, ?_⟩
    · rw [if_neg this, bytes]
    · rw [byteAt_wordOf, if_neg this]
    · rw [byteAt_wordOf, byteAt, if_pos next, if_pos next]

end Catalog

end BusMaster
