import BusMaster.Query.Extended

/-!
# Addressing

What it means that an address was accepted. A sum of two words is taken only when it is a word
again (`addAddress_eq_ok`), a standard range only when its last address exists too
(`AddressRange.validate_eq_ok`), and a run of bits of the extended protocol is covered by the
registers from its first bit on (`BitSpan.cover_eq_ok`).

And what it means that one was refused. Counts are looked at first, so a range whose count is
allowed is refused for its addresses only: a standard one because its last address does not exist
(`AddressRange.validate_eq_error`), a run of bits because its first register does not
(`BitSpan.cover_eq_error`).
-/

namespace BusMaster

theorem addAddress_eq_ok {a b w : UInt16} (h : addAddress a b = .ok w) :
    w.toNat = a.toNat + b.toNat := by
  rw [addAddress] at h
  split at h
  · rename_i fits
    cases h
    rw [UInt16.toNat_add, Nat.mod_eq_of_lt fits]
  · cases h

theorem addAddress_eq_error {a b : UInt16} {fault : ConfigFault} (h : addAddress a b = .error fault) :
    fault = .addressOverflow ∧ UInt16.size ≤ a.toNat + b.toNat := by
  rw [addAddress] at h
  split at h
  · cases h
  · rename_i long
    exact ⟨(Except.error.inj h).symm, Nat.le_of_not_lt long⟩

theorem checkCount_eq_ok {count max : UInt16} (h : checkCount count max = .ok ()) :
    0 < count.toNat ∧ count.toNat ≤ max.toNat := by
  rw [checkCount] at h
  split at h
  · cases h
  rename_i hzero
  split at h
  · cases h
  rename_i hmax
  refine ⟨Nat.pos_of_ne_zero fun hcount => hzero (UInt16.toNat_inj.1 hcount), ?_⟩
  exact Nat.le_of_not_lt fun hlt => hmax (UInt16.lt_iff_toNat_lt.2 hlt)

theorem checkCount_eq_error {count max : UInt16} {fault : ConfigFault}
    (h : checkCount count max = .error fault) :
    count.toNat = 0 ∨ max.toNat < count.toNat := by
  rw [checkCount] at h
  split at h
  · rename_i hzero
    rw [hzero]
    exact .inl rfl
  · split at h
    · rename_i hmax
      exact .inr (UInt16.lt_iff_toNat_lt.1 hmax)
    · cases h

/-- Inversion for `ofConfig`. -/
theorem ofConfig_eq_ok {α : Type} {x : Except ConfigFault α} {a : α} (h : ofConfig x = .ok a) :
    x = .ok a := by
  cases x with
  | ok b => exact congrArg Except.ok (Except.ok.inj h)
  | error fault => cases h

/-- Inversion for the sequencing of fallible computations. -/
theorem bind_eq_ok {ε α β : Type} {x : Except ε α} {f : α → Except ε β} {b : β}
    (h : (x >>= f) = .ok b) : ∃ a, x = .ok a ∧ f a = .ok b := by
  cases x with
  | ok a => exact ⟨a, rfl, h⟩
  | error fault => cases h

/-- Inversion for the sequencing of fallible computations that fails. -/
theorem bind_eq_error {ε α β : Type} {x : Except ε α} {f : α → Except ε β} {e : ε}
    (h : (x >>= f) = .error e) : x = .error e ∨ ∃ a, x = .ok a ∧ f a = .error e := by
  cases x with
  | ok a => exact .inr ⟨a, rfl, h⟩
  | error fault => exact .inl (congrArg Except.error (Except.error.inj h))

namespace AddressRange

theorem start_eq_ok {r : AddressRange} {w : UInt16} (h : r.start = .ok w) :
    w.toNat = r.address.toNat + r.offset.toNat := addAddress_eq_ok h

/-- A valid range starts at its address plus its offset, and its last address exists. -/
theorem validate_eq_ok {r : AddressRange} {max w : UInt16} (h : r.validate max = .ok w) :
    w.toNat = r.address.toNat + r.offset.toNat ∧ 0 < r.count.toNat ∧
      r.count.toNat ≤ max.toNat ∧ w.toNat + r.count.toNat ≤ UInt16.size := by
  obtain ⟨⟨⟩, hcount, h⟩ := bind_eq_ok h
  obtain ⟨start, hstart, h⟩ := bind_eq_ok h
  obtain ⟨hpos, hmax⟩ := checkCount_eq_ok hcount
  split at h
  · rename_i fits
    cases h
    exact ⟨start_eq_ok hstart, hpos, hmax, fits⟩
  · cases h

theorem start_eq_error {r : AddressRange} {fault : ConfigFault} (h : r.start = .error fault) :
    fault = .addressOverflow ∧ UInt16.size ≤ r.address.toNat + r.offset.toNat :=
  addAddress_eq_error h

/-- A range with an allowed count is refused when its last address does not exist. -/
theorem validate_eq_error {r : AddressRange} {max : UInt16} {fault : ConfigFault}
    (h : r.validate max = .error fault) (pos : 0 < r.count.toNat)
    (few : r.count.toNat ≤ max.toNat) :
    fault = .addressOverflow ∧
      UInt16.size < r.address.toNat + r.offset.toNat + r.count.toNat := by
  rcases bind_eq_error h with hcount | ⟨⟨⟩, -, h⟩
  · rcases checkCount_eq_error hcount with hzero | hmax <;> omega
  rcases bind_eq_error h with hstart | ⟨start, hstart, h⟩
  · obtain ⟨hfault, hsum⟩ := start_eq_error hstart
    exact ⟨hfault, by omega⟩
  have hsum := start_eq_ok hstart
  split at h
  · cases h
  · rename_i long
    exact ⟨(Except.error.inj h).symm, by omega⟩

end AddressRange

namespace PackedAddress

/-- The parts of a word give the word back. -/
theorem toNat_ofWord (w : UInt16) :
    8192 * (ofWord w).page.toNat + 128 * (ofWord w).category.toNat + (ofWord w).index.toNat
      = w.toNat := by
  have hw := w.toNat_lt
  have hpage : (ofWord w).page.toNat = w.toNat / 8192 := by
    simp only [ofWord, UInt16.toNat_toUInt8, UInt16.toNat_shiftRight, UInt16.toNat_ofNat]
    rw [show 13 % 2 ^ 16 % 16 = 13 by decide, Nat.shiftRight_eq_div_pow]
    omega
  have hcategory : (ofWord w).category.toNat = w.toNat / 128 % 64 := by
    simp only [ofWord, UInt16.toNat_toUInt8, UInt16.toNat_and, UInt16.toNat_shiftRight,
      UInt16.toNat_ofNat]
    rw [show 7 % 2 ^ 16 % 16 = 7 by decide, Nat.shiftRight_eq_div_pow,
      show 63 % 2 ^ 16 = 2 ^ 6 - 1 by decide, Nat.and_two_pow_sub_one_eq_mod]
    omega
  have hindex : (ofWord w).index.toNat = w.toNat % 128 := by
    simp only [ofWord, UInt16.toNat_toUInt8, UInt16.toNat_and, UInt16.toNat_ofNat]
    rw [show 127 % 2 ^ 16 = 2 ^ 7 - 1 by decide, Nat.and_two_pow_sub_one_eq_mod]
    omega
  rw [hpage, hcategory, hindex]
  omega

end PackedAddress

namespace BitSpan

/-- The registers that cover a run of bits start at the one that holds its first bit. -/
theorem cover_eq_ok {r : AddressRange} {count : Nat} {span : BitSpan}
    (h : cover r count = .ok span) :
    0 < count ∧
      (∃ start, span.start = PackedAddress.ofWord start ∧
        start.toNat = r.address.toNat + r.offset.toNat / 16) ∧
      span.first = r.offset.toNat % 16 ∧
      span.registers.toNat = (r.offset.toNat % 16 + count + 15) / 16 ∧
      span.registers.toNat ≤ maxReadRegisters.toNat := by
  rw [cover] at h
  have pos : count ≠ 0 := by
    rintro rfl
    cases h
  rw [if_neg pos] at h
  obtain ⟨start, hstart, h⟩ := bind_eq_ok h
  have hsum := addAddress_eq_ok hstart
  dsimp only at h
  split at h
  · cases h
  rename_i fits
  cases h
  have hlimit : maxReadRegisters.toNat = 125 := rfl
  rw [UInt16.toNat_div] at hsum
  have hregisters : (UInt16.ofNat ((r.offset.toNat % 16 + count + 15) / 16)).toNat
      = (r.offset.toNat % 16 + count + 15) / 16 :=
    UInt16.toNat_ofNat_of_lt' (by rw [show UInt16.size = 65536 from rfl]; omega)
  refine ⟨Nat.pos_of_ne_zero pos, ⟨start, rfl, hsum⟩, rfl, hregisters, ?_⟩
  rw [hregisters]
  exact Nat.le_of_not_lt fits

/-- A run of bits that few enough registers cover is refused when the first of them does not
exist. -/
theorem cover_eq_error {r : AddressRange} {count : Nat} {fault : ConfigFault}
    (h : cover r count = .error fault) (pos : 0 < count)
    (few : (r.offset.toNat % 16 + count + 15) / 16 ≤ maxReadRegisters.toNat) :
    fault = .addressOverflow ∧ UInt16.size ≤ r.address.toNat + r.offset.toNat / 16 := by
  rw [cover, if_neg (Nat.ne_of_gt pos)] at h
  rcases bind_eq_error h with hstart | ⟨start, -, h⟩
  · obtain ⟨hfault, hsum⟩ := addAddress_eq_error hstart
    rw [UInt16.toNat_div] at hsum
    exact ⟨hfault, hsum⟩
  · dsimp only at h
    rw [if_neg (Nat.not_lt.2 few)] at h
    cases h

end BitSpan

end BusMaster
