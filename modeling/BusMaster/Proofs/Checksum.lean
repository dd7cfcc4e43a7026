import BusMaster.Checksum
import BusMaster.Proofs.Words

/-!
# Checksums at the end of a frame

A frame that is long enough is a body and a CRC in one way (`splitCrc_eq_some_iff`).

The register of the CRC is linear in what it holds, and a shift loses nothing of it
(`crcShift_xor`, `crcShift_eq_zero`). So registers that differ go on to differ whatever follows
(`foldl_crcStep_inj`), and the register is empty behind a frame with its CRC (`crc16_appendCrc`).
Two neighbouring bytes are sixteen bits, as many as the register has, and no two pairs of them leave
the same register (`crcStep_pair_inj`): a burst that short does not go unnoticed
(`crc_detects_short_bursts`).

The LRC brings the sum of all bytes to zero, and another byte makes another sum
(`set_append_lrc_ne`).
-/

namespace BusMaster

theorem appendCrc_eq (body : Bytes) :
    appendCrc body = body ++ [(crc16 body).toUInt8, (crc16 body >>> 8).toUInt8] := rfl

@[simp] theorem length_appendCrc (body : Bytes) : (appendCrc body).length = body.length + 2 := by
  rw [appendCrc_eq, List.length_append]
  rfl

theorem splitCrc_append (body : Bytes) (crc : UInt16) :
    splitCrc (body ++ [crc.toUInt8, (crc >>> 8).toUInt8]) = some (body, crc) := by
  have hlength : (body ++ [crc.toUInt8, (crc >>> 8).toUInt8]).length - 2 = body.length := by
    rw [List.length_append]
    rfl
  rw [splitCrc, hlength, List.drop_left, List.take_left]
  dsimp only
  rw [wordOf_wordBytes]

/-- **A frame is split into the body and the CRC it was put together from.** -/
theorem splitCrc_eq_some_iff {frame body : Bytes} {crc : UInt16} :
    splitCrc frame = some (body, crc) ↔
      frame = body ++ [crc.toUInt8, (crc >>> 8).toUInt8] := by
  refine ⟨fun h => ?_, fun h => h ▸ splitCrc_append body crc⟩
  rw [splitCrc] at h
  split at h
  · rename_i low high hdrop
    obtain ⟨hbody, hcrc⟩ := Prod.mk.inj (Option.some.inj h)
    have hbytes : [(crc >>> 8).toUInt8, crc.toUInt8] = [high, low] :=
      hcrc ▸ wordBytes_wordOf high low
    obtain ⟨hhigh, hlow⟩ := List.cons.inj hbytes
    obtain ⟨hlow, -⟩ := List.cons.inj hlow
    rw [hhigh, hlow, ← hbody, ← hdrop, List.take_append_drop]
  · cases h

/-! ## The register -/

/-- A shift takes the polynomial into the register for a bit that leaves it. -/
theorem crcShift_eq (crc : UInt16) :
    crcShift crc = crc >>> 1 ^^^ if crc.toNat.testBit 0 then 0xA001 else 0 := by
  have low : crc &&& 1 = 1 ↔ crc.toNat.testBit 0 = true := by
    rw [← UInt16.toNat_inj, UInt16.toNat_and, Nat.testBit_zero]
    simp
  rw [crcShift]
  by_cases h : crc &&& 1 = 1
  · simp [h, low.1 h]
  · simp [h, mt low.2 h]

theorem crcShift_xor (a b : UInt16) : crcShift (a ^^^ b) = crcShift a ^^^ crcShift b := by
  have taken : ∀ x y : Bool, (if (x ^^ y) = true then (0xA001 : UInt16) else 0)
      = (if x = true then 0xA001 else 0) ^^^ if y = true then 0xA001 else 0 := by decide
  have moved : (a ^^^ b) >>> 1 = a >>> 1 ^^^ b >>> 1 := by
    simp [← UInt16.toBitVec_inj, BitVec.ushiftRight_xor_distrib]
  simp only [crcShift_eq, UInt16.toNat_xor, Nat.testBit_xor, taken, moved]
  ac_rfl

theorem crcShift_eq_zero {crc : UInt16} (h : crcShift crc = 0) : crc = 0 := by
  have bound := crc.toNat_lt
  have moved : (crc >>> 1).toNat = crc.toNat / 2 := by
    simp [UInt16.toNat_shiftRight, Nat.shiftRight_eq_div_pow]
  rw [crcShift_eq] at h
  have taken := congrArg UInt16.toNat (UInt16.xor_eq_zero_iff.1 h)
  rw [moved] at taken
  refine UInt16.toNat_inj.1 ?_
  cases low : crc.toNat.testBit 0 with
  | true =>
    -- the polynomial has its highest bit set, which no shifted register has
    rw [low, if_pos rfl] at taken
    change crc.toNat / 2 = 0xA001 at taken
    omega
  | false =>
    rw [low, if_neg Bool.false_ne_true] at taken
    change crc.toNat / 2 = 0 at taken
    have even : ¬crc.toNat % 2 = 1 := by simpa [Nat.testBit_zero] using low
    change crc.toNat = 0
    omega

theorem crcShift8_xor (a b : UInt16) : crcShift8 (a ^^^ b) = crcShift8 a ^^^ crcShift8 b := by
  simp only [crcShift8, crcShift_xor]

theorem crcShift8_eq_zero {crc : UInt16} (h : crcShift8 crc = 0) : crc = 0 := by
  rw [crcShift8] at h
  iterate 8 replace h := crcShift_eq_zero h
  exact h

theorem crcShift8_inj {a b : UInt16} : crcShift8 a = crcShift8 b ↔ a = b := by
  refine ⟨fun h => UInt16.xor_eq_zero_iff.1 (crcShift8_eq_zero ?_), congrArg crcShift8⟩
  rw [crcShift8_xor, h, UInt16.xor_self]

theorem crcStep_inj {a b : UInt16} {x : UInt8} : crcStep a x = crcStep b x ↔ a = b := by
  rw [crcStep, crcStep, crcShift8_inj, UInt16.xor_left_inj]

/-- Registers that differ go on to differ whatever follows. -/
theorem foldl_crcStep_inj (bytes : Bytes) {a b : UInt16} :
    bytes.foldl crcStep a = bytes.foldl crcStep b ↔ a = b := by
  induction bytes generalizing a b with
  | nil => rfl
  | cons x bytes ih => rw [List.foldl_cons, List.foldl_cons, ih, crcStep_inj]

/-- A high byte comes down to the low one: no bit of it leaves the register. -/
theorem crcShift8_high (b : UInt8) : crcShift8 (b.toUInt16 <<< 8) = b.toUInt16 :=
  forall_byte (P := fun b => crcShift8 (b.toUInt16 <<< 8) = b.toUInt16) (by decide +kernel) b

/-- Behind a low byte other than zero the high byte of the register is not empty. -/
theorem eq_zero_of_crcShift8 {d e : UInt8} (h : crcShift8 d.toUInt16 = e.toUInt16) : d = 0 := by
  have empty : (crcShift8 d.toUInt16).toNat < 256 → d = 0 :=
    forall_byte (P := fun d => (crcShift8 d.toUInt16).toNat < 256 → d = 0) (by decide +kernel) d
  refine empty ?_
  rw [h]
  exact e.toNat_lt

theorem xor_eq_of_eq {a b a' b' : UInt16} (h : a ^^^ b = a' ^^^ b') : a ^^^ a' = b ^^^ b' := by
  have moved : a = a' ^^^ b' ^^^ b := by
    rw [← h, UInt16.xor_assoc, UInt16.xor_self, UInt16.xor_zero]
  rw [moved, UInt16.xor_comm _ a', ← UInt16.xor_assoc, ← UInt16.xor_assoc, UInt16.xor_self,
    UInt16.zero_xor, UInt16.xor_comm]

/-- **Two bytes are told apart by the register.** -/
theorem crcStep_pair_inj {crc : UInt16} {a b a' b' : UInt8}
    (h : crcStep (crcStep crc a) b = crcStep (crcStep crc a') b') : a = a' ∧ b = b' := by
  have registers : crcShift8 (crc ^^^ a.toUInt16) ^^^ b.toUInt16
      = crcShift8 (crc ^^^ a'.toUInt16) ^^^ b'.toUInt16 := crcShift8_inj.1 h
  rw [crcShift8_xor, crcShift8_xor, UInt16.xor_assoc, UInt16.xor_assoc,
    UInt16.xor_right_inj] at registers
  have first : a = a' := by
    refine UInt8.xor_eq_zero_iff.1 (@eq_zero_of_crcShift8 _ (b ^^^ b') ?_)
    rw [UInt8.toUInt16_xor, UInt8.toUInt16_xor, crcShift8_xor]
    exact xor_eq_of_eq registers
  subst first
  rw [UInt16.xor_right_inj] at registers
  exact ⟨rfl, by simpa using congrArg UInt16.toUInt8 registers⟩

/-! ## A frame with its CRC -/

theorem wordOf_xor (high low : UInt8) : wordOf high low ^^^ low.toUInt16 = high.toUInt16 <<< 8 := by
  refine UInt16.toBitVec_inj.1 (BitVec.eq_of_getLsbD_eq fun i _ => ?_)
  by_cases h : i < 8
  · simp [wordOf, h]
  · simp [wordOf, h, BitVec.getLsbD_of_ge _ i (Nat.le_of_not_lt h)]

/-- **The register is empty behind a frame with its CRC.** -/
theorem crc16_appendCrc (body : Bytes) : crc16 (appendCrc body) = 0 := by
  have low : crcStep (crc16 body) (crc16 body).toUInt8 = (crc16 body >>> 8).toUInt8.toUInt16 := by
    have word := wordOf_xor (crc16 body >>> 8).toUInt8 (crc16 body).toUInt8
    rw [wordOf_wordBytes] at word
    rw [crcStep, word, crcShift8_high]
  rw [appendCrc_eq, crc16, List.foldl_append]
  calc crcStep (crcStep (crc16 body) (crc16 body).toUInt8) (crc16 body >>> 8).toUInt8
      = crcShift8 0 := by rw [low, crcStep, UInt16.xor_self]
    _ = 0 := rfl

theorem checkCrc_eq_true_iff {frame : Bytes} :
    checkCrc frame = true ↔ ∃ body, frame = appendCrc body := by
  rw [checkCrc]
  constructor
  · intro h
    split at h
    · rename_i body crc hsplit
      obtain rfl := beq_iff_eq.1 h
      exact ⟨body, splitCrc_eq_some_iff.1 hsplit⟩
    · cases h
  · rintro ⟨body, rfl⟩
    rw [appendCrc_eq, splitCrc_append]
    exact beq_self_eq_true _

/-! ## Bursts -/

/-- what is received is as long as what was sent, and different at one place or at two neighbouring
ones -/
structure Burst (k : ℕ) (sent received : Bytes) : Prop where
  length : received.length = sent.length
  outside : ∀ i, i ≠ k → i ≠ k + 1 → received[i]? = sent[i]?
  changed : received ≠ sent

theorem eq_of_foldl_crcStep {crc : UInt16} {u v : Bytes} (length : u.length = v.length)
    (short : v.length ≤ 2) (h : u.foldl crcStep crc = v.foldl crcStep crc) : u = v := by
  match u, v, length, short, h with
  | [], [], _, _, _ => rfl
  | [_], [_], _, _, h =>
    -- one byte is a pair whose second byte is the same
    obtain ⟨rfl, -⟩ := @crcStep_pair_inj crc _ 0 _ 0 (congrArg (crcStep · 0) h)
    rfl
  | [a, b], [a', b'], _, _, h =>
    obtain ⟨rfl, rfl⟩ := crcStep_pair_inj h
    rfl
  | _ :: _ :: _ :: _, v, length, short, _ =>
    rw [← length] at short
    simp at short

/-- A burst leaves another register. -/
theorem Burst.crc16_ne {k : ℕ} {sent received : Bytes} (burst : Burst k sent received) :
    crc16 received ≠ crc16 sent := by
  intro same
  have before : received.take k = sent.take k := by
    refine List.ext_getElem? fun i => ?_
    by_cases hi : i < k
    · rw [List.getElem?_take_of_lt hi, List.getElem?_take_of_lt hi,
        burst.outside i (by omega) (by omega)]
    · rw [List.getElem?_take, List.getElem?_take, if_neg hi, if_neg hi]
  have behind : (received.drop k).drop 2 = (sent.drop k).drop 2 := by
    refine List.ext_getElem? fun i => ?_
    rw [List.drop_drop, List.drop_drop, List.getElem?_drop, List.getElem?_drop,
      burst.outside (k + 2 + i) (by omega) (by omega)]
  have inside : (received.drop k).take 2 = (sent.drop k).take 2 := by
    have split : ∀ bytes : Bytes, bytes
        = bytes.take k ++ ((bytes.drop k).take 2 ++ (bytes.drop k).drop 2) := fun bytes => by
      rw [List.take_append_drop, List.take_append_drop]
    rw [crc16, crc16, split received, split sent, before, behind, List.foldl_append,
      List.foldl_append, List.foldl_append, List.foldl_append, foldl_crcStep_inj] at same
    refine eq_of_foldl_crcStep ?_ (List.length_take_le ..) same
    rw [List.length_take, List.length_take, List.length_drop, List.length_drop, burst.length]
  refine burst.changed ?_
  rw [← List.take_append_drop k received, ← List.take_append_drop 2 (received.drop k), before,
    inside, behind, List.take_append_drop, List.take_append_drop]

/-- **The CRC holds of what was put together with it, and finds every burst of one byte or of two
neighbouring ones.** A frame put together is split into what it was put together from, and a frame
whose CRC is right has a wrong one with a burst in it, be it in the body, in the CRC or across the
border. -/
theorem crc_detects_short_bursts :
    (∀ body, checkCrc (appendCrc body) = true
      ∧ splitCrc (appendCrc body) = some (body, crc16 body))
    ∧ ∀ sent received k, checkCrc sent = true → Burst k sent received →
      checkCrc received = false := by
  refine ⟨fun body => ⟨checkCrc_eq_true_iff.2 ⟨body, rfl⟩, splitCrc_append _ _⟩, ?_⟩
  intro sent received k hsent burst
  rw [← Bool.not_eq_true]
  intro hreceived
  obtain ⟨body, rfl⟩ := checkCrc_eq_true_iff.1 hsent
  obtain ⟨other, rfl⟩ := checkCrc_eq_true_iff.1 hreceived
  exact burst.crc16_ne ((crc16_appendCrc other).trans (crc16_appendCrc body).symm)

/-- a burst across the border between the body and the CRC -/
theorem crc_detects_short_bursts_border :
    checkCrc [0x01, 0x03, 0x00, 0x00, 0x00, 0x01, 0x84, 0x0A] = true
    ∧ Burst 5 [0x01, 0x03, 0x00, 0x00, 0x00, 0x01, 0x84, 0x0A]
      [0x01, 0x03, 0x00, 0x00, 0x00, 0x02, 0xC4, 0x0A]
    ∧ checkCrc [0x01, 0x03, 0x00, 0x00, 0x00, 0x02, 0xC4, 0x0A] = false := by
  have sent : checkCrc [0x01, 0x03, 0x00, 0x00, 0x00, 0x01, 0x84, 0x0A] = true := by
    decide +kernel
  have burst : Burst 5 [0x01, 0x03, 0x00, 0x00, 0x00, 0x01, 0x84, 0x0A]
      [0x01, 0x03, 0x00, 0x00, 0x00, 0x02, 0xC4, 0x0A] := by
    refine ⟨rfl, fun i first second => ?_, by decide⟩
    match i, first, second with
    | 0, _, _ | 1, _, _ | 2, _, _ | 3, _, _ | 4, _, _ | 7, _, _ | _ + 8, _, _ => rfl
    | 5, first, _ => exact absurd rfl first
    | 6, _, second => exact absurd rfl second
  exact ⟨sent, burst, crc_detects_short_bursts.2 _ _ 5 sent burst⟩

/-! ## The byte that brings the sum to zero -/

theorem foldl_add (bytes : Bytes) (a : UInt8) :
    bytes.foldl (· + ·) a = a + bytes.foldl (· + ·) 0 := by
  induction bytes generalizing a with
  | nil => exact (UInt8.add_zero a).symm
  | cons b bytes ih =>
    rw [List.foldl_cons, List.foldl_cons, ih, ih (0 + b), UInt8.zero_add, UInt8.add_assoc]

theorem foldl_add_append_lrc (body : Bytes) : (body ++ [lrc body]).foldl (· + ·) 0 = 0 := by
  rw [List.foldl_append, List.foldl_cons, List.foldl_nil, lrc, UInt8.zero_sub]
  exact UInt8.add_right_neg _

theorem foldl_add_cons (b : UInt8) (bytes : Bytes) :
    (b :: bytes).foldl (· + ·) 0 = b + bytes.foldl (· + ·) 0 := by
  rw [List.foldl_cons, UInt8.zero_add, foldl_add]

/-- Another byte makes another sum. -/
theorem foldl_add_set_ne {bytes : Bytes} {k : ℕ} {a b : UInt8} (h : bytes[k]? = some a)
    (other : b ≠ a) : (bytes.set k b).foldl (· + ·) 0 ≠ bytes.foldl (· + ·) 0 := by
  induction bytes generalizing k with
  | nil => cases h
  | cons c bytes ih =>
    cases k with
    | zero =>
      obtain rfl := Option.some.inj h
      rw [List.set_cons_zero, foldl_add_cons, foldl_add_cons, Ne, UInt8.add_left_inj]
      exact other
    | succ k =>
      rw [List.set_cons_succ, foldl_add_cons, foldl_add_cons, Ne, UInt8.add_right_inj]
      exact ih h

/-- **A frame with its LRC is none any more with another byte in it**, be it in the body or the LRC
itself. -/
theorem set_append_lrc_ne {body other : Bytes} {k : ℕ} {a b : UInt8}
    (h : (body ++ [lrc body])[k]? = some a) (changed : b ≠ a) :
    (body ++ [lrc body]).set k b ≠ other ++ [lrc other] := by
  intro same
  refine foldl_add_set_ne h changed ?_
  rw [same, foldl_add_append_lrc, foldl_add_append_lrc]

end BusMaster
