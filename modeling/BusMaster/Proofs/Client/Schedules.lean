import BusMaster.Client.Run
import BusMaster.Proofs.Bits.Conversions
import BusMaster.Proofs.Number.Reading
import BusMaster.Proofs.Plant.Placement

/-!
# Schedules on the command line

The value of a write is a text, and what the text stands for is settled before anything is known of
the channel it is meant for. Truth values and numbers come first. Sixteen binary digits are a schedule
wherever blanks stand between them, in front or behind. With a blank they are no number
(`Value.ofText_of_blank`), stay the text they are, and are written bit by bit. Without one they are a
whole number (`Value.ofText_of_digits`), and a schedule takes no number. So it is the blanks, which
mean nothing, that decide whether a schedule can be written (`schedule_written_iff_blank`).
-/

namespace BusMaster

namespace BitSeq

variable {order : BitOrder} {text : String} {s : BitSeq}

/-- What is read as bits is legible. -/
theorem legible_of_readDigits {text : List Char} {bits : List Bool}
    (h : readDigits text = .ok bits) : ∀ c ∈ text, Legible c := by
  induction text generalizing bits with
  | nil => exact fun c hc => absurd hc List.not_mem_nil
  | cons c rest ih =>
    have later : ∀ {more : Except BitsFault (List Bool)} {b : Bool},
        more.map (b :: ·) = .ok bits → ∃ bits, more = .ok bits := by
      rintro (fault | bits) b h
      · cases h
      · exact ⟨bits, rfl⟩
    rw [readDigits] at h
    refine List.forall_mem_cons.2 ?_
    split at h
    · exact ⟨.inl ‹_›, ih h⟩
    split at h
    · obtain ⟨bits, hbits⟩ := later h
      exact ⟨.inr (.inl ‹_›), ih hbits⟩
    split at h
    · obtain ⟨bits, hbits⟩ := later h
      exact ⟨.inr (.inr ‹_›), ih hbits⟩
    · cases h

/-- A run that is read from a text has the bits that its digits are read as. -/
theorem ofText_eq_ok (h : ofText order text = .ok s) :
    ∃ bits, readDigits text.toList = .ok bits ∧ s = ofList order bits := by
  rw [ofText] at h
  rcases hbits : readDigits text.toList with fault | bits
  · rw [hbits] at h
    cases h
  · rw [hbits] at h
    exact ⟨bits, rfl, (Except.ok.inj h).symm⟩

/-- A solid text of bits is made of digits alone, one for each bit. -/
theorem digits_of_solid {text : List Char} {bits : List Bool} (read : readDigits text = .ok bits)
    (solid : Solid text) :
    (∀ c ∈ text, (digitValue c).isSome) ∧ text.length = bits.length := by
  have legible := legible_of_readDigits read
  refine ⟨fun c hc => ?_, ?_⟩
  · rcases legible c hc with blank | rfl | rfl
    · rw [solid c hc] at blank
      cases blank
    · rfl
    · rfl
  · have all : text.filter (!isBlank ·) = text :=
      List.filter_eq_self.2 fun c hc => by rw [solid c hc]; rfl
    rw [readDigits_of_legible legible, all] at read
    rw [← Except.ok.inj read, List.length_map]

end BitSeq

/-! ## What a text stands for -/

namespace Value

variable {text : String}

/-- A text with a blank is no truth value and no number. -/
theorem ofText_of_blank (blank : ∃ c ∈ text.toList, isBlank c = true) :
    Value.ofText text = .text text := by
  have hollow := not_solid.2 blank
  have noInt : readInt Int64.minValue.toInt Int64.maxValue.toInt text = none := by
    rw [Option.eq_none_iff_forall_ne_some]
    exact fun i h => hollow (solid_of_readInt h)
  have noDecimal : readDecimal text = none := by
    rw [Option.eq_none_iff_forall_ne_some]
    exact fun x h => hollow (solid_of_readDecimal h)
  unfold ofText
  rw [noInt, noDecimal]
  split
  · exact absurd (by decide) hollow
  · exact absurd (by decide) hollow
  · rename_i h
    cases h
  · rename_i h
    cases h
  · rfl

/-- Up to eighteen digits are a whole number. -/
theorem ofText_of_digits (nonempty : text.toList ≠ [])
    (digits : ∀ c ∈ text.toList, (digitValue c).isSome)
    (short : text.toList.length ≤ 18) : ∃ n : Nat, Value.ofText text = .int n := by
  have high : (10 ^ text.toList.length : Nat) ≤ Int64.maxValue.toInt + 1 :=
    (Int.ofNat_le.2 (Nat.pow_le_pow_right (by decide) short)).trans (by decide)
  have low : Int64.minValue.toInt ≤ 0 := by decide
  obtain ⟨n, hn⟩ := readInt_of_digits nonempty digits low high
  refine ⟨n, ?_⟩
  unfold ofText
  rw [hn]
  split
  · exact absurd (digits 't' (by decide)) (by decide)
  · exact absurd (digits 'f' (by decide)) (by decide)
  · rename_i h
    rw [Option.some.inj h]
  · rename_i h _
    cases h
  · rename_i h _
    cases h

end Value

/-! ## What is written -/

namespace Encoding

/-- Sixteen bits as a text are the field of a schedule, the first of them the least significant. -/
theorem encode_schedule (e : Encoding) {order : BitOrder} {text : String} {s : BitSeq}
    (read : BitSeq.ofText order text = .ok s) (sixteen : s.size = 16) :
    e.encode .schedule (.text text) = .ok (.bits (.ofList .lsb0 s.toList)) := by
  obtain ⟨bits, hbits, rfl⟩ := BitSeq.ofText_eq_ok read
  have field : scheduleBits (.text text) = .ok (.ofList .lsb0 bits) := by
    simp only [scheduleBits, BitSeq.ofText, hbits]
    exact if_pos sixteen
  rw [BitSeq.toList_ofList]
  simp only [encode, field]
  rfl

end Encoding

namespace Catalog

variable {c : Catalog} {s : State} {ch : Channel} {a : Action}

/-- What is written for a channel is a field that its value is encoded to. -/
theorem encode_of_buildWrite (h : c.buildWrite s = .ok a) (hch : c.channel? s.channel = some ch) :
    ∃ entry field, ch.encoding.encode ch.cls s.value = .ok field ∧
      Placed entry ch.position (writeOf ch.dataset entry.dataset) field a := by
  obtain ⟨e, entry, field, he, -, -, hfield, placed⟩ := buildWrite_eq_ok h
  rw [channel?, he] at hch
  obtain rfl := Option.some.inj hch
  exact ⟨entry, field, hfield, placed⟩

/-- Wherever a run of bits is placed, the write carries its bits. -/
theorem Placed.carries {entry : DatasetEntry} {position : Nat} {write : Action} {t : BitSeq}
    (placed : Placed entry position write (.bits t) a) :
    ∃ p, a.payload = some p ∧ p.toBits.toList = t.toList := by
  cases placed with
  | bits => exact ⟨_, rfl, rfl⟩
  | registers fills =>
    refine ⟨_, rfl, ?_⟩
    have full : 16 * ((t.size + 15) / 16) - t.size = 0 := by
      have whole := (fills t rfl).2.2
      omega
    change (BitSeq.ofRegisters t.toRegisters).toList = _
    rw [BitSeq.toList_ofRegisters_toRegisters, full, List.replicate_zero, List.append_nil]

end Catalog

/-- **A schedule can be written exactly if its text has a blank.** Take any text that is read as
sixteen bits. By itself it is encoded to these bits. What the command line takes it for is encoded to
the same field exactly if there is a blank in the text, wherever it stands; otherwise it is a number,
and refused. So a write that is made of it carries the sixteen bits, and is made only if there is a
blank. -/
theorem schedule_written_iff_blank {text : String} {order : BitOrder} {s : BitSeq}
    (read : BitSeq.ofText order text = .ok s) (sixteen : s.size = 16) :
    (∀ e : Encoding, e.encode .schedule (.text text) = .ok (.bits (.ofList .lsb0 s.toList)) ∧
      (e.encode .schedule (.ofText text) = e.encode .schedule (.text text) ↔
        ∃ x ∈ text.toList, isBlank x = true) ∧
      ((∀ x ∈ text.toList, isBlank x = false) →
        e.encode .schedule (.ofText text) = .error .valueMismatch)) ∧
    ∀ {c : Catalog} {id : ChannelId} {ch : Channel} {a : Action},
      c.channel? id = some ch → ch.cls = .schedule → c.buildWrite ⟨id, .ofText text⟩ = .ok a →
        (∃ x ∈ text.toList, isBlank x = true) ∧
          ∃ p, a.payload = some p ∧ p.toBits.toList = s.toList := by
  have refused (solid : Solid text.toList) (e : Encoding) :
      e.encode .schedule (.ofText text) = .error .valueMismatch := by
    obtain ⟨bits, hbits, rfl⟩ := BitSeq.ofText_eq_ok read
    obtain ⟨digits, length⟩ := BitSeq.digits_of_solid hbits solid
    rw [show bits.length = 16 from sixteen] at length
    obtain ⟨n, hn⟩ := Value.ofText_of_digits
      (List.ne_nil_of_length_pos (by omega)) digits (by omega)
    rw [hn]
    rfl
  refine ⟨fun e => ⟨e.encode_schedule read sixteen, ⟨fun same => ?_, fun blank => ?_⟩,
    fun solid => refused solid e⟩, fun {c id ch a} hch cls h => ?_⟩
  · rw [← not_solid]
    intro solid
    rw [refused solid e, e.encode_schedule read sixteen] at same
    cases same
  · rw [Value.ofText_of_blank blank]
  · obtain ⟨entry, field, hfield, placed⟩ := Catalog.encode_of_buildWrite h hch
    rw [cls] at hfield
    have blank : ∃ x ∈ text.toList, isBlank x = true := by
      rw [← not_solid]
      intro solid
      rw [refused solid] at hfield
      cases hfield
    refine ⟨blank, ?_⟩
    rw [Value.ofText_of_blank blank, Encoding.encode_schedule _ read sixteen] at hfield
    obtain rfl := Except.ok.inj hfield
    obtain ⟨p, payload, bits⟩ := placed.carries
    exact ⟨p, payload, bits.trans (BitSeq.toList_ofList ..)⟩

/-! ## A heating plan -/

namespace HeatingPlan

/-- warm in the first and the last four of sixteen hours -/
def hours : List Bool :=
  [true, true, true, true, false, false, false, false,
    false, false, false, false, true, true, true, true]

theorem spaced_plan_is_read :
    BitSeq.ofText .lsb0 "11110000 00001111" = .ok (.ofList .lsb0 hours) := rfl

theorem bare_plan_is_read :
    BitSeq.ofText .lsb0 "1111000000001111" = .ok (.ofList .lsb0 hours) := rfl

/-- The plan is written with a blank between its bytes, and refused without it. -/
theorem plan_needs_blank :
    (BitSeq.ofList .lsb0 hours).size = 16 ∧
    Encoding.encode {} .schedule (.ofText "11110000 00001111")
      = .ok (.bits (.ofList .lsb0 hours)) ∧
    Encoding.encode {} .schedule (.text "1111000000001111")
      = .ok (.bits (.ofList .lsb0 hours)) ∧
    Encoding.encode {} .schedule (.ofText "1111000000001111") = .error .valueMismatch := by
  obtain ⟨spaced, same, -⟩ := (schedule_written_iff_blank spaced_plan_is_read rfl).1 {}
  obtain ⟨bare, -, refused⟩ := (schedule_written_iff_blank bare_plan_is_read rfl).1 {}
  exact ⟨rfl, (same.2 ⟨' ', by decide, rfl⟩).trans spaced, bare,
    refused (show Solid _ by decide)⟩

end HeatingPlan

end BusMaster
