import BusMaster.Proofs.Checksum
import BusMaster.Proofs.Frame.Ascii
import BusMaster.Proofs.Hex

/-!
# Lines that spell a frame

A line spells bytes when their hex digits, in either case, stand behind its last colon, with one
carriage return behind them or none (`Spells`). What stands before that colon is noise and may hold
colons and carriage returns of its own; the digits hold neither, so a line spells one byte string at
most (`Spells.unique`). A line is a response exactly if it spells the response with its LRC
(`parseLine_eq_ok_iff_spells`), hence what is written is read back behind any noise, and a line that
spells a frame with one byte changed is refused (`spelled_responses_are_read`).
-/

namespace BusMaster.Ascii

variable {unit function : UInt8} {line adu text bytes : Bytes}

/-- behind its last colon the line has the digits of the bytes, and a carriage return or none -/
def Spells (line bytes : Bytes) : Prop :=
  ∃ noise text ending, line = noise ++ start :: (text ++ ending) ∧ start ∉ text ++ ending ∧
    (ending = [] ∨ ending = [carriageReturn]) ∧ text.map Hex.upper = Hex.encode bytes

/-- No digit is a character that a line is made of otherwise. -/
theorem notMem_digits (h : text.map Hex.upper = Hex.encode bytes) :
    start ∉ text ∧ carriageReturn ∉ text ∧ lineFeed ∉ text := by
  refine ⟨fun hmem => ?_, fun hmem => ?_, fun hmem => ?_⟩ <;>
    obtain ⟨v, hv⟩ := Hex.exists_value_of_mem h hmem <;> cases hv

/-- Digits behind any noise spell their bytes. -/
theorem spells_of_digits (noise : Bytes) {ending : Bytes}
    (hending : ending = [] ∨ ending = [carriageReturn])
    (digits : text.map Hex.upper = Hex.encode bytes) :
    Spells (noise ++ start :: (text ++ ending)) bytes := by
  refine ⟨noise, text, ending, rfl, ?_, hending, digits⟩
  rw [List.mem_append, not_or]
  refine ⟨(notMem_digits digits).1, ?_⟩
  rcases hending with rfl | rfl <;> decide

/-! ## The end of a line -/

/-- A text without a carriage return is what is left of it with one and with none. -/
theorem dropReturn_append {ending : Bytes} (hending : ending = [] ∨ ending = [carriageReturn])
    (plain : carriageReturn ∉ text) : dropReturn (text ++ ending) = text := by
  rw [dropReturn]
  rcases hending with rfl | rfl
  · rw [List.append_nil, if_neg fun hlast => plain (List.mem_of_getLast? hlast)]
  · rw [List.getLast?_concat, if_pos rfl, List.dropLast_concat]

theorem exists_ending (body : Bytes) :
    ∃ ending, body = dropReturn body ++ ending ∧ (ending = [] ∨ ending = [carriageReturn]) := by
  rw [dropReturn]
  split
  · rename_i hlast
    exact ⟨[carriageReturn], (List.dropLast_append_getLast? _ hlast).symm, .inr rfl⟩
  · exact ⟨[], (List.append_nil body).symm, .inl rfl⟩

/-- **A line spells bytes when the text behind its last colon is read as these bytes.** -/
theorem spells_iff : Spells line bytes ↔
    ∃ body, afterLastStart line = some body ∧ Hex.decode (dropReturn body) = .ok bytes := by
  constructor
  · rintro ⟨noise, text, ending, rfl, last, hending, digits⟩
    refine ⟨text ++ ending, afterLastStart_append noise last, ?_⟩
    rw [dropReturn_append hending (notMem_digits digits).2.1]
    exact Hex.decode_eq_ok_iff.2 digits
  · rintro ⟨body, hbody, hbytes⟩
    obtain ⟨noise, hline, last⟩ := exists_of_afterLastStart hbody
    obtain ⟨ending, hsplit, hending⟩ := exists_ending body
    rw [hsplit] at hline last
    exact ⟨noise, dropReturn body, ending, hline, last, hending, Hex.decode_eq_ok_iff.1 hbytes⟩

/-- A line spells one byte string at most. -/
theorem Spells.unique {other : Bytes} (h : Spells line bytes) (h' : Spells line other) :
    bytes = other := by
  obtain ⟨body, hbody, hbytes⟩ := spells_iff.1 h
  obtain ⟨body', hbody', hother⟩ := spells_iff.1 h'
  obtain rfl := Option.some.inj (hbody.symm.trans hbody')
  exact Except.ok.inj (hbytes.symm.trans hother)

/-! ## Responses -/

/-- **A line is a response exactly if it spells the response with its LRC.** -/
theorem parseLine_eq_ok_iff_spells : parseLine unit function line = .ok adu ↔
    Headed unit function adu ∧ Spells line (adu ++ [lrc adu]) := by
  rw [parseLine_eq_ok_iff, spells_iff]

/-- The line of a frame, without its line feed and without its carriage return. -/
theorem encode_dropLast (adu : Bytes) :
    (encode adu).dropLast = start :: (Hex.encode (adu ++ [lrc adu]) ++ [carriageReturn]) ∧
      (encode adu).dropLast.dropLast = start :: (Hex.encode (adu ++ [lrc adu]) ++ []) := by
  have whole : encode adu
      = start :: (Hex.encode (adu ++ [lrc adu]) ++ [carriageReturn]) ++ [lineFeed] := by
    simp [encode, Hex.encode_append]
  have first : (encode adu).dropLast
      = start :: (Hex.encode (adu ++ [lrc adu]) ++ [carriageReturn]) := by
    rw [whole, List.dropLast_concat]
  refine ⟨first, ?_⟩
  rw [first, ← List.cons_append, List.dropLast_concat, List.append_nil]

/-- **What is written is read back behind any noise, what is read was spelled, and a frame with a
byte changed is refused.** The line of a response is read with its carriage return and without it,
under the unit id and the function code that the response begins with. -/
theorem spelled_responses_are_read :
    (∀ noise adu unit function, adu[0]? = some unit → adu[1]? = some function →
      parseLine unit function (noise ++ (encode adu).dropLast) = .ok adu ∧
      parseLine unit function (noise ++ (encode adu).dropLast.dropLast) = .ok adu) ∧
    (∀ unit function line adu, parseLine unit function line = .ok adu →
      Headed unit function adu ∧ Spells line (adu ++ [lrc adu])) ∧
    ∀ adu k a b, (adu ++ [lrc adu])[k]? = some a → b ≠ a →
      ∀ line, Spells line ((adu ++ [lrc adu]).set k b) →
        ∀ unit function, ∃ fault, parseLine unit function line = .error fault := by
  refine ⟨fun noise adu unit function hunit hfunction => ?_, fun unit function line adu h => ?_,
    fun adu k a b hk changed line spells unit function => ?_⟩
  · have headed : Headed unit function adu := ⟨hunit, .inl hfunction⟩
    have digits := Hex.map_upper_encode (adu ++ [lrc adu])
    obtain ⟨withReturn, withoutReturn⟩ := encode_dropLast adu
    rw [withoutReturn, withReturn, parseLine_eq_ok_iff_spells, parseLine_eq_ok_iff_spells]
    exact ⟨⟨headed, spells_of_digits noise (.inr rfl) digits⟩,
      headed, spells_of_digits noise (.inl rfl) digits⟩
  · exact parseLine_eq_ok_iff_spells.1 h
  · rcases hparse : parseLine unit function line with fault | other
    · exact ⟨fault, rfl⟩
    · obtain ⟨-, spelled⟩ := parseLine_eq_ok_iff_spells.1 hparse
      exact absurd (spells.unique spelled) (set_append_lrc_ne hk changed)

/-! Behind a stray colon and carriage return, and with the last byte of data one too high. -/

namespace Reading

/-- the unit answers a read of one register -/
def response : Bytes := [17, 3, 2, 0, 42]

/-- The line of the response without its line feed, behind noise. -/
def received : Bytes := [start, carriageReturn] ++ (encode response).dropLast

theorem response_is_read :
    parseLine 17 3 received = .ok response ∧
      Headed 17 3 response ∧ Spells received (response ++ [lrc response]) ∧
      ∃ fault, parseLine 17 3
        (start :: (Hex.encode ((response ++ [lrc response]).set 4 43) ++ [])) = .error fault := by
  have read : parseLine 17 3 received = .ok response :=
    (spelled_responses_are_read.1 [start, carriageReturn] response 17 3 rfl rfl).1
  obtain ⟨headed, spells⟩ := spelled_responses_are_read.2.1 17 3 received response read
  refine ⟨read, headed, spells, ?_⟩
  exact spelled_responses_are_read.2.2 response 4 42 43 rfl (by decide) _
    (spells_of_digits [] (.inl rfl) (Hex.map_upper_encode _)) 17 3

end Reading

end BusMaster.Ascii
