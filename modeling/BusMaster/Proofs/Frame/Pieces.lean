import Mathlib.Data.List.Induction
import BusMaster.Proofs.Frame.Spelling

/-!
# Lines in pieces

A text receiver holds the length of a line against its limit when a read brought no line feed, and
only then. The last read of a line may bring `maxLine` bytes more, so a line of fewer than
`2 * maxLine` bytes may be parsed, and one of more than `maxLine` bytes may be refused; between the
two it is the reads that decide (`mayEnd_iff`). Hence the result is that of the line, however it is
cut, exactly if the line keeps the limit or is two buffers long, and the responses that can be
received are those of up to 511 bytes, twice what a frame carries (`result_independent_of_cuts_iff`).
-/

namespace BusMaster.Ascii

variable {detail : FrameDetail} {unit function : UInt8} {line rest adu : Bytes}

/-! ## Results -/

/-- faults of one kind, whatever they say about it -/
def SameKind : RequestFault → RequestFault → Prop
  | .frame f, .frame g => f.ctorIdx = g.ctorIdx
  | f, g => f.ctorIdx = g.ctorIdx

/-- the same response, or faults of one kind -/
def Alike : Except RequestFault Bytes → Except RequestFault Bytes → Prop
  | .ok adu, .ok other => adu = other
  | .error f, .error g => SameKind f g
  | _, _ => False

theorem SameKind.refl (f : RequestFault) : SameKind f f := by
  cases f <;> rfl

theorem Alike.refl (result : Except RequestFault Bytes) : Alike result result := by
  rcases result with f | adu
  · exact SameKind.refl f
  · rfl

/-- what listening may end with when these bytes come in in time, whatever pieces they come in -/
def MayEnd (unit function : UInt8) (stream : Bytes) (result : Except RequestFault Bytes) : Prop :=
  ∃ detail raw deadline queue now lines, Arrival.timely deadline queue now = stream ∧
    (receive (receiver detail) raw deadline ⟨unit, function, []⟩ queue now lines).result = result

/-! ## Faults of a line -/

theorem decodePairs_ne_tooLarge {text : Bytes} {n : Nat} :
    Hex.decodePairs text ≠ .error (.tooLarge n) := by
  have digits : ∀ c, Hex.value c ≠ .error (.tooLarge n) := by
    intro c h
    rw [Hex.value] at h
    split_ifs at h
    cases h
  intro h
  induction text using List.twoStepInduction with
  | nil => cases h
  | singleton c => cases h
  | cons_cons high low rest ih _ =>
    rcases bind_eq_error h with h | ⟨_, -, h⟩
    · exact digits high h
    rcases bind_eq_error h with h | ⟨_, -, h⟩
    · exact digits low h
    rcases bind_eq_error h with h | ⟨_, -, h⟩
    · exact ih h
    · cases h

/-- The size of a line is no matter of what is in it. -/
theorem parseLine_ne_tooLarge {n : Nat} : parseLine unit function line ≠ .error (.tooLarge n) := by
  intro h
  rw [parseLine] at h
  rcases hbody : afterLastStart line with _ | body
  · rw [hbody] at h
    cases h
  rw [hbody] at h
  dsimp only at h
  rw [pure_bind] at h
  rcases bind_eq_error h with hdecode | ⟨bytes, -, h⟩
  · rw [Hex.decode] at hdecode
    split at hdecode
    · cases hdecode
    · exact decodePairs_ne_tooLarge hdecode
  split at h
  · cases h
  split at h
  · cases h
  rcases bind_eq_error h with hheader | ⟨⟨⟩, -, h⟩
  · obtain ⟨_, h | h⟩ := checkHeader_eq_error hheader <;> cases h
  · cases h

theorem not_alike_tooLarge (n : Nat) :
    ¬ Alike ((parseLine unit function line).mapError .frame) (.error (.frame (.tooLarge n))) := by
  rcases hparse : parseLine unit function line with fault | adu
  · intro (h : fault.ctorIdx = (FrameFault.tooLarge n).ctorIdx)
    cases fault with
    | tooLarge m => exact parseLine_ne_tooLarge hparse
    | _ => cases h
  · exact id

/-! ## Listening piece by piece -/

/-- Without a line feed, and within the limit, one more piece is taken in. -/
theorem fed_piece {taken data : Bytes} {reads : List Bytes} {progress : Progress Listening}
    (unended : lineFeed ∉ taken) (short : taken.length ≤ maxLine) (some : data ≠ [])
    (piece : data.length ≤ maxLine)
    (later : Fed (receiver detail) ⟨unit, function, taken ++ data⟩ reads progress) :
    Fed (receiver detail) ⟨unit, function, taken⟩ (data :: reads) progress := by
  have hask : ((receiver detail).poll ⟨unit, function, taken⟩).1
      = .ask maxLine ⟨unit, function, taken⟩ :=
    (listen_unended unended).trans (if_neg (Nat.not_lt.2 short))
  exact .read hask some (Nat.le_trans piece (Nat.le_max_left ..)) later

/-- What a delivery settles, listening to the line may end with, whatever comes later. -/
theorem mayEnd_of_fed {reads : List Bytes} {settled : Except FrameFault Bytes}
    (fed : Fed (receiver .nothing) ⟨unit, function, []⟩ reads (.done settled)) (later : Bytes) :
    MayEnd unit function (reads.flatten ++ later) (settled.mapError .frame) := by
  refine ⟨.nothing, .nothing, 0, reads.map .bytes ++ [.bytes later], 0, [], ?_,
    receive_of_fed fed rfl ..⟩
  rw [Arrival.timely_pieces]
  exact congrArg (reads.flatten ++ ·) (List.append_nil later)

/-- Two pieces that fill a buffer and some of the next one settle what the bytes of both do. -/
theorem mayEnd_of_two {first second : Bytes} {settled : Except FrameFault Bytes}
    (unended : lineFeed ∉ first) (full : first.length = maxLine) (some : second ≠ [])
    (piece : second.length ≤ maxLine)
    (hlisten : (listen .nothing ⟨unit, function, first ++ second⟩).1 = .done settled)
    (later : Bytes) :
    MayEnd unit function (first ++ second ++ later) (settled.mapError .frame) := by
  have two : Fed (receiver .nothing) ⟨unit, function, []⟩ [first, second] (.done settled) := by
    refine fed_piece List.not_mem_nil (Nat.zero_le _) ?_ (Nat.le_of_eq full) ?_
    · rintro rfl
      cases full
    · exact fed_piece unended (Nat.le_of_eq full) some piece (hlisten ▸ .settled)
  have ends := mayEnd_of_fed two later
  rwa [List.flatten_cons, List.flatten_singleton] at ends

/-- A line of less than two buffers is parsed when the first read takes all that it can. -/
theorem mayEnd_parseLine (first : lineFeed ∉ line) (short : line.length < 2 * maxLine)
    (rest : Bytes) :
    MayEnd unit function (line ++ lineFeed :: rest)
      ((parseLine unit function line).mapError .frame) := by
  rw [List.append_cons]
  have parsed : (listen .nothing ⟨unit, function, line ++ [lineFeed]⟩).1
      = .done (parseLine unit function line) := listen_ended rfl first
  by_cases one : line.length < maxLine
  · have fed : Fed (receiver .nothing) ⟨unit, function, []⟩ [line ++ [lineFeed]]
        (.done (parseLine unit function line)) :=
      fed_piece List.not_mem_nil (Nat.zero_le _) (List.concat_ne_nil _ _)
        (List.length_append.trans_le one) (parsed ▸ .settled)
    have ends := mayEnd_of_fed fed rest
    rwa [List.flatten_singleton] at ends
  · have split : line ++ [lineFeed] = line.take maxLine ++ (line.drop maxLine ++ [lineFeed]) := by
      rw [← List.append_assoc, List.take_append_drop]
    rw [split] at parsed ⊢
    refine mayEnd_of_two (fun hmem => first (List.mem_of_mem_take hmem)) ?_
      (List.concat_ne_nil _ _) ?_ parsed rest
    · rw [List.length_take]
      omega
    · rw [List.length_append, List.length_drop, List.length_singleton]
      omega

/-- A line of more than a buffer is refused when a read ends behind its `n`-th byte. -/
theorem mayEnd_tooLarge {n : Nat} (first : lineFeed ∉ line) (long : maxLine < n)
    (within : n ≤ line.length) (buffers : n ≤ 2 * maxLine) (rest : Bytes) :
    MayEnd unit function (line ++ lineFeed :: rest) (.error (.frame (.tooLarge n))) := by
  have split : line.take n = line.take maxLine ++ (line.drop maxLine).take (n - maxLine) := by
    rw [← List.take_append_drop maxLine (line.take n), List.take_take, List.drop_take,
      Nat.min_eq_left (Nat.le_of_lt long)]
  have hlength : (line.take n).length = n := List.length_take_of_le within
  have unended : lineFeed ∉ line.take n := fun hmem => first (List.mem_of_mem_take hmem)
  have refused : (listen .nothing ⟨unit, function, line.take n⟩).1
      = .done (.error (.tooLarge (line.take n).length)) :=
    (listen_unended unended).trans (if_pos (long.trans_eq hlength.symm))
  rw [hlength, split] at refused
  have ends : MayEnd unit function
      (line.take maxLine ++ (line.drop maxLine).take (n - maxLine)
        ++ (line.drop n ++ lineFeed :: rest)) (.error (.frame (.tooLarge n))) := by
    refine mayEnd_of_two (fun hmem => first (List.mem_of_mem_take hmem)) ?_ ?_ ?_ refused _
    · rw [List.length_take]
      omega
    · rw [Ne, ← List.length_eq_zero_iff, List.length_take, List.length_drop]
      omega
    · rw [List.length_take, List.length_drop]
      omega
  rwa [← split, ← List.append_assoc, List.take_append_drop] at ends

/-- **What listening may end with, given the first line.** A line of less than two buffers may be
parsed, and one of more than a buffer may be refused with the size at which a read came to an end
without the line feed. Nothing else happens, and each of these happens. -/
theorem mayEnd_iff {result : Except RequestFault Bytes} (first : lineFeed ∉ line) :
    MayEnd unit function (line ++ lineFeed :: rest) result ↔
      (line.length < 2 * maxLine ∧ result = (parseLine unit function line).mapError .frame) ∨
      ∃ n, maxLine < n ∧ n ≤ line.length ∧ n ≤ 2 * maxLine ∧
        result = .error (.frame (.tooLarge n)) := by
  constructor
  · rintro ⟨detail, raw, deadline, queue, now, lines, htimely, rfl⟩
    exact receive_of_line htimely first
  · rintro (⟨short, rfl⟩ | ⟨n, long, within, buffers, rfl⟩)
    · exact mayEnd_parseLine first short rest
    · exact mayEnd_tooLarge first long within buffers rest

/-! ## What the pieces decide -/

/-- A line has two digits for every byte that it spells, and a colon. -/
theorem Spells.length_lt {bytes : Bytes} (h : Spells line bytes) :
    2 * bytes.length < line.length := by
  obtain ⟨noise, text, ending, rfl, -, -, digits⟩ := h
  have hlength := congrArg List.length digits
  rw [List.length_map, Hex.length_encode] at hlength
  rw [List.length_append, List.length_cons, List.length_append]
  omega

/-- A line is a response of fewer bytes than two buffers hold as digits. -/
theorem length_le_of_mayEnd {stream : Bytes} (h : MayEnd unit function stream (.ok adu)) :
    Headed unit function adu ∧ adu.length ≤ 511 := by
  obtain ⟨detail, raw, deadline, queue, now, lines, htimely, hresult⟩ := id h
  obtain ⟨line, rest, hstream, first, hparse⟩ := line_of_receive hresult
  obtain ⟨headed, spells⟩ := parseLine_eq_ok_iff_spells.1 hparse
  rw [← htimely, hstream, mayEnd_iff first] at h
  rcases h with ⟨short, -⟩ | ⟨n, -, -, -, hn⟩
  · have digits := spells.length_lt
    rw [List.length_append, List.length_singleton] at digits
    rw [maxLine] at short
    exact ⟨headed, by omega⟩
  · cases hn

/-- The line of a response of 511 bytes is less than two buffers. -/
theorem exists_mayEnd (headed : Headed unit function adu) (short : adu.length ≤ 511) :
    ∃ stream, MayEnd unit function stream (.ok adu) := by
  have digits := Hex.map_upper_encode (adu ++ [lrc adu])
  have spells : Spells (start :: (Hex.encode (adu ++ [lrc adu]) ++ [])) (adu ++ [lrc adu]) :=
    spells_of_digits [] (.inl rfl) digits
  have hparse := parseLine_eq_ok_iff_spells.2 ⟨headed, spells⟩
  rw [List.append_nil] at hparse
  have first : lineFeed ∉ start :: Hex.encode (adu ++ [lrc adu]) := by
    rw [List.mem_cons, not_or]
    exact ⟨by decide, (notMem_digits digits).2.2⟩
  refine ⟨start :: Hex.encode (adu ++ [lrc adu]) ++ [lineFeed],
    (mayEnd_iff first).2 (.inl ⟨?_, ?_⟩)⟩
  · rw [List.length_cons, Hex.length_encode, List.length_append, List.length_singleton, maxLine]
    omega
  · rw [hparse]
    rfl

/-- **The pieces decide nothing exactly if the line keeps the limit or is two buffers long.** In
between, one way to cut it has the line parsed and another one has it refused. So what can be
received is every response to the request of 511 bytes or fewer. -/
theorem result_independent_of_cuts_iff (unit function : UInt8) :
    (∀ line rest, lineFeed ∉ line →
      ((∀ result other, MayEnd unit function (line ++ lineFeed :: rest) result →
          MayEnd unit function (line ++ lineFeed :: rest) other → Alike result other) ↔
        line.length ≤ maxLine ∨ 2 * maxLine ≤ line.length)) ∧
    ∀ adu, (∃ stream, MayEnd unit function stream (.ok adu)) ↔
      Headed unit function adu ∧ adu.length ≤ 511 := by
  refine ⟨fun line rest first => ⟨fun alike => ?_, fun settled result other => ?_⟩, fun adu =>
    ⟨fun ⟨_, h⟩ => length_le_of_mayEnd h, fun ⟨headed, short⟩ => exists_mayEnd headed short⟩⟩
  · by_contra between
    rw [not_or, Nat.not_le, Nat.not_le] at between
    obtain ⟨long, short⟩ := between
    exact not_alike_tooLarge _ (alike _ _ (mayEnd_parseLine first short rest)
      (mayEnd_tooLarge first (Nat.lt_succ_self maxLine) long (by decide) rest))
  · rw [mayEnd_iff first, mayEnd_iff first]
    rintro (⟨short, rfl⟩ | ⟨n, long, within, -, rfl⟩) (⟨short', rfl⟩ | ⟨m, long', within', -, rfl⟩)
    · exact Alike.refl _
    · omega
    · omega
    · rfl

/-! A response of 300 bytes, in a line of 603. -/

namespace Long

def response : Bytes := 17 :: 3 :: List.replicate 298 0

def received : Bytes := start :: Hex.encode (response ++ [lrc response])

theorem long_line_is_parsed_or_refused :
    lineFeed ∉ received ∧
      (¬ ∀ result other, MayEnd 17 3 (received ++ [lineFeed]) result →
        MayEnd 17 3 (received ++ [lineFeed]) other → Alike result other) ∧
      (∃ stream, MayEnd 17 3 stream (.ok response)) ∧ maxAdu < response.length := by
  have first : lineFeed ∉ received := by decide +kernel
  obtain ⟨cuts, responses⟩ := result_independent_of_cuts_iff 17 3
  exact ⟨first, (cuts received [] first).not.2 (by decide +kernel),
    (responses response).2 (by decide +kernel), by decide +kernel⟩

end Long

end BusMaster.Ascii
