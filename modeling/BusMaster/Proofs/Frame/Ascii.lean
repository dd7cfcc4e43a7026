import BusMaster.Frame.Ascii
import BusMaster.Proofs.Addressing
import BusMaster.Proofs.Frame.Reception

/-!
# Responses in text lines

A line is a response when the hex digits behind its last colon stand for unit id, function code and
data with their LRC (`parseLine_eq_ok_iff`). Nothing more is asked of it: the line end says how long
the response is, so its length is not held against what its first bytes say.

What is received is in the first line that comes in (`line_of_receive`), and when that line comes in
it is parsed, unless it is too long (`receive_of_line`). So there is one place in the stream
where a response may begin, and bytes that come later do not change it (`Found.unique`,
`Found.append`).
-/

namespace BusMaster.Ascii

variable {detail : FrameDetail} {unit function : UInt8} {line adu : Bytes}

/-- **A line is a response when the digits behind its last colon are those of the response and of its
LRC.** -/
theorem parseLine_eq_ok_iff :
    parseLine unit function line = .ok adu ↔
      Headed unit function adu ∧ ∃ body, afterLastStart line = some body ∧
        Hex.decode (dropReturn body) = .ok (adu ++ [lrc adu]) := by
  constructor
  · intro h
    rw [parseLine] at h
    rcases hbody : afterLastStart line with _ | body
    · rw [hbody] at h
      cases h
    rw [hbody] at h
    dsimp only at h
    rw [pure_bind] at h
    obtain ⟨bytes, hbytes, h⟩ := bind_eq_ok h
    split at h
    · cases h
    rename_i long
    split at h
    · cases h
    rename_i right
    rw [not_not] at right
    obtain ⟨⟨⟩, hheader, h⟩ := bind_eq_ok h
    obtain rfl := Except.ok.inj h
    rcases List.eq_nil_or_concat' bytes with rfl | ⟨init, last, rfl⟩
    · exact absurd (Nat.zero_lt_succ 2) long
    rw [List.dropLast_concat] at hheader right ⊢
    rw [List.getLastD_concat] at right
    rw [List.length_append, List.length_singleton] at long
    exact ⟨headed_of_checkHeader hheader (by omega), body, rfl, right ▸ hbytes⟩
  · rintro ⟨headed, body, hbody, hbytes⟩
    have long : ¬(adu ++ [lrc adu]).length < 3 := by
      have two := headed.two_le
      rw [List.length_append, List.length_singleton]
      omega
    rw [parseLine, hbody]
    dsimp only
    rw [pure_bind, hbytes]
    dsimp only [bind, Except.bind]
    rw [if_neg long, List.dropLast_concat, List.getLastD_concat, if_neg (not_not_intro rfl),
      headed.check]
    rfl

/-! ## The last colon -/

theorem afterLastStart_eq_none_iff : afterLastStart line = none ↔ start ∉ line := by
  induction line with
  | nil => simp [afterLastStart]
  | cons b rest ih =>
    rw [afterLastStart, List.mem_cons, not_or, ← ih]
    rcases afterLastStart rest with _ | body
    · dsimp only
      split
      · rename_i hb
        simp [hb]
      · rename_i hb
        simp [eq_comm, hb]
    · simp

theorem afterLastStart_append (before : Bytes) {body : Bytes} (last : start ∉ body) :
    afterLastStart (before ++ start :: body) = some body := by
  induction before with
  | nil =>
    rw [List.nil_append, afterLastStart, afterLastStart_eq_none_iff.2 last]
    exact if_pos rfl
  | cons b before ih => rw [List.cons_append, afterLastStart, ih]

theorem exists_of_afterLastStart {body : Bytes} (h : afterLastStart line = some body) :
    ∃ before, line = before ++ start :: body ∧ start ∉ body := by
  induction line with
  | nil => cases h
  | cons b rest ih =>
    rw [afterLastStart] at h
    split at h
    · rename_i body' hrest
      obtain rfl := Option.some.inj h
      obtain ⟨before, hsplit, last⟩ := ih hrest
      exact ⟨b :: before, congrArg (b :: ·) hsplit, last⟩
    · rename_i hrest
      split at h
      · rename_i hb
        obtain rfl := Option.some.inj h
        exact ⟨[], congrArg (· :: rest) hb, afterLastStart_eq_none_iff.1 hrest⟩
      · cases h

/-! ## The first line -/

/-- Bytes have one first line. -/
theorem first_line_unique {line' rest rest' : Bytes}
    (h : line ++ lineFeed :: rest = line' ++ lineFeed :: rest') (first : lineFeed ∉ line)
    (first' : lineFeed ∉ line') : line = line' := by
  have hlength := congrArg (List.idxOf lineFeed) h
  rw [List.idxOf_append_of_notMem first, List.idxOf_append_of_notMem first', List.idxOf_cons_self,
    List.idxOf_cons_self] at hlength
  exact (List.append_inj h hlength).1

theorem findIdx?_lineFeed_eq_none (unended : lineFeed ∉ line) :
    line.findIdx? (· == lineFeed) = none :=
  List.findIdx?_eq_none_iff.2 fun _ hb => beq_false_of_ne fun feed => unended (feed ▸ hb)

/-- The first line is parsed. -/
theorem listen_ended {l : Listening} {rest : Bytes} (hline : l.line = line ++ lineFeed :: rest)
    (first : lineFeed ∉ line) :
    (listen detail l).1 = .done (parseLine l.unit l.function line) := by
  have hlast : l.line.findIdx? (· == lineFeed) = some line.length := by
    rw [hline, List.findIdx?_append, findIdx?_lineFeed_eq_none first, List.findIdx?_cons,
      if_pos (beq_self_eq_true _)]
    exact congrArg some (Nat.zero_add _)
  rw [listen, hlast]
  dsimp only
  rw [hline, List.take_left]
  split
  · rename_i hparse
    rw [hparse]
  · rename_i hparse
    rw [hparse]

/-- Without one more bytes are asked for, until there are too many. -/
theorem listen_unended {l : Listening} (unended : lineFeed ∉ l.line) :
    (listen detail l).1 =
      if maxLine < l.line.length then .done (.error (.tooLarge l.line.length))
      else .ask maxLine l := by
  rw [listen, findIdx?_lineFeed_eq_none unended]
  dsimp only
  split <;> rfl

theorem listen_cases (detail : FrameDetail) (l : Listening) :
    (∃ line rest, l.line = line ++ lineFeed :: rest ∧ lineFeed ∉ line ∧
      (listen detail l).1 = .done (parseLine l.unit l.function line)) ∨
    lineFeed ∉ l.line ∧
      (l.line.length ≤ maxLine ∧ (listen detail l).1 = .ask maxLine l ∨
        maxLine < l.line.length ∧
          (listen detail l).1 = .done (.error (.tooLarge l.line.length))) := by
  by_cases unended : lineFeed ∉ l.line
  · refine .inr ⟨unended, ?_⟩
    rw [listen_unended unended]
    by_cases long : maxLine < l.line.length
    · exact .inr ⟨long, if_pos long⟩
    · exact .inl ⟨Nat.le_of_not_lt long, if_neg long⟩
  · obtain ⟨line, rest, hline, first⟩ := List.eq_append_cons_of_mem (not_not.1 unended)
    exact .inl ⟨line, rest, hline, first, listen_ended hline first⟩

/-- Lines are put together as they come in, within the limit. -/
theorem listen_ask {l asking : Listening} {count : Nat} (h : (listen detail l).1 = .ask count asking) :
    count = maxLine ∧ asking = l ∧ l.line.length ≤ maxLine := by
  rcases listen_cases detail l with ⟨_, _, -, -, hdone⟩ | ⟨-, ⟨short, hask⟩ | ⟨-, hdone⟩⟩
  · cases h.symm.trans hdone
  · obtain ⟨hcount, hasking⟩ := Progress.ask.inj (h.symm.trans hask)
    exact ⟨hcount, hasking, short⟩
  · cases h.symm.trans hdone

/-- A response is in the first line. -/
theorem listen_done {l : Listening} (h : (listen detail l).1 = .done (.ok adu)) :
    ∃ line rest, l.line = line ++ lineFeed :: rest ∧ lineFeed ∉ line ∧
      parseLine l.unit l.function line = .ok adu := by
  rcases listen_cases detail l with ⟨line, rest, hline, first, hdone⟩ |
    ⟨-, ⟨-, hask⟩ | ⟨-, hdone⟩⟩
  · exact ⟨line, rest, hline, first, Progress.done.inj (hdone.symm.trans h)⟩
  · cases h.symm.trans hask
  · cases h.symm.trans hdone

/-- Listening has put together the bytes that it was through with, two buffers of them at most. -/
theorem exists_listened (detail : FrameDetail) (unit function : UInt8) (raw : RawDetail)
    (deadline : Moment) (queue : List Arrival) (now : Moment) (lines : List LogLine) :
    ∃ (taken : Bytes) (progress : Progress Listening),
      taken <+: Arrival.timely deadline queue now ∧ taken.length ≤ 2 * maxLine ∧
      (progress.result? = none → taken = Arrival.timely deadline queue now) ∧
      (listen detail ⟨unit, function, taken⟩).1 = progress ∧
      progress.Ends
        (receive (receiver detail) raw deadline ⟨unit, function, []⟩ queue now lines).result := by
  obtain ⟨reads, progress, ⟨fed, inOrder, all⟩, ends, -⟩ := receive_delivered (receiver detail) raw
    deadline ⟨unit, function, []⟩ queue now lines
  obtain ⟨_, ⟨rfl, buffers⟩, hpoll⟩ := fed.invariant
    (I := fun taken l => l = ⟨unit, function, taken⟩ ∧ taken.length ≤ 2 * maxLine)
    (fun {taken l count asking data} ⟨hl, _⟩ hask piece => by
      subst hl
      obtain ⟨rfl, rfl, (short : taken.length ≤ maxLine)⟩ := listen_ask hask
      refine ⟨rfl, ?_⟩
      rw [Nat.max_eq_left (by decide)] at piece
      rw [List.length_append]
      omega) ⟨rfl, Nat.zero_le _⟩
  exact ⟨reads.flatten, progress, inOrder, buffers, all, hpoll, ends⟩

/-- **What is received is in the first line that comes in.** -/
theorem line_of_receive {raw : RawDetail} {deadline : Moment} {queue : List Arrival}
    {now : Moment} {lines : List LogLine}
    (h : (receive (receiver detail) raw deadline ⟨unit, function, []⟩ queue now lines).result
      = .ok adu) :
    ∃ line rest, Arrival.timely deadline queue now = line ++ lineFeed :: rest ∧ lineFeed ∉ line ∧
      parseLine unit function line = .ok adu := by
  obtain ⟨taken, progress, ⟨more, hmore⟩, -, -, hlisten, ends⟩ :=
    exists_listened detail unit function raw deadline queue now lines
  rw [ends.eq_ok_iff, Progress.result?_eq_some_iff] at h
  obtain ⟨line, rest, hline, first, hparse⟩ := listen_done (hlisten.trans h)
  change taken = _ at hline
  refine ⟨line, rest ++ more, ?_, first, hparse⟩
  rw [← hmore, hline, List.append_assoc]
  rfl

/-- Bytes without a line feed in front of a stream are bytes of its first line. -/
theorem length_le_of_isPrefix {taken rest : Bytes} (h : taken <+: line ++ lineFeed :: rest)
    (unended : lineFeed ∉ taken) : taken.length ≤ line.length := by
  have whole : line ++ [lineFeed] <+: line ++ lineFeed :: rest :=
    (List.prefix_append_right_inj line).2 (List.prefix_append [lineFeed] rest)
  rcases List.prefix_or_prefix_of_prefix h whole with h | h
  · rcases List.prefix_concat_iff.1 h with rfl | h
    · exact absurd (List.mem_append_right line List.mem_cons_self) unended
    · exact h.length_le
  · exact absurd (h.subset (List.mem_append_right line List.mem_cons_self)) unended

/-- **When a whole line comes in, it is parsed or it is too long.** It is parsed only if it is less
than two buffers long, and it is too long at `n` bytes only if these are bytes of the line. -/
theorem receive_of_line {raw : RawDetail} {deadline : Moment} {queue : List Arrival}
    {now : Moment} {lines : List LogLine} {rest : Bytes}
    (hline : Arrival.timely deadline queue now = line ++ lineFeed :: rest)
    (first : lineFeed ∉ line) :
    line.length < 2 * maxLine ∧
        (receive (receiver detail) raw deadline ⟨unit, function, []⟩ queue now lines).result
          = (parseLine unit function line).mapError .frame ∨
      ∃ n, maxLine < n ∧ n ≤ line.length ∧ n ≤ 2 * maxLine ∧
        (receive (receiver detail) raw deadline ⟨unit, function, []⟩ queue now lines).result
          = .error (.frame (.tooLarge n)) := by
  obtain ⟨taken, progress, inOrder, buffers, all, hlisten, ends⟩ :=
    exists_listened detail unit function raw deadline queue now lines
  generalize (receive (receiver detail) raw deadline ⟨unit, function, []⟩ queue now lines).result
    = result at ends ⊢
  rw [hline] at inOrder all
  rcases listen_cases detail ⟨unit, function, taken⟩ with ⟨line', rest', hline', first', hdone⟩ |
    ⟨unended, ⟨-, hask⟩ | ⟨long, hdone⟩⟩
  · -- the line feed has come in, so the line is one of fewer bytes than were taken
    change taken = _ at hline'
    obtain ⟨more, hmore⟩ := inOrder
    rw [hline', List.append_assoc, List.cons_append] at hmore
    obtain rfl := first_line_unique hmore first' first
    rw [hlisten.symm.trans hdone] at ends
    cases ends
    rw [hline', List.length_append, List.length_cons] at buffers
    exact .inl ⟨by omega, rfl⟩
  · -- all bytes were taken, and the end of the line is among them
    rw [hlisten.symm.trans hask] at all
    have hall := all rfl
    exact absurd (hall ▸ List.mem_append_right line List.mem_cons_self) unended
  · rw [hlisten.symm.trans hdone] at ends
    cases ends
    exact .inr ⟨_, long, length_le_of_isPrefix inOrder unended, buffers, rfl⟩

/-- the first line of the stream is a response, and its last colon stands behind so many bytes -/
inductive Found (unit function : UInt8) (adu : Bytes) : Nat → Bytes → Prop where
  | line {before body rest : Bytes} :
    lineFeed ∉ before ++ start :: body → start ∉ body →
    parseLine unit function (before ++ start :: body) = .ok adu →
    Found unit function adu before.length (before ++ start :: body ++ lineFeed :: rest)

theorem exists_found_iff {stream : Bytes} : (∃ k, Found unit function adu k stream) ↔
    ∃ line rest, stream = line ++ lineFeed :: rest ∧ lineFeed ∉ line ∧
      parseLine unit function line = .ok adu := by
  constructor
  · rintro ⟨_, first, -, hparse⟩
    exact ⟨_, _, rfl, first, hparse⟩
  · rintro ⟨line, rest, rfl, first, hparse⟩
    obtain ⟨-, body, hbody, -⟩ := parseLine_eq_ok_iff.1 hparse
    obtain ⟨before, rfl, last⟩ := exists_of_afterLastStart hbody
    exact ⟨before.length, .line first last hparse⟩

/-- The first line is one response, at one place. -/
theorem Found.unique {stream adu' : Bytes} {k k' : Nat} (h : Found unit function adu k stream)
    (h' : Found unit function adu' k' stream) : adu = adu' ∧ k = k' := by
  obtain @⟨before, body, rest, first, last, hparse⟩ := h
  generalize hstream : before ++ start :: body ++ lineFeed :: rest = stream at h'
  obtain @⟨before', body', rest', first', last', hparse'⟩ := h'
  have hline := first_line_unique hstream first first'
  rw [hline] at hparse
  have hbody : body = body' := by
    have h := afterLastStart_append before last
    rw [hline, afterLastStart_append before' last'] at h
    exact (Option.some.inj h).symm
  refine ⟨Except.ok.inj (hparse.symm.trans hparse'), ?_⟩
  have hlength := congrArg List.length hline
  rw [List.length_append, List.length_append, hbody] at hlength
  exact Nat.add_right_cancel hlength

/-- It stays the first one when more bytes come in. -/
theorem Found.append {stream : Bytes} {k : Nat} (h : Found unit function adu k stream)
    (more : Bytes) : Found unit function adu k (stream ++ more) := by
  obtain ⟨first, last, hparse⟩ := h
  rw [List.append_assoc, List.cons_append]
  exact .line first last hparse

end BusMaster.Ascii
