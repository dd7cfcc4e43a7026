import Mathlib.Data.List.Basic
import BusMaster.Link.Line

/-!
# What a line brings

A line brings its bytes in one order, whatever the reads ask for: the bytes of a read and those
still to come after it are the bytes that were to come before it (`Arrival.hear_data`). Some of them
are timely, the ones that reads up to a deadline can bring, and those stay in front of all that comes
later (`Arrival.timely_isPrefix`). A read that ends in silence has left nothing timely behind
(`Arrival.hear_silence`). A write changes what is to come first, and not what the line brings in all
(`Line.write_stream`).
-/

namespace BusMaster

namespace Arrival

/-- the bytes of one arrival -/
def data : Arrival → Bytes
  | .bytes data => data
  | _ => []

/-- the bytes still to come -/
def content (queue : List Arrival) : Bytes := queue.flatMap data

/-- the bytes that reads from `now` on can bring up to the deadline -/
def timely (deadline : Moment) : List Arrival → Moment → Bytes
  | [], _ => []
  | .bytes data :: rest, now => data ++ timely deadline rest now
  | .finish :: _, _ => []
  | .fault _ :: _, _ => []
  | .pause length :: rest, now =>
    if now + length ≤ deadline then timely deadline rest (now + length) else []
  | .readableFrom moment :: rest, now =>
    if moment ≤ max now deadline then timely deadline rest (max now moment) else []

theorem content_append (first second : List Arrival) :
    content (first ++ second) = content first ++ content second := List.flatMap_append

theorem content_putBack (data : Bytes) (n : Nat) (rest : List Arrival) :
    content (putBack data n rest) = data.drop n ++ content rest := by
  rw [putBack]
  split
  · rename_i short
    rw [List.drop_eq_nil_of_le short, List.nil_append]
  · rfl

theorem timely_putBack (deadline : Moment) (data : Bytes) (n : Nat) (rest : List Arrival)
    (now : Moment) :
    timely deadline (putBack data n rest) now = data.drop n ++ timely deadline rest now := by
  rw [putBack]
  split
  · rename_i short
    rw [List.drop_eq_nil_of_le short, List.nil_append]
  · rfl

/-- What comes in time comes in time for a later deadline too, with more behind it. -/
theorem timely_isPrefix {early late : Moment} (h : early ≤ late) (queue more : List Arrival)
    (now : Moment) : timely early queue now <+: timely late (queue ++ more) now := by
  induction queue generalizing now with
  | nil => exact List.nil_prefix
  | cons arrival queue ih =>
    rw [List.cons_append]
    cases arrival with
    | bytes data => exact (List.prefix_append_right_inj data).2 (ih now)
    | finish => exact List.nil_prefix
    | fault f => exact List.nil_prefix
    | pause length =>
      rw [timely, timely]
      split
      · rename_i due
        rw [if_pos (Nat.le_trans due h)]
        exact ih _
      · exact List.nil_prefix
    | readableFrom moment =>
      rw [timely, timely]
      split
      · rename_i due
        have later : max now early ≤ max now late :=
          Nat.max_le.2 ⟨Nat.le_max_left .., Nat.le_trans h (Nat.le_max_right ..)⟩
        rw [if_pos (Nat.le_trans due later)]
        exact ih _
      · exact List.nil_prefix

/-- Pieces that can be read at once are timely. -/
theorem timely_pieces (deadline : Moment) (pieces : List Bytes) (queue : List Arrival)
    (now : Moment) :
    timely deadline (pieces.map .bytes ++ queue) now = pieces.flatten ++ timely deadline queue now := by
  induction pieces with
  | nil => rfl
  | cons piece pieces ih =>
    rw [List.map_cons, List.cons_append, timely, ih, List.flatten_cons, List.append_assoc]

variable {count : Nat} {deadline : Moment} {queue rest : List Arrival} {now moment : Moment}

/-- A read brings the next bytes, some of the timely ones, and no more than were asked for. -/
theorem hear_data {data : Bytes} (h : hear count deadline queue now = ⟨.data data, rest, moment⟩) :
    data ≠ [] ∧ data.length ≤ max count 1 ∧ content queue = data ++ content rest ∧
      timely deadline queue now = data ++ timely deadline rest moment := by
  fun_induction hear count deadline queue now with
  | case2 piece queue now hempty ih =>
    obtain rfl := List.isEmpty_iff.1 hempty
    exact ih h
  | case3 piece queue now hempty =>
    obtain ⟨hheard, rfl, rfl⟩ := Hearing.mk.inj h
    obtain rfl := Heard.data.inj hheard
    have hpiece : piece ≠ [] := fun hnil => hempty (List.isEmpty_iff.2 hnil)
    have hpos : 0 < max count 1 := Nat.lt_of_lt_of_le Nat.zero_lt_one (Nat.le_max_right ..)
    refine ⟨?_, List.length_take_le .., ?_, ?_⟩
    · rw [Ne, List.take_eq_nil_iff]
      rintro (hzero | hnil)
      · exact Nat.ne_of_gt hpos hzero
      · exact hpiece hnil
    · rw [content_putBack, ← List.append_assoc, List.take_append_drop]
      rfl
    · rw [timely_putBack, ← List.append_assoc, List.take_append_drop]
      rfl
  | case6 length queue now hdue ih =>
    rw [timely, if_pos hdue]
    exact ih h
  | case8 start queue now hdue ih =>
    rw [timely, if_pos hdue]
    exact ih h
  | _ => cases h

/-- A read that nothing comes to leaves everything where it is. -/
theorem hear_silence (h : hear count deadline queue now = ⟨.silence, rest, moment⟩) :
    timely deadline queue now = [] ∧ content rest = content queue := by
  fun_induction hear count deadline queue now with
  | case1 now =>
    obtain ⟨-, rfl, -⟩ := Hearing.mk.inj h
    exact ⟨rfl, rfl⟩
  | case2 piece queue now hempty ih =>
    obtain rfl := List.isEmpty_iff.1 hempty
    exact ih h
  | case6 length queue now hdue ih =>
    rw [timely, if_pos hdue]
    exact ih h
  | case7 length queue now hdue =>
    obtain ⟨-, rfl, -⟩ := Hearing.mk.inj h
    exact ⟨if_neg hdue, rfl⟩
  | case8 start queue now hdue ih =>
    rw [timely, if_pos hdue]
    exact ih h
  | case9 start queue now hdue =>
    obtain ⟨-, rfl, -⟩ := Hearing.mk.inj h
    exact ⟨if_neg hdue, rfl⟩
  | _ => cases h

/-- A read that fails takes no bytes. -/
theorem content_of_hear_failed {f : LinkFault}
    (h : hear count deadline queue now = ⟨.failed f, rest, moment⟩) :
    content rest = content queue := by
  fun_induction hear count deadline queue now with
  | case2 piece queue now hempty ih =>
    obtain rfl := List.isEmpty_iff.1 hempty
    exact ih h
  | case4 queue now =>
    obtain ⟨-, rfl, -⟩ := Hearing.mk.inj h
    rfl
  | case5 f queue now =>
    obtain ⟨-, rfl, -⟩ := Hearing.mk.inj h
    rfl
  | case6 length queue now hdue ih => exact ih h
  | case8 start queue now hdue ih => exact ih h
  | _ => cases h

/-- A read fails when nothing timely is left before the fault. -/
theorem hear_failed {f : LinkFault}
    (h : hear count deadline queue now = ⟨.failed f, rest, moment⟩) :
    timely deadline queue now = [] := by
  fun_induction hear count deadline queue now with
  | case2 piece queue now hempty ih =>
    obtain rfl := List.isEmpty_iff.1 hempty
    exact ih h
  | case4 => rfl
  | case5 => rfl
  | case6 length queue now hdue ih =>
    rw [timely, if_pos hdue]
    exact ih h
  | case8 start queue now hdue ih =>
    rw [timely, if_pos hdue]
    exact ih h
  | _ => cases h

end Arrival

/-- the bytes of the answer to a write -/
def WriteOutcome.content : WriteOutcome → Bytes
  | .taken arrivals => Arrival.content arrivals
  | .refused _ => []

/-- all bytes that a line brings, those in answer to later writes too -/
def Line.stream (line : Line) : Bytes :=
  Arrival.content line.incoming ++ line.writes.flatMap WriteOutcome.content

/-- A write does not change what the line brings. -/
theorem Line.write_stream {line line' : Line} (h : line.write = .ok line') :
    line'.stream = line.stream := by
  rw [Line.write] at h
  split at h
  · split at h
    · cases h
    · obtain rfl := Except.ok.inj h
      rfl
  · cases h
  · rename_i arrivals rest hwrites
    obtain rfl := Except.ok.inj h
    rw [Line.stream, Line.stream, Arrival.content_append, hwrites, List.flatMap_cons,
      List.append_assoc]
    rfl

/-- What comes in answer to a write comes behind all that was to come. -/
theorem Line.incoming_write {line line' : Line} (h : line.write = .ok line') :
    ∃ more, line'.incoming = line.incoming ++ more := by
  rw [Line.write] at h
  split at h
  · split at h
    · cases h
    · obtain rfl := Except.ok.inj h
      exact ⟨[], (List.append_nil _).symm⟩
  · cases h
  · rename_i arrivals rest _
    obtain rfl := Except.ok.inj h
    exact ⟨arrivals, rfl⟩

end BusMaster
