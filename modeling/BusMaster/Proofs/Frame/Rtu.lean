import BusMaster.Frame.Rtu
import BusMaster.Proofs.Checksum
import BusMaster.Proofs.Frame.Reception

/-!
# Binary frames among other bytes

What the receiver says of the first bytes of a candidate it says for good: bytes that cannot start
a response cannot start one when more have come in, and a complete response stays the response it
is (`judge_append_of_reject`, `judge_eq_complete_iff`). So bytes that come in later change nothing
that was settled before (`hunt_push`), and the outcome depends on the bytes alone, not on how
they were cut into reads (`reception_independent_of_cuts`).

What is found is a response that stands somewhere in the stream, behind no more bytes than may be
dropped; and a response behind bytes that do not look like its beginning is found
(`frame_found_behind_noise`).
-/

namespace BusMaster.Rtu

variable {unit function : UInt8} {rx adu : Bytes} {fault : FrameFault}

/-! ## One candidate -/

theorem validate_eq_ok_iff {frame : Bytes} : validate frame = .ok adu ↔ frame = appendCrc adu := by
  rw [appendCrc_eq, ← splitCrc_eq_some_iff, validate]
  constructor
  · intro h
    split at h
    · cases h
    · rename_i body received hsplit
      dsimp only at h
      split at h
      · rename_i hcrc
        obtain rfl := Except.ok.inj h
        rw [hsplit, hcrc]
      · cases h
  · intro h
    rw [h]
    exact if_pos rfl

/-- **Bytes are complete when a response with its CRC stands at their beginning.** -/
theorem judge_eq_complete_iff :
    judge unit function rx = .complete adu ↔
      Response unit function adu ∧ appendCrc adu <+: rx := by
  constructor
  · intro h
    rw [judge] at h
    split at h
    · cases h
    rename_i hheader
    split at h
    · cases h
    · cases h
    rename_i n hn
    split at h
    · cases h
    rename_i long
    split at h
    · rename_i adu' hvalid
      obtain rfl := Verdict.complete.inj h
      have hframe := validate_eq_ok_iff.1 hvalid
      have hrx : appendCrc adu' <+: rx := hframe ▸ List.take_prefix ..
      have hadu : adu' <+: rx := (List.prefix_append ..).trans hrx
      obtain rfl : n = adu'.length := by
        have hlength := congrArg List.length hframe
        rw [length_appendCrc, List.length_take] at hlength
        omega
      exact ⟨⟨headed_of_checkHeader (checkHeader_of_isPrefix hadu hheader)
        (two_le_responseLength hn), responseLength_whole hadu hn⟩, hrx⟩
    · cases h
  · rintro ⟨h, hframe⟩
    have hadu : adu <+: rx := (List.prefix_append ..).trans hframe
    have long : ¬rx.length < adu.length + 2 := by
      rw [← length_appendCrc, Nat.not_lt]
      exact hframe.length_le
    have htake : rx.take (adu.length + 2) = appendCrc adu := by
      rw [← length_appendCrc]
      exact (List.prefix_iff_eq_take.1 hframe).symm
    rw [judge, (h.toHeaded.of_isPrefix hadu).check]
    dsimp only
    rw [responseLength_exact_of_isPrefix hadu h.whole]
    dsimp only
    rw [if_neg long, htake, validate_eq_ok_iff.2 rfl]

/-- Bytes that cannot start a response cannot start one with more bytes. -/
theorem judge_append_of_reject (h : judge unit function rx = .reject fault) (more : Bytes) :
    ∃ later, judge unit function (rx ++ more) = .reject later := by
  have hrx : rx <+: rx ++ more := List.prefix_append ..
  rw [judge]
  rcases hheader : checkHeader unit function (rx ++ more) with later | ⟨⟨⟩⟩
  · exact ⟨later, rfl⟩
  rw [judge, checkHeader_of_isPrefix hrx hheader] at h
  dsimp only at h ⊢
  split at h
  · rename_i fault' hlength
    obtain ⟨later, hlater⟩ := responseLength_error_of_isPrefix hrx hlength
    rw [hlater]
    exact ⟨later, rfl⟩
  · cases h
  rename_i n hn
  split at h
  · cases h
  rename_i long
  rw [Nat.not_lt] at long
  rw [responseLength_exact_of_isPrefix hrx hn]
  dsimp only
  rw [if_neg (by rw [List.length_append]; omega), List.take_append_of_le_length long]
  split at h
  · cases h
  · exact ⟨_, rfl⟩

/-- No bytes may be the beginning of anything. -/
theorem length_pos_of_reject (h : judge unit function rx = .reject fault) : 0 < rx.length := by
  rcases rx with _ | ⟨b, rest⟩
  · cases h
  · exact Nat.zero_lt_succ _

/-! ## The hunt -/

variable {detail : FrameDetail} {dropped : Nat}

theorem hunt_of_complete (found : judge unit function rx = .complete adu) :
    (hunt detail ⟨unit, function, rx, dropped⟩).1 = .done (.ok adu) := by
  rw [hunt, found]

theorem hunt_of_limit (rejected : judge unit function rx = .reject fault)
    (limit : maxDropped ≤ dropped) :
    (hunt detail ⟨unit, function, rx, dropped⟩).1 = .done (.error .resyncLimit) := by
  rw [hunt, rejected]
  dsimp only
  rw [dif_pos limit]

theorem hunt_of_reject (rejected : judge unit function rx = .reject fault)
    (more : ¬maxDropped ≤ dropped) :
    (hunt detail ⟨unit, function, rx, dropped⟩).1
      = (hunt detail ⟨unit, function, rx.drop 1, dropped + 1⟩).1 := by
  rw [hunt, rejected]
  dsimp only
  rw [dif_neg more]

/-- **What was settled is not changed by bytes that come in later**, and a receiver that asked for
more goes on as if it had had them from the first. -/
theorem hunt_push (detail : FrameDetail) (h : Hunt) (more : Bytes) :
    (∀ result, (hunt detail h).1 = .done result →
      (hunt detail ((receiver detail).push h more)).1 = .done result) ∧
    ∀ count asking, (hunt detail h).1 = .ask count asking →
      (hunt detail ((receiver detail).push h more)).1
        = (hunt detail ((receiver detail).push asking more)).1 := by
  fun_induction hunt detail h with
  | case1 h adu found =>
    obtain ⟨response, hframe⟩ := judge_eq_complete_iff.1 found
    have found' : judge h.unit h.function (h.rx ++ more) = .complete adu :=
      judge_eq_complete_iff.2 ⟨response, hframe.trans (List.prefix_append ..)⟩
    refine ⟨fun result hresult => ?_, fun count asking hask => ?_⟩
    · obtain rfl := Progress.done.inj hresult
      exact hunt_of_complete found'
    · cases hask
  | case2 h count needed =>
    refine ⟨fun result hresult => ?_, fun count asking hask => ?_⟩
    · cases hresult
    · obtain ⟨-, rfl⟩ := Progress.ask.inj hask
      rfl
  | case3 h fault rejected limit =>
    obtain ⟨later, hlater⟩ := judge_append_of_reject rejected more
    refine ⟨fun result hresult => ?_, fun count asking hask => ?_⟩
    · obtain rfl := Progress.done.inj hresult
      exact hunt_of_limit hlater limit
    · cases hask
  | case4 h fault rejected limit progress lines hprogress ih =>
    obtain ⟨later, hlater⟩ := judge_append_of_reject rejected more
    -- the byte that goes is one of the old ones, so dropping it and taking in bytes commute
    have dropping : (hunt detail ((receiver detail).push h more)).1 = (hunt detail
        ((receiver detail).push { h with rx := h.rx.drop 1, dropped := h.dropped + 1 } more)).1 := by
      refine (hunt_of_reject hlater limit).trans ?_
      rw [List.drop_append_of_le_length (length_pos_of_reject rejected)]
      rfl
    rw [hprogress] at ih
    rw [dropping]
    exact ih

theorem push_nil (detail : FrameDetail) (h : Hunt) : (receiver detail).push h [] = h := by
  simp only [receiver, List.append_nil]

/-- What is made of the reads of a delivery is what is made of all bytes at once. -/
theorem result?_of_delivered {h : Hunt} {stream : Bytes} {reads : List Bytes}
    {progress : Progress Hunt} (delivered : Delivered (receiver detail) h stream reads progress) :
    progress.result? = (hunt detail ((receiver detail).push h stream)).1.result? := by
  obtain ⟨fed, inOrder, all⟩ := delivered
  induction fed generalizing stream with
  | @settled h =>
    -- either all bytes are taken, or those that are left change nothing
    change (hunt detail h).1.result? = none → _ at all
    change (hunt detail h).1.result? = _
    rcases hprogress : (hunt detail h).1 with ⟨count, asking⟩ | result
    · rw [hprogress] at all
      obtain rfl := all rfl
      rw [List.flatten_nil, push_nil, hprogress]
    · rw [(hunt_push detail h stream).1 result hprogress]
  | @read h asking count data reads progress hask _ _ _ ih =>
    obtain ⟨rest, rfl⟩ := inOrder
    rw [List.flatten_cons, List.append_assoc] at all ⊢
    have later := ih (List.prefix_append ..) fun hnone => List.append_cancel_left (all hnone)
    rw [later, (hunt_push detail h _).2 count asking hask]
    simp only [receiver, List.append_assoc]

/-- A hunt ends with a response or at its limit. -/
theorem result?_hunt (detail : FrameDetail) (h : Hunt) :
    (hunt detail h).1.result? = none ∨ (hunt detail h).1.result? = some (.error .resyncLimit) ∨
      ∃ adu, (hunt detail h).1.result? = some (.ok adu) := by
  fun_induction hunt detail h with
  | case1 h adu found => exact .inr (.inr ⟨adu, rfl⟩)
  | case2 => exact .inl rfl
  | case3 => exact .inr (.inl rfl)
  | case4 h fault rejected limit progress lines hprogress ih =>
    rw [hprogress] at ih
    exact ih

/-- **However the bytes that come in are cut into reads, the outcome is that of all of them at
once:** a response, the limit of what may be dropped, or that all bytes are taken and more are asked
for. Listening to a line is one way to cut them. -/
theorem reception_independent_of_cuts (detail : FrameDetail) (unit function : UInt8)
    (stream : Bytes) :
    ∃ outcome : Option (Except FrameFault Bytes),
      (outcome = none ∨ outcome = some (.error .resyncLimit) ∨ ∃ adu, outcome = some (.ok adu)) ∧
      (hunt detail ⟨unit, function, stream, 0⟩).1.result? = outcome ∧
      (∀ reads progress,
        Delivered (receiver detail) ⟨unit, function, [], 0⟩ stream reads progress →
          progress.result? = outcome) ∧
      ∀ raw deadline queue now lines, Arrival.timely deadline queue now = stream →
        ∃ reads progress,
          Delivered (receiver detail) ⟨unit, function, [], 0⟩ stream reads progress ∧
          progress.Ends (receive (receiver detail) raw deadline ⟨unit, function, [], 0⟩ queue now
            lines).result := by
  refine ⟨_, result?_hunt detail _, rfl, fun reads progress delivered => ?_,
    fun raw deadline queue now lines htimely => ?_⟩
  · exact result?_of_delivered delivered
  · obtain ⟨reads, progress, delivered, ends, -⟩ := receive_delivered (receiver detail) raw deadline
      ⟨unit, function, [], 0⟩ queue now lines
    exact ⟨reads, progress, htimely ▸ delivered, ends⟩

/-! ## What is found -/

/-- the first response stands behind so many bytes that cannot start one -/
inductive Found (unit function : UInt8) (adu : Bytes) : Nat → Bytes → Prop where
  | here {rx : Bytes} :
    judge unit function rx = .complete adu → Found unit function adu 0 rx
  | behind {rx : Bytes} {fault : FrameFault} {k : Nat} :
    judge unit function rx = .reject fault → Found unit function adu k (rx.drop 1) →
    Found unit function adu (k + 1) rx

theorem Found.judge_drop {k : Nat} (h : Found unit function adu k rx) :
    judge unit function (rx.drop k) = .complete adu := by
  induction h with
  | here found => exact found
  | behind _ _ ih => rwa [List.drop_drop, Nat.add_comm] at ih

theorem found_of_rejects {k : Nat}
    (rejects : ∀ i < k, ∃ fault, judge unit function (rx.drop i) = .reject fault)
    (found : judge unit function (rx.drop k) = .complete adu) : Found unit function adu k rx := by
  induction k generalizing rx with
  | zero => exact .here found
  | succ k ih =>
    obtain ⟨fault, hfault⟩ := rejects 0 (Nat.zero_lt_succ k)
    refine .behind hfault (ih (fun i hi => ?_) ?_)
    · rw [List.drop_drop, Nat.add_comm]
      exact rejects (i + 1) (Nat.succ_lt_succ hi)
    · rwa [List.drop_drop, Nat.add_comm]

/-- What is found is a response, and its frame stands where it was found. -/
theorem Found.frame {k : Nat} (h : Found unit function adu k rx) :
    Response unit function adu ∧ appendCrc adu <+: rx.drop k :=
  judge_eq_complete_iff.1 h.judge_drop

/-- The first response is one response, at one place. -/
theorem Found.unique {adu' : Bytes} {k k' : Nat} (h : Found unit function adu k rx)
    (h' : Found unit function adu' k' rx) : adu = adu' ∧ k = k' := by
  induction h generalizing k' with
  | here found =>
    cases h' with
    | here found' => exact ⟨Verdict.complete.inj (found.symm.trans found'), rfl⟩
    | behind rejected _ => cases found.symm.trans rejected
  | behind rejected _ ih =>
    cases h' with
    | here found' => cases rejected.symm.trans found'
    | behind _ later =>
      obtain ⟨hadu, hk⟩ := ih later
      exact ⟨hadu, congrArg (· + 1) hk⟩

/-- It stays the first one when more bytes come in. -/
theorem Found.append {k : Nat} (h : Found unit function adu k rx) (more : Bytes) :
    Found unit function adu k (rx ++ more) := by
  induction h with
  | here found =>
    obtain ⟨response, hframe⟩ := judge_eq_complete_iff.1 found
    exact .here (judge_eq_complete_iff.2 ⟨response, hframe.trans (List.prefix_append ..)⟩)
  | behind rejected _ ih =>
    obtain ⟨later, hlater⟩ := judge_append_of_reject rejected more
    refine .behind hlater ?_
    rwa [List.drop_append_of_le_length (length_pos_of_reject rejected)]

/-- A hunt ends with the first response, if it stands behind no more bytes than may be dropped. -/
theorem hunt_eq_done_iff {h : Hunt} (few : h.dropped ≤ maxDropped) :
    (hunt detail h).1 = .done (.ok adu) ↔
      ∃ k, h.dropped + k ≤ maxDropped ∧ Found h.unit h.function adu k h.rx := by
  fun_induction hunt detail h with
  | case1 h adu' complete =>
    constructor
    · intro hdone
      cases hdone
      exact ⟨0, few, .here complete⟩
    · rintro ⟨k, -, found | ⟨rejected, -⟩⟩
      · rw [Verdict.complete.inj (complete.symm.trans found)]
      · cases complete.symm.trans rejected
  | case2 h count needed =>
    constructor
    · intro hdone
      cases hdone
    · rintro ⟨k, -, found | ⟨rejected, -⟩⟩
      · cases needed.symm.trans found
      · cases needed.symm.trans rejected
  | case3 h fault rejected limit =>
    constructor
    · intro hdone
      cases hdone
    · rintro ⟨k, hk, found | ⟨-, -⟩⟩
      · cases rejected.symm.trans found
      · omega
  | case4 h fault rejected limit progress lines hprogress ih =>
    rw [hprogress] at ih
    refine (ih (Nat.lt_of_not_le limit)).trans ⟨?_, ?_⟩
    · rintro ⟨k, hk, found⟩
      change h.dropped + 1 + k ≤ maxDropped at hk
      exact ⟨k + 1, by omega, .behind rejected found⟩
    · rintro ⟨_, hk, found | @⟨_, _, k, _, found⟩⟩
      · cases rejected.symm.trans found
      · refine ⟨k, ?_, found⟩
        change h.dropped + 1 + k ≤ maxDropped
        omega

/-- What listening comes to stands in the bytes that come in time. -/
theorem receive_eq_ok_iff {raw : RawDetail} {deadline : Moment} {queue : List Arrival}
    {now : Moment} {lines : List LogLine} :
    (receive (receiver detail) raw deadline ⟨unit, function, [], 0⟩ queue now lines).result = .ok adu
      ↔ ∃ k ≤ maxDropped, Found unit function adu k (Arrival.timely deadline queue now) := by
  obtain ⟨reads, progress, delivered, ends, -⟩ := receive_delivered (receiver detail) raw deadline
    ⟨unit, function, [], 0⟩ queue now lines
  rw [ends.eq_ok_iff, result?_of_delivered delivered, Progress.result?_eq_some_iff]
  refine (hunt_eq_done_iff (Nat.zero_le _)).trans ?_
  simp [receiver]

/-- What is received in a binary frame is a response, whatever comes in. -/
theorem response_of_receive {raw : RawDetail} {deadline : Moment} {queue : List Arrival}
    {now : Moment} {lines : List LogLine}
    (h : (receive (receiver detail) raw deadline ⟨unit, function, [], 0⟩ queue now lines).result
      = .ok adu) : Response unit function adu := by
  obtain ⟨k, -, found⟩ := receive_eq_ok_iff.1 h
  exact found.frame.1

/-- Bytes that do not show unit id and function code cannot start a response. -/
theorem reject_of_not_headed (two : 2 ≤ rx.length) (other : ¬Headed unit function rx) :
    ∃ fault, judge unit function rx = .reject fault := by
  rw [judge]
  rcases hheader : checkHeader unit function rx with fault | ⟨⟨⟩⟩
  · exact ⟨fault, rfl⟩
  · exact absurd (headed_of_checkHeader hheader two) other

/-- **What is received is a response that stands in the stream with its CRC, behind no more than 64
bytes; and a response behind no more than 64 bytes that nowhere show its beginning is received.** -/
theorem frame_found_behind_noise (detail : FrameDetail) (unit function : UInt8) (raw : RawDetail)
    (deadline : Moment) (queue : List Arrival) (now : Moment) (lines : List LogLine) :
    (∀ adu,
      (receive (receiver detail) raw deadline ⟨unit, function, [], 0⟩ queue now lines).result
          = .ok adu →
        ∃ noise rest, Arrival.timely deadline queue now = noise ++ appendCrc adu ++ rest ∧
          noise.length ≤ 64 ∧ adu.length ≤ 254 ∧ Response unit function adu) ∧
    ∀ noise adu rest, Arrival.timely deadline queue now = noise ++ appendCrc adu ++ rest →
      noise.length ≤ 64 → Response unit function adu →
      (∀ i < noise.length, ¬Headed unit function ((noise ++ appendCrc adu ++ rest).drop i)) →
        (receive (receiver detail) raw deadline ⟨unit, function, [], 0⟩ queue now lines).result
          = .ok adu := by
  constructor
  · intro adu hresult
    obtain ⟨k, hk, found⟩ := receive_eq_ok_iff.1 hresult
    obtain ⟨response, rest, hrest⟩ := found.frame
    refine ⟨(Arrival.timely deadline queue now).take k, rest, ?_, ?_,
      le_of_responseLength response.whole, response⟩
    · rw [List.append_assoc, hrest, List.take_append_drop]
    · exact Nat.le_trans (List.length_take_le ..) hk
  · intro noise adu rest htimely few response others
    refine receive_eq_ok_iff.2 ⟨noise.length, few, ?_⟩
    rw [htimely]
    refine found_of_rejects (fun i hi => reject_of_not_headed ?_ (others i hi)) ?_
    · rw [List.length_drop, List.length_append, List.length_append, length_appendCrc]
      omega
    · rw [List.append_assoc, List.drop_left]
      exact judge_eq_complete_iff.2 ⟨response, List.prefix_append ..⟩

/-! ## As much noise as may be -/

namespace Noise

/-- 64 bytes that stand for nothing -/
def noise : Bytes := List.replicate 64 0x55

/-- one register of unit 17 -/
def response : Bytes := [17, 3, 2, 0, 42]

theorem response_whole : Response 17 3 response := ⟨⟨rfl, .inl rfl⟩, rfl⟩

/-- One byte of noise more, and it would be too much. -/
theorem response_found :
    (receive (receiver .nothing) .nothing 1000 ⟨17, 3, [], 0⟩
        [.bytes (noise ++ appendCrc response)] 0 []).result = .ok response ∧
      (receive (receiver .nothing) .nothing 1000 ⟨17, 3, [], 0⟩
        [.bytes (0x55 :: noise ++ appendCrc response)] 0 []).result
          = .error (.frame .resyncLimit) := by
  refine ⟨?_, by decide +kernel⟩
  refine (frame_found_behind_noise .nothing 17 3 .nothing 1000 _ 0 []).2 noise response [] ?_ ?_
    response_whole ?_
  · simp [Arrival.timely]
  · decide
  · decide +kernel

end Noise

end BusMaster.Rtu
