import BusMaster.Proofs.Frame.Rtu

/-!
# How much a receiver takes

A hunt keeps what it took in, except for the bytes it dropped, and asks for some of the bytes that
what it keeps still needs to be a frame (`hunt_asks`). So what it keeps has room in a frame for what
it asks for, and the buffer never grows beyond one; and no more than 64 bytes are dropped. What is
true before a read is true after it (`Kept.read`), so it is true of a whole course of reads
(`Kept.of_reached`), and listening to a line is such a course (`receive_reached`). A hunt that took
320 bytes has a full buffer, which leaves nothing to ask for: it is through
(`reception_is_bounded`).
-/

namespace BusMaster

variable {σ : Type}

/-- a receiver that took in some bytes, in reads of no more than it asked for, is in a state -/
inductive Reached (receiver : Receiver σ) (start : σ) : Bytes → σ → Prop where
  | start : Reached receiver start [] start
  | read {taken data : Bytes} {state asking : σ} {count : Nat} :
    Reached receiver start taken state → (receiver.poll state).1 = .ask count asking →
    data.length ≤ max count 1 →
    Reached receiver start (taken ++ data) (receiver.push asking data)

/-- Listening to a line is a course of reads, and ends as the receiver is then. The bytes behind
those taken are still to come. -/
theorem receive_reached (receiver : Receiver σ) (raw : RawDetail) (deadline : Moment) (state : σ)
    (queue : List Arrival) (now : Moment) (lines : List LogLine) :
    ∃ taken last, Reached receiver state taken last ∧
      (receiver.poll last).1.Ends
        (receive receiver raw deadline state queue now lines).result ∧
      Arrival.content queue = taken ++
        Arrival.content (receive receiver raw deadline state queue now lines).rest := by
  obtain ⟨reads, progress, ⟨fed, -, -⟩, ends, hcontent⟩ :=
    receive_delivered receiver raw deadline state queue now lines
  obtain ⟨last, reached, rfl⟩ := fed.invariant (I := Reached receiver state) .read .start
  exact ⟨reads.flatten, last, reached, ends, hcontent⟩

namespace Rtu

variable {detail : FrameDetail} {unit function : UInt8} {rx taken : Bytes} {count : Nat}
  {h asking : Hunt}

/-! ## What is asked for -/

/-- a read asks for some of the bytes that a candidate still needs, and for no more than there is
room for in a frame -/
structure Modest (candidate : Bytes) (count : Nat) : Prop where
  some : 0 < count
  room : candidate.length + count ≤ maxFrame
  needed : ∃ l, responseLength candidate = .ok l ∧ candidate.length + count ≤ l.bytes + 2

/-- Whatever the candidate turns out to be, no byte behind it is asked for. -/
theorem Modest.le_frame (modest : Modest rx count) {more : Bytes} {n : Nat}
    (whole : responseLength (rx ++ more) = .ok (.exact n)) : rx.length + count ≤ n + 2 := by
  obtain ⟨l, hl, needed⟩ := modest.needed
  have told := responseLength_told (List.prefix_append rx more)
  rw [hl, whole] at told
  have hle : l.bytes ≤ n := told.bytes_le
  omega

/-- What a candidate lacks is there to be asked for, and a frame has room for it. -/
theorem modest_of_need (h : judge unit function rx = .need count) : Modest rx count := by
  have longest : maxAdu + 2 = maxFrame := rfl
  rw [judge] at h
  split at h
  · cases h
  split at h
  · cases h
  · rename_i n hn
    have told := responseLength_told (List.prefix_refl rx)
    rw [hn] at told
    cases told with
    | atLeast more small =>
      obtain rfl := Verdict.need.inj h
      exact ⟨by omega, by omega, _, hn, by simp only [Length.bytes]; omega⟩
  · rename_i n hn
    have small := le_of_responseLength hn
    split at h
    · obtain rfl := Verdict.need.inj h
      exact ⟨by omega, by omega, _, hn, by simp only [Length.bytes]; omega⟩
    · split at h <;> cases h

/-! ## What is kept -/

/-- a hunt keeps what it took in, in a buffer with room for one frame, except for the first bytes,
of which it dropped as many as it may at most -/
structure Kept (taken : Bytes) (h : Hunt) : Prop where
  rx : h.rx = taken.drop h.dropped
  dropped_le : h.dropped ≤ taken.length
  buffer : h.rx.length ≤ maxFrame
  few : h.dropped ≤ maxDropped

/-- What was taken in is in the buffer or dropped. -/
theorem Kept.length_eq (kept : Kept taken h) : taken.length = h.rx.length + h.dropped := by
  have hrx := congrArg List.length kept.rx
  rw [List.length_drop] at hrx
  have := kept.dropped_le
  omega

theorem Kept.length_le (kept : Kept taken h) : taken.length ≤ maxFrame + maxDropped := by
  rw [kept.length_eq]
  exact Nat.add_le_add kept.buffer kept.few

/-- **A hunt that asks keeps all that it did not drop, and asks for bytes that it needs.** -/
theorem hunt_asks (kept : Kept taken h) (hask : (hunt detail h).1 = .ask count asking) :
    Kept taken asking ∧ Modest asking.rx count := by
  fun_induction hunt detail h with
  | case1 => cases hask
  | case2 h needs needed =>
    obtain ⟨rfl, rfl⟩ := Progress.ask.inj hask
    have modest := modest_of_need needed
    have within : needs ≤ maxFrame := Nat.le_trans (Nat.le_add_left ..) modest.room
    rw [Nat.min_eq_left within]
    exact ⟨kept, modest⟩
  | case3 => cases hask
  | case4 h fault rejected limit progress lines hprogress ih =>
    rw [hprogress] at ih
    -- the byte that is dropped was there: no bytes at all are not rejected
    have some := length_pos_of_reject rejected
    refine ih ⟨?_, ?_, ?_, ?_⟩ hask
    · dsimp only
      rw [kept.rx, List.drop_drop]
    · have := kept.length_eq
      dsimp only
      omega
    · exact Nat.le_trans (by simp) kept.buffer
    · exact Nat.lt_of_not_le limit

/-- **A read of no more than was asked for has room in the buffer.** -/
theorem Kept.read (kept : Kept taken h) (hask : (hunt detail h).1 = .ask count asking)
    {data : Bytes} (hdata : data.length ≤ max count 1) :
    Kept (taken ++ data) ((receiver detail).push asking data) := by
  obtain ⟨kept, modest⟩ := hunt_asks kept hask
  refine ⟨?_, ?_, ?_, kept.few⟩
  · change asking.rx ++ data = (taken ++ data).drop asking.dropped
    rw [List.drop_append_of_le_length kept.dropped_le, kept.rx]
  · rw [List.length_append]
    exact Nat.le_trans kept.dropped_le (Nat.le_add_right ..)
  · have some := modest.some
    have room := modest.room
    simp only [receiver, List.length_append]
    omega

/-- Whatever is read, and however it is cut into reads, the buffer has room for it. -/
theorem Kept.of_reached
    (reached : Reached (receiver detail) ⟨unit, function, [], 0⟩ taken h) : Kept taken h := by
  induction reached with
  | start => exact ⟨rfl, Nat.zero_le _, Nat.zero_le _, Nat.zero_le _⟩
  | read _ hask hdata ih => exact ih.read hask hdata

/-- A hunt that has taken all it can take asks for nothing more. -/
theorem Kept.length_lt (kept : Kept taken h) (hask : (hunt detail h).1 = .ask count asking) :
    taken.length < maxFrame + maxDropped := by
  obtain ⟨kept, modest⟩ := hunt_asks kept hask
  have some := modest.some
  have room := modest.room
  have few := kept.few
  rw [kept.length_eq]
  omega

/-- **Reception is bounded.** Whatever bytes come in, and however they are cut into reads, the
buffer holds no more than 256 of them; each read asks for some, for no more than 256, and for no
more than what came in behind the dropped bytes still needs to be a frame, whatever frame that turns
out to be; and when 320 bytes were taken there is a response or the hunt is given up. Listening to a
line takes bytes in such a course, whatever the line brings. -/
theorem reception_is_bounded (detail : FrameDetail) (unit function : UInt8) :
    (∀ taken h, Reached (receiver detail) ⟨unit, function, [], 0⟩ taken h →
      h.rx.length ≤ 256 ∧ taken.length ≤ 320 ∧
      (∀ count asking, (hunt detail h).1 = .ask count asking →
        taken.length < 320 ∧ asking.rx = taken.drop asking.dropped ∧
        0 < count ∧ count ≤ 256 ∧ asking.rx.length + count ≤ 256 ∧
        (∃ l, responseLength asking.rx = .ok l ∧ asking.rx.length + count ≤ l.bytes + 2) ∧
        ∀ more n, responseLength (asking.rx ++ more) = .ok (.exact n) →
          asking.rx.length + count ≤ n + 2) ∧
      (taken.length = 320 → (hunt detail h).1 = .done (.error .resyncLimit) ∨
        ∃ adu, (hunt detail h).1 = .done (.ok adu))) ∧
    ∀ raw deadline queue now lines,
      ∃ taken h, Reached (receiver detail) ⟨unit, function, [], 0⟩ taken h ∧
        taken.length ≤ 320 ∧
        (hunt detail h).1.Ends (receive (receiver detail) raw deadline ⟨unit, function, [], 0⟩
          queue now lines).result ∧
        Arrival.content queue = taken ++ Arrival.content (receive (receiver detail) raw deadline
          ⟨unit, function, [], 0⟩ queue now lines).rest := by
  constructor
  · intro taken h reached
    have kept := Kept.of_reached reached
    refine ⟨kept.buffer, kept.length_le, fun count asking hask => ?_, fun full => ?_⟩
    · obtain ⟨kept', modest⟩ := hunt_asks kept hask
      have within : count ≤ 256 := Nat.le_trans (Nat.le_add_left ..) modest.room
      exact ⟨kept.length_lt hask, kept'.rx, modest.some, within, modest.room, modest.needed,
        fun more n whole => modest.le_frame whole⟩
    · rcases hprogress : (hunt detail h).1 with ⟨count, asking⟩ | result
      · exact absurd full (Nat.ne_of_lt (kept.length_lt hprogress))
      · have ended := result?_hunt detail h
        rw [hprogress] at ended
        simpa [Progress.result?] using ended
  · intro raw deadline queue now lines
    obtain ⟨taken, h, reached, ends, hcontent⟩ := receive_reached (receiver detail) raw deadline
      ⟨unit, function, [], 0⟩ queue now lines
    exact ⟨taken, h, reached, (Kept.of_reached reached).length_le, ends, hcontent⟩

/-! ## A full buffer -/

namespace Brim

deriving instance DecidableEq for Progress

/-- 64 bytes that look like a response until all of them have come in -/
def noise : Bytes := [17, 3, 59] ++ List.replicate 61 0x55

/-- 256 bytes that look like the longest response, 125 registers and one byte -/
def frame : Bytes := [17, 3, 251] ++ List.replicate 253 0

theorem reached_noise :
    Reached (receiver .nothing) ⟨17, 3, [], 0⟩ noise ⟨17, 3, noise, 0⟩ := by
  have header := @Reached.read _ (receiver .nothing) ⟨17, 3, [], 0⟩ [] [17, 3] _ ⟨17, 3, [], 0⟩ 2
    .start (by decide +kernel) (by decide)
  have counted := @Reached.read _ _ _ _ [59] _ ⟨17, 3, [17, 3], 0⟩ 1 header
    (by decide +kernel) (by decide)
  exact @Reached.read _ _ _ _ (noise.drop 3) _ ⟨17, 3, [17, 3, 59], 0⟩ 61 counted
    (by decide +kernel) (by decide)

theorem reached_counted :
    Reached (receiver .nothing) ⟨17, 3, [], 0⟩ (noise ++ [17, 3] ++ [251])
      ⟨17, 3, [17, 3, 251], 64⟩ := by
  have header := @Reached.read _ _ _ _ [17, 3] _ ⟨17, 3, [], 64⟩ 2 reached_noise
    (by decide +kernel) (by decide)
  exact @Reached.read _ _ _ _ [251] _ ⟨17, 3, [17, 3], 64⟩ 1 header (by decide +kernel) (by decide)

/-- All that may be dropped was dropped, and the last read fills the buffer. -/
theorem brim_is_reached :
    let counted : Hunt := ⟨17, 3, [17, 3, 251], 64⟩
    let full : Hunt := ⟨17, 3, frame, 64⟩
    (hunt .nothing counted).1 = .ask 253 counted ∧ counted.rx.length + 253 ≤ 254 + 2 ∧
      Reached (receiver .nothing) ⟨17, 3, [], 0⟩ (noise ++ frame) full ∧
      (noise ++ frame).length = 320 ∧ full.rx.length ≤ 256 ∧
      ((hunt .nothing full).1 = .done (.error .resyncLimit) ∨
        ∃ adu, (hunt .nothing full).1 = .done (.ok adu)) := by
  intro counted full
  have bounded := (reception_is_bounded .nothing 17 3).1
  have hask : (hunt .nothing counted).1 = .ask 253 counted := by decide +kernel
  obtain ⟨-, -, asks, -⟩ := bounded _ _ reached_counted
  obtain ⟨-, -, -, -, -, -, needed⟩ := asks 253 counted hask
  have reached : Reached (receiver .nothing) ⟨17, 3, [], 0⟩ (noise ++ frame) full :=
    @Reached.read _ _ _ _ (List.replicate 253 0) _ counted 253 reached_counted hask
      (by decide +kernel)
  have all : (noise ++ frame).length = 320 := by decide +kernel
  obtain ⟨buffer, -, -, through⟩ := bounded _ _ reached
  exact ⟨hask, needed [] 254 (by decide), reached, all, buffer, through all⟩

end Brim

end Rtu

end BusMaster
