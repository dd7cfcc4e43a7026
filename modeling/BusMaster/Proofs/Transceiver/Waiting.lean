import BusMaster.Proofs.Transceiver.Exception

/-!
# Bytes that wait for an exchange

When the frame of a request goes out, bytes may wait on the line: the response to an earlier request
that came in after its deadline, or what was left of one. An exchange reads them first
(`Transceiver.waiting_append_fresh`). Binary frames and text lines do not say which request they
answer, so what counts is where in these bytes the first response stands (`Framing.Finds`): a
response comes from the bytes that came in after the request as long as none begins among those that
waited, and one that waited as a whole is the result whatever comes in (`responses_are_fresh_iff`).
-/

namespace BusMaster

/-- the first response to a request stands behind so many bytes of a stream, for a framing without
ids -/
def Framing.Finds (framing : Framing) (request adu : Bytes) (k : Nat) (stream : Bytes) : Prop :=
  match framing with
  | .rtu => k ≤ Rtu.maxDropped ∧ Rtu.Found (request.getD 0 0) (request.getD 1 0) adu k stream
  | .ascii => Ascii.Found (request.getD 0 0) (request.getD 1 0) adu k stream
  | .bridge => False

namespace Framing.Finds

variable {framing : Framing} {request adu adu' stream : Bytes} {k k' : Nat}

/-- The first response is one response, at one place. -/
theorem unique (h : framing.Finds request adu k stream) (h' : framing.Finds request adu' k' stream) :
    adu = adu' ∧ k = k' := by
  cases framing with
  | rtu => exact h.2.unique h'.2
  | ascii => exact Ascii.Found.unique h h'
  | bridge => exact h.elim

/-- It stays the first one when more bytes come in. -/
theorem append (h : framing.Finds request adu k stream) (more : Bytes) :
    framing.Finds request adu k (stream ++ more) := by
  cases framing with
  | rtu => exact ⟨h.1, h.2.append more⟩
  | ascii => exact Ascii.Found.append h more
  | bridge => exact h

/-- It begins within the stream. -/
theorem lt_length (h : framing.Finds request adu k stream) : k < stream.length := by
  cases framing with
  | rtu =>
    obtain ⟨-, hframe⟩ := h.2.frame
    have hle := hframe.length_le
    rw [length_appendCrc, List.length_drop] at hle
    omega
  | ascii =>
    cases h
    rw [List.length_append, List.length_append, List.length_cons, List.length_cons]
    omega
  | bridge => exact h.elim

end Framing.Finds

namespace Transceiver

variable {t t' : Transceiver} {request adu : Bytes}

/-! ## Before and after the request -/

/-- the bytes that can be read at once when the frame of a request goes out -/
def waiting (t : Transceiver) (request : Bytes) : Bytes :=
  match t.begin request true with
  | (.waiting p, _) => t.line.elim [] fun line => Arrival.timely p.since line.incoming p.since
  | (.finished _, _) => []

/-- the bytes that come in afterwards, in time for the response -/
def fresh (t : Transceiver) (request : Bytes) : Bytes :=
  (t.inTime request).drop (t.waiting request).length

/-- The deadline is not over when listening begins. -/
theorem since_le_deadline {reply : Bool} {p : Pending}
    (h : t.begin request reply = (.waiting p, t')) : p.since ≤ p.deadline := by
  have begins := t.begins request reply
  rw [h] at begins
  cases begins with
  | answered => exact Nat.le_add_right ..

/-- The bytes that wait come in time for the response, in front of all others. -/
theorem waiting_isPrefix (t : Transceiver) (request : Bytes) :
    t.waiting request <+: t.inTime request := by
  rw [waiting, inTime]
  rcases hbegin : t.begin request true with ⟨result | p, t'⟩
  · exact List.nil_prefix
  obtain ⟨line, line', hline, hwrite, hline', -⟩ := begin_waiting hbegin
  obtain ⟨more, hmore⟩ := Line.incoming_write hwrite
  dsimp only
  rw [hline, hline', Option.elim_some, Option.elim_some, hmore]
  exact Arrival.timely_isPrefix (since_le_deadline hbegin) ..

theorem waiting_append_fresh (t : Transceiver) (request : Bytes) :
    t.waiting request ++ t.fresh request = t.inTime request :=
  List.prefix_iff_eq_append.1 (t.waiting_isPrefix request)

/-! ## The response that is found -/

/-- the exchange fails on a line that is too long -/
def Overlong (t : Transceiver) (request : Bytes) : Prop :=
  ∃ n, (t.transact request).1 = .error (.frame (.tooLarge n))

/-- the response begins among the bytes that waited -/
def FromWaiting (t : Transceiver) (request adu : Bytes) : Prop :=
  ∃ k < (t.waiting request).length,
    t.settings.framing.Finds request adu k (t.waiting request ++ t.fresh request)

/-- the response begins behind the bytes that waited -/
def FromFresh (t : Transceiver) (request adu : Bytes) : Prop :=
  ∃ k, (t.waiting request).length ≤ k ∧
    t.settings.framing.Finds request adu k (t.waiting request ++ t.fresh request)

/-- What is handed over is the first response in the bytes that come in time. -/
theorem received_eq_ok_iff (unnumbered : t.settings.framing ≠ .bridge) :
    t.received request = .ok adu ↔ (∀ n, t.received request ≠ .error (.frame (.tooLarge n))) ∧
      ∃ k, t.settings.framing.Finds request adu k (t.inTime request) := by
  rcases t.received_cases request with ⟨hnone, fault, hfault, -⟩ |
    ⟨t', p, line, hsettings, hrequest, htimely, hlisten⟩
  · rw [hfault, hnone]
    constructor
    · intro h
      cases h
    · rintro ⟨-, k, finds⟩
      exact absurd finds.lt_length (Nat.not_lt_zero k)
  rw [hlisten, htimely, listen, hrequest, hsettings]
  rcases hframing : t.settings.framing
  case rtu =>
    constructor
    · intro h
      refine ⟨fun n hn => ?_, Rtu.receive_eq_ok_iff.1 h⟩
      cases h.symm.trans hn
    · rintro ⟨-, found⟩
      exact Rtu.receive_eq_ok_iff.2 found
  case ascii =>
    constructor
    · intro h
      refine ⟨fun n hn => ?_, Ascii.exists_found_iff.2 (Ascii.line_of_receive h)⟩
      cases h.symm.trans hn
    · rintro ⟨short, found⟩
      obtain ⟨line, rest, hline, first, hparse⟩ := Ascii.exists_found_iff.1 found
      rcases Ascii.receive_of_line hline first with ⟨-, h⟩ | ⟨n, -, -, -, hn⟩
      · rw [hparse] at h
        exact h
      · exact absurd hn (short n)
  case bridge => exact absurd hframing unnumbered

theorem tooLarge_transact_iff {n : Nat} :
    (t.transact request).1 = .error (.frame (.tooLarge n)) ↔
      t.received request = .error (.frame (.tooLarge n)) := by
  rw [transact_eq_received]
  rcases t.received request with fault | adu
  · exact Iff.rfl
  · constructor
    · intro h
      change checkException adu = _ at h
      rw [checkException.eq_def] at h
      split at h
      · split at h <;> cases h
      · cases h
    · intro h
      cases h

/-- An exchange ends with the first response in the bytes that come in time, or with the fault that
it stands for. -/
theorem transact_of_finds (unnumbered : t.settings.framing ≠ .bridge) (short : ¬t.Overlong request)
    {k : Nat} (finds : t.settings.framing.Finds request adu k (t.inTime request)) :
    (t.transact request).1 = checkException adu := by
  have hreceived : t.received request = .ok adu :=
    (received_eq_ok_iff unnumbered).2
      ⟨fun n h => short ⟨n, tooLarge_transact_iff.2 h⟩, k, finds⟩
  rw [transact_eq_received, hreceived]
  rfl

/-- What is handed out is the first response among the one or the other bytes, and no exception. -/
theorem transact_eq_ok_iff (unnumbered : t.settings.framing ≠ .bridge) :
    (t.transact request).1 = .ok adu ↔ ¬t.Overlong request ∧ checkException adu = .ok adu ∧
      (t.FromWaiting request adu ∨ t.FromFresh request adu) := by
  constructor
  · intro h
    have short : ¬t.Overlong request := fun ⟨n, hn⟩ => by cases h.symm.trans hn
    rw [transact_eq_received] at h
    rcases hreceived : t.received request with fault | adu'
    · rw [hreceived] at h
      cases h
    rw [hreceived] at h
    obtain rfl : adu' = adu := eq_of_checkException h
    obtain ⟨k, finds⟩ := ((received_eq_ok_iff unnumbered).1 hreceived).2
    rw [← waiting_append_fresh] at finds
    refine ⟨short, h, ?_⟩
    rcases Nat.lt_or_ge k (t.waiting request).length with early | late
    · exact .inl ⟨k, early, finds⟩
    · exact .inr ⟨k, late, finds⟩
  · rintro ⟨short, data, ⟨k, -, finds⟩ | ⟨k, -, finds⟩⟩ <;>
    · rw [waiting_append_fresh] at finds
      rw [transact_of_finds unnumbered short finds, data]

/-- There is one place where the first response begins. -/
theorem FromWaiting.not_fromFresh {adu' : Bytes} (h : t.FromWaiting request adu) :
    ¬t.FromFresh request adu' := by
  rintro ⟨k', late, finds'⟩
  obtain ⟨k, early, finds⟩ := h
  obtain rfl := (finds.unique finds').2
  exact absurd early (Nat.not_lt.2 late)

end Transceiver

open Transceiver

/-- **A response comes from the bytes that came in after its request as long as none begins among
those that waited.** For every exchange behind every run of others: an exchange without ids hands out
the first response in the bytes that waited and those that came in afterwards, in this order. So all
that it hands out came in afterwards if and only if no response begins among the bytes that waited,
and a response that waited as a whole is the result whatever comes in. -/
theorem responses_are_fresh_iff (t : Transceiver) (unnumbered : t.settings.framing ≠ .bridge)
    (before : List Exchange) (request : Bytes) :
    (t.performAll before).inTime request =
        (t.performAll before).waiting request ++ (t.performAll before).fresh request ∧
      (∀ adu, ((t.performAll before).transact request).1 = .ok adu ↔
        ¬(t.performAll before).Overlong request ∧ checkException adu = .ok adu ∧
          ((t.performAll before).FromWaiting request adu ∨
            (t.performAll before).FromFresh request adu)) ∧
      ((∀ adu, ((t.performAll before).transact request).1 = .ok adu →
          (t.performAll before).FromFresh request adu) ↔
        ∀ adu, (t.performAll before).FromWaiting request adu → checkException adu = .ok adu →
          (t.performAll before).Overlong request) ∧
      ∀ adu k, t.settings.framing.Finds request adu k ((t.performAll before).waiting request) →
        ¬(t.performAll before).Overlong request →
          ((t.performAll before).transact request).1 = checkException adu := by
  have hsettings := t.settings_performAll before
  generalize t.performAll before = s at hsettings ⊢
  rw [← hsettings] at unnumbered ⊢
  have hsplit := s.waiting_append_fresh request
  refine ⟨hsplit.symm, fun adu => transact_eq_ok_iff unnumbered,
    ⟨fun allFresh adu fromWaiting data => ?_, fun noneWaits adu h => ?_⟩,
    fun adu k finds short => ?_⟩
  · by_contra short
    have returned := (transact_eq_ok_iff unnumbered).2 ⟨short, data, .inl fromWaiting⟩
    exact fromWaiting.not_fromFresh (allFresh adu returned)
  · obtain ⟨short, data, fromWaiting | fromFresh⟩ := (transact_eq_ok_iff unnumbered).1 h
    · exact absurd (noneWaits adu fromWaiting data) short
    · exact fromFresh
  · exact transact_of_finds unnumbered short (hsplit ▸ finds.append (s.fresh request))

/-! ## An answer that comes a request late

The line rests for a second between two exchanges. The response to the first request comes in while
it does.
-/

namespace Belated

/-- read one register of unit 17 -/
def request : Bytes := [17, 3, 0, 0, 0, 1]

/-- the response to the first request -/
def late : Bytes := [17, 3, 2, 0, 42]

/-- the response to the second one -/
def own : Bytes := [17, 3, 2, 0, 85]

def line : Line where
  writes := [.taken [.pause 1500000000, .bytes (appendCrc late)], .taken [.bytes (appendCrc own)]]

def transceiver : Transceiver where
  settings := {
    framing := .rtu
    endpoint := .serial "/dev/bus" {}
    pacing := some 1000000000 }
  line := some line
  state := .connected

/-- The second exchange ends with the response to the first request, though its own is there. -/
theorem late_response_is_returned :
    transceiver.settings.framing ≠ .bridge ∧
      (transceiver.transact request).1 = .error .noReply ∧
      ((transceiver.performAll [.transact request]).transact request).1 = .ok late ∧
      ¬∀ adu, ((transceiver.performAll [.transact request]).transact request).1 = .ok adu →
        (transceiver.performAll [.transact request]).FromFresh request adu := by
  have waiting : (transceiver.performAll [.transact request]).waiting request = appendCrc late := by
    decide +kernel
  have returned : ((transceiver.performAll [.transact request]).transact request).1 = .ok late := by
    decide +kernel
  obtain ⟨-, -, fresh, -⟩ := responses_are_fresh_iff transceiver (by decide) [.transact request]
    request
  refine ⟨by decide, by decide +kernel, returned, fun allFresh => ?_⟩
  have found : Rtu.Found 17 3 late 0 (appendCrc late) :=
    .here (Rtu.judge_eq_complete_iff.2 ⟨⟨⟨rfl, .inl rfl⟩, rfl⟩, List.prefix_rfl⟩)
  have fromWaiting : (transceiver.performAll [.transact request]).FromWaiting request late := by
    refine ⟨0, ?_, ?_⟩
    · rw [waiting]
      decide
    · rw [settings_performAll, waiting]
      exact ⟨Nat.zero_le _, found.append _⟩
  obtain ⟨n, hn⟩ := fresh.1 allFresh late fromWaiting (by decide)
  cases returned.symm.trans hn

end Belated

end BusMaster
