import Mathlib.Data.List.Induction
import BusMaster.Proofs.Frame.Bridge
import BusMaster.Proofs.Transceiver.Exchange

/-!
# Alignment behind a bridge

The bytes that a line behind a bridge brings are frames. An exchange reads from where the one before
it stopped. It stops at the end of a frame if it is answered; if it times out, it has taken all that
came in time, and what it has of a frame that was not complete is lost. So exchanges start at the
beginning of a frame as long as those that timed out had whole frames only
(`exchanges_start_at_frames_iff`), and not otherwise: the rest of a response that came in late is
taken for the beginning of the next one (`Divided.late_rest_is_misread`).
-/

namespace BusMaster

open Bridge

/-- what is done with an open link -/
inductive Exchange where
  | transact (request : Bytes)
  | send (request : Bytes)
  /-- so many nanoseconds pass -/
  | pass (length : Nat)
  deriving Repr

/-- the frame is the response to a request, or its refusal -/
def Bridge.Frame.Answers (f : Frame) (id : UInt16) (request : Bytes) : Prop :=
  f.id = id ∧ f.body[0]? = request[0]? ∧
    (f.body[1]? = request[1]? ∨ f.body[1]? = request[1]?.map (· ||| FunctionCode.exceptionBit))

namespace Transceiver

/-- the transceiver after an exchange -/
def perform (t : Transceiver) : Exchange → Transceiver
  | .transact request => (t.transact request).2
  | .send request => (t.send request).2
  | .pass length => t.advanceTo (t.now + length)

/-- the transceiver after exchanges -/
def performAll (t : Transceiver) (xs : List Exchange) : Transceiver := xs.foldl perform t

/-- the bytes that come in time for the response to a request -/
def inTime (t : Transceiver) (request : Bytes) : Bytes :=
  match t.begin request true with
  | (.waiting p, t) => t.line.elim [] fun line => Arrival.timely p.deadline line.incoming p.since
  | (.finished _, _) => []

/-- the exchange ends at its deadline -/
def TimesOut (t : Transceiver) : Exchange → Prop
  | .transact request => (t.transact request).1 = .error .noReply
  | _ => False

/-- whole frames were read of what the line brings -/
def AtFrame (stream : Bytes) (t : Transceiver) : Prop :=
  ∀ line, t.line = some line → ∃ read, Whole read ∧ stream = read ++ line.stream

/-- the receiver of the response to a request -/
def receiverOf (p : Pending) : Waiting := ⟨p.id, p.request.getD 0 0, p.request.getD 1 0, []⟩

variable {t : Transceiver} {request : Bytes} {stream : Bytes}

/-- A receiver listens for the response to a request that went out. -/
structure Listens (t : Transceiver) (request : Bytes) (line : Line) (p : Pending) (r : Reception) :
    Prop where
  stream : ∃ before, t.line = some before ∧ line.stream = before.stream
  id : p.id = t.nextId
  asked : p.request = request
  checked : checkRequest request = .ok ()
  sent : (t.transact request).2.frames = frameOf t.settings.framing t.nextId request :: t.frames
  inTime : t.inTime request = Arrival.timely p.deadline line.incoming p.since
  heard : ∃ detail raw, r = receive (Bridge.receiver detail) raw p.deadline (receiverOf p)
    line.incoming p.since []
  result : (t.transact request).1 = r.result.bind checkException
  closed : ∀ f, r.result = .error (.link f) → (t.transact request).2.line = none
  kept : (∀ f, r.result.bind checkException ≠ .error (.link f)) →
    (t.transact request).2.line = some { line with incoming := r.rest }

/-- An exchange is over with its beginning, or a receiver listens for the response. -/
theorem transact_cases (bridge : t.settings.framing = .bridge) (request : Bytes) :
    (t.inTime request = [] ∧ t.Keeps (t.transact request).2 ∧
      ∃ fault, (t.transact request).1 = .error fault ∧ t.Unsent request fault) ∨
      ∃ line p r, t.Listens request line p r := by
  rcases hbegin : t.begin request true with ⟨result | p, t'⟩
  · obtain ⟨hline, -, unsent, failed⟩ := begin_finished hbegin
    obtain ⟨fault, hfault⟩ := failed rfl
    rw [transact, inTime, hbegin]
    exact .inl ⟨rfl, hline, fault, hfault, unsent fault hfault⟩
  · obtain ⟨line, line', hline, hwrite, hline', hsettings, hrequest, hid, hchecked, hframes⟩ :=
      begin_waiting hbegin
    have htransact : t.transact request = t'.finish p := by rw [transact, hbegin]
    refine .inr ⟨line', p, t'.listen p line'.incoming, ⟨line, hline, Line.write_stream hwrite⟩, hid,
      hrequest, hchecked, ?_, ?_, ⟨t'.detail.frame, t'.detail.raw, ?_⟩, ?_, fun f hf => ?_,
      fun hlink => ?_⟩
    · rw [htransact, (t'.quiet_finish p).frames, hframes]
    · rw [inTime, hbegin]
      dsimp only
      rw [hline', Option.elim_some]
    · rw [listen, hsettings, bridge]
      rfl
    · rw [htransact, finish, hline']
    · rw [htransact, finish, hline']
      dsimp only
      rw [hf]
      exact line_conclude_link _ f
    · rw [htransact, finish, hline']
      dsimp only
      rw [line_conclude hlink, line_note]

theorem checkException_ne (adu : Bytes) :
    checkException adu ≠ .error .noReply ∧ ∀ f, checkException adu ≠ .error (.link f) := by
  rw [checkException.eq_def]
  split
  · split <;> simp
  · simp

/-- What is not an exception is handed on as it is. -/
theorem eq_of_checkException {adu adu' : Bytes} (h : checkException adu = .ok adu') :
    adu = adu' := by
  rw [checkException.eq_def] at h
  split at h
  · split at h
    · cases h
    · exact Except.ok.inj h
  · exact Except.ok.inj h

theorem answer_ne (w : Waiting) (f : Frame) :
    ((w.answer f).mapError .frame).bind checkException ≠ .error .noReply ∧
      ∀ l, ((w.answer f).mapError .frame).bind checkException ≠ .error (.link l) := by
  rcases w.answer f with fault | adu
  · simp [Except.mapError, Except.bind]
  · exact checkException_ne adu

theorem atFrame_iff {line : Line} (hline : t.line = some line) :
    AtFrame stream t ↔ ∃ read, Whole read ∧ stream = read ++ line.stream := by
  constructor
  · intro h
    exact h line hline
  · rintro h line' hline'
    obtain rfl := Option.some.inj (hline.symm.trans hline')
    exact h

/-- Nothing is read from a closed line. -/
theorem atFrame_of_closed (hline : t.line = none) : AtFrame stream t := by
  intro line hline'
  cases hline.symm.trans hline'

theorem AtFrame.keeps (start : AtFrame stream t) {t' : Transceiver} (h : t.Keeps t') :
    AtFrame stream t' := by
  rcases h with hnone | ⟨line, line', hline, hline', hstream⟩
  · exact atFrame_of_closed hnone
  · rw [atFrame_iff hline', hstream]
    exact start line hline

/-- Bytes that are to come behind whole frames are whole frames. -/
theorem AtFrame.whole (h : AtFrame stream t) (whole : Whole stream) {line : Line}
    (hline : t.line = some line) : Whole line.stream := by
  obtain ⟨read, hread, rfl⟩ := h line hline
  exact whole.cancel hread

/-- The outcome of listening from the beginning of a frame on. -/
theorem Listens.outcome {line : Line} {p : Pending} {r : Reception} (h : t.Listens request line p r)
    (whole : ∀ line, t.line = some line → Whole line.stream) :
    ∃ fs, Outcome (receiverOf p) fs p.deadline line.incoming p.since r := by
  obtain ⟨before, hbefore, hstream⟩ := h.stream
  obtain ⟨fs, hfs⟩ := hstream ▸ whole before hbefore
  obtain ⟨detail, raw, hr⟩ := h.heard
  refine ⟨fs, hr ▸ receive_outcome ?_ ?_⟩
  · cases fs with
    | nil => rfl
    | cons f fs => exact List.nil_prefix
  · rw [← hfs, Line.stream]
    exact List.prefix_append ..

/-- **An exchange that starts at the beginning of a frame stops at the end of one, unless it times
out with a part of a frame.** -/
theorem atFrame_transact_iff (bridge : t.settings.framing = .bridge) (whole : Whole stream)
    (start : AtFrame stream t) (request : Bytes) :
    AtFrame stream (t.transact request).2 ↔
      (t.TimesOut (.transact request) → Whole (t.inTime request)) := by
  change _ ↔ ((t.transact request).1 = .error .noReply → _)
  rcases transact_cases bridge request with ⟨-, keeps, fault, hfault, unsent⟩
    | ⟨line', p, r, listens⟩
  · refine iff_of_true (start.keeps keeps) fun h => ?_
    exact absurd (Except.error.inj (hfault.symm.trans h)) unsent.ne_noReply
  obtain ⟨fs, outcome⟩ := listens.outcome fun _ hline => start.whole whole hline
  obtain ⟨⟨line, hline, hstream⟩, -, -, -, -, htimely, -, hresult, hclosed, hkept⟩ := listens
  obtain ⟨read, hread, rfl⟩ := start line hline
  rw [hresult, htimely]
  cases outcome with
  | @answered stale rest own _ _ _ _ hcontent hanswer =>
    rw [hanswer] at hkept ⊢
    refine iff_of_true ?_ fun h => absurd h (answer_ne _ own).1
    rw [atFrame_iff (hkept (answer_ne _ own).2)]
    refine ⟨read ++ (stale ++ [own]).flatMap Frame.bytes, hread.append ⟨_, rfl⟩, ?_⟩
    change Arrival.content line'.incoming = _ at hcontent
    rw [← hstream, Line.stream, hcontent, List.append_assoc, List.append_assoc, Line.stream]
  | @unanswered stale rest part _ _ _ _ hend =>
    rcases hend with ⟨hsilence, hcontent⟩ | ⟨f, hlink⟩
    · rw [hsilence] at hkept ⊢
      -- all that came in time is gone, so what is left starts where that ended
      have hall : line.stream = Arrival.timely p.deadline line'.incoming p.since ++
          ({ line' with incoming := r.rest } : Line).stream := by
        rw [← hstream, Line.stream, hcontent, List.append_assoc, Line.stream]
      have expired :
          (Except.error RequestFault.noReply).bind checkException = .error .noReply := rfl
      rw [imp_iff_right expired, atFrame_iff (hkept fun f h => by cases h), hall]
      constructor
      · rintro ⟨read', hread', heq⟩
        rw [← List.append_assoc] at heq
        obtain rfl := List.append_cancel_right heq
        exact hread'.cancel hread
      · intro complete
        exact ⟨_, hread.append complete, (List.append_assoc ..).symm⟩
    · refine iff_of_true (atFrame_of_closed (hclosed f hlink)) fun h => ?_
      rw [hlink] at h
      cases h

/-- A request that nobody answers reads nothing. -/
theorem keeps_send (t : Transceiver) (request : Bytes) : t.Keeps (t.send request).2 := by
  rw [send]
  rcases hbegin : t.begin request false with ⟨result | p, t'⟩
  · exact (begin_finished hbegin).1
  · obtain ⟨line, line', hline, hwrite, hline', -⟩ := begin_waiting hbegin
    exact .inr ⟨line, line', hline, hline', Line.write_stream hwrite⟩

/-- what came in time for an exchange -/
def inTimeFor (t : Transceiver) : Exchange → Bytes
  | .transact request => t.inTime request
  | _ => []

theorem atFrame_perform_iff (bridge : t.settings.framing = .bridge) (whole : Whole stream)
    (start : AtFrame stream t) (x : Exchange) :
    AtFrame stream (t.perform x) ↔ (t.TimesOut x → Whole (t.inTimeFor x)) := by
  cases x with
  | transact request => exact atFrame_transact_iff bridge whole start request
  | send request => exact iff_of_true (start.keeps (t.keeps_send request)) False.elim
  | pass length => exact iff_of_true start False.elim

theorem settings_perform (t : Transceiver) (x : Exchange) :
    (t.perform x).settings = t.settings := by
  cases x with
  | pass length => rfl
  | send request =>
    rw [perform, send]
    rcases hbegin : t.begin request false with ⟨result | p, t'⟩
    · exact (begin_finished hbegin).2.1
    · obtain ⟨-, -, -, -, -, hsettings, -⟩ := begin_waiting hbegin
      exact hsettings
  | transact request =>
    rw [perform, transact]
    rcases hbegin : t.begin request true with ⟨result | p, t'⟩
    · exact (begin_finished hbegin).2.1
    · obtain ⟨-, -, -, -, -, hsettings, -⟩ := begin_waiting hbegin
      exact (t'.quiet_finish p).settings.trans hsettings

theorem settings_performAll (t : Transceiver) (xs : List Exchange) :
    (t.performAll xs).settings = t.settings := by
  induction xs generalizing t with
  | nil => rfl
  | cons x xs ih => exact (ih (t.perform x)).trans (t.settings_perform x)

theorem performAll_concat (t : Transceiver) (xs : List Exchange) (x : Exchange) :
    t.performAll (xs ++ [x]) = (t.performAll xs).perform x := by
  rw [performAll, List.foldl_append]
  rfl

/-- Behind frames of other transactions the first one of its own is what an exchange ends with. -/
theorem transact_eq_answer (bridge : t.settings.framing = .bridge)
    (whole : ∀ line, t.line = some line → Whole line.stream) {stale : List Frame} {own : Frame}
    (others : ∀ f ∈ stale, f.id ≠ t.nextId) (hown : own.id = t.nextId)
    (there : (stale ++ [own]).flatMap Frame.bytes <+: t.inTime request) :
    (t.transact request).1 =
      ((checkHeader (request.getD 0 0) (request.getD 1 0) own.body).mapError .frame).bind
        fun _ => checkException own.body := by
  rcases transact_cases bridge request with ⟨hnone, -, -⟩ | ⟨line', p, r, listens⟩
  · -- nothing came in time, and a response has bytes
    rw [hnone, List.flatMap_append, List.flatMap_singleton] at there
    have hle := there.length_le
    rw [List.length_append, own.length_bytes, headerLength, List.length_nil] at hle
    omega
  obtain ⟨fs, outcome⟩ := listens.outcome whole
  have hanswer := outcome.eq_answer (fun f hf h => others f hf (h.trans listens.id))
    (hown.trans listens.id.symm) (listens.inTime ▸ there)
  rw [listens.result, hanswer, Waiting.answer, receiverOf, listens.asked]
  rcases checkHeader (request.getD 0 0) (request.getD 1 0) own.body with fault | -
  · rfl
  · rfl

theorem checkHeader_of_answers {f : Frame} {id : UInt16} (h : f.Answers id request) :
    checkHeader (request.getD 0 0) (request.getD 1 0) f.body = .ok () := by
  obtain ⟨-, hunit, hfunction⟩ := h
  have htwo := f.two_le_body
  obtain ⟨unit, hu⟩ : ∃ unit, f.body[0]? = some unit := ⟨_, List.getElem?_eq_getElem (by omega)⟩
  obtain ⟨function, hf⟩ : ∃ function, f.body[1]? = some function :=
    ⟨_, List.getElem?_eq_getElem (by omega)⟩
  rw [List.getD_eq_getElem?_getD, List.getD_eq_getElem?_getD]
  refine Headed.check ⟨?_, ?_⟩
  · rw [← hunit, hu, Option.getD_some]
  · rcases hfunction with regular | exception
    · rw [← regular, hf]
      exact .inl rfl
    · rw [exception, Option.map_eq_some_iff] at hf
      obtain ⟨asked, hasked, rfl⟩ := hf
      rw [exception, hasked]
      exact .inr rfl

/-- **A response that is there in time, behind responses to other exchanges only, is the result.** -/
theorem transact_eq_of_inTime (bridge : t.settings.framing = .bridge) (whole : Whole stream)
    (start : AtFrame stream t) {stale : List Frame} {own : Frame}
    (others : ∀ f ∈ stale, f.id ≠ t.nextId) (answers : own.Answers t.nextId request)
    (there : (stale ++ [own]).flatMap Frame.bytes <+: t.inTime request) :
    (t.transact request).1 = checkException own.body := by
  rw [transact_eq_answer bridge (fun _ hline => start.whole whole hline) others answers.1 there,
    checkHeader_of_answers answers]
  rfl

end Transceiver

open Transceiver

/-- **Exchanges behind a bridge start at the beginning of a frame if and only if those before them
that timed out had read whole frames.** An exchange that does gets the response that is there in
time. -/
theorem exchanges_start_at_frames_iff (t : Transceiver) (bridge : t.settings.framing = .bridge)
    (line : Line) (opened : t.line = some line) (whole : Whole line.stream) (xs : List Exchange) :
    ((∀ before x after, xs = before ++ x :: after → AtFrame line.stream (t.performAll before)) ↔
      ∀ before request next after, xs = before ++ .transact request :: next :: after →
        (t.performAll before).TimesOut (.transact request) →
          Whole ((t.performAll before).inTime request)) ∧
    ∀ before request after, xs = before ++ .transact request :: after →
      AtFrame line.stream (t.performAll before) → ∀ stale own,
        (∀ f ∈ stale, f.id ≠ (t.performAll before).nextId) →
        own.Answers (t.performAll before).nextId request →
        (stale ++ [own]).flatMap Frame.bytes <+: (t.performAll before).inTime request →
          ((t.performAll before).transact request).1 = checkException own.body := by
  have hbridge : ∀ before, (t.performAll before).settings.framing = .bridge := fun before => by
    rw [settings_performAll]
    exact bridge
  refine ⟨⟨fun starts before request next after hxs expired => ?_,
    fun wholes before x after hxs => ?_⟩,
    fun before request after _ start stale own others answers there =>
      transact_eq_of_inTime (hbridge before) whole start others answers there⟩
  · have start := starts before (.transact request) (next :: after) hxs
    have hxs' : xs = (before ++ [.transact request]) ++ next :: after := by
      rw [hxs, List.append_assoc]
      rfl
    have start' := starts _ next after hxs'
    rw [performAll_concat] at start'
    exact (atFrame_perform_iff (hbridge before) whole start _).1 start' expired
  · -- from the first exchange on, each one hands the next a beginning
    induction before using List.reverseRec generalizing x after with
    | nil =>
      intro line' hline'
      obtain rfl := Option.some.inj (opened.symm.trans hline')
      exact ⟨[], ⟨[], rfl⟩, rfl⟩
    | append_singleton before y ih =>
      have hxs' : xs = before ++ y :: x :: after := by
        rw [hxs, List.append_assoc]
        rfl
      have start := ih y (x :: after) hxs'
      rw [performAll_concat]
      refine (atFrame_perform_iff (hbridge before) whole start y).2 fun expired => ?_
      cases y with
      | transact request => exact wholes before request x after hxs' expired
      | send request => exact expired.elim
      | pass length => exact expired.elim

/-! ## A response that comes in two parts

The last three bytes of the first response come after its deadline. The second response is there at
once, but behind them.
-/

namespace Divided

/-- read one register of unit 17 -/
def request : Bytes := [17, 3, 0, 0, 0, 1]

/-- the two responses -/
def responses : List Frame :=
  [⟨1, [17, 3, 2, 0, 42], rfl⟩, ⟨2, [17, 3, 2, 0, 85], rfl⟩]

def line : Line where
  writes := [
    .taken [.bytes [0, 1, 0, 0, 0, 5, 17, 3], .pause 1500000000, .bytes [2, 0, 42]],
    .taken [.bytes [0, 2, 0, 0, 0, 5, 17, 3, 2, 0, 85]]]

def transceiver : Transceiver where
  settings := { framing := .bridge, endpoint := .tcp "bus" 502 }
  line := some line
  state := .connected

theorem line_whole : Whole line.stream := ⟨responses, by decide⟩

/-- The second exchange starts within a frame, and fails. -/
theorem late_rest_is_misread :
    ¬AtFrame line.stream (transceiver.performAll [.transact request]) ∧
      ((transceiver.performAll [.transact request]).transact request).1
        = .error (.frame (.unknownFunction 0)) := by
  refine ⟨fun start => ?_, by decide +kernel⟩
  have starts : ∀ before x after,
      [Exchange.transact request, .transact request] = before ++ x :: after →
        AtFrame line.stream (transceiver.performAll before) := by
    intro before x after hxs
    rcases before with _ | ⟨y, _ | ⟨z, _ | ⟨_, _⟩⟩⟩
    · intro line' hline'
      obtain rfl := Option.some.inj hline'
      exact ⟨[], ⟨[], rfl⟩, rfl⟩
    · obtain ⟨rfl, -⟩ := List.cons.inj hxs
      exact start
    · simp at hxs
    · simp at hxs
  have expired : (transceiver.transact request).1 = .error .noReply := by decide +kernel
  have inTime : transceiver.inTime request = [0, 1, 0, 0, 0, 5, 17, 3] := by decide +kernel
  obtain ⟨fs, hfs⟩ := (exchanges_start_at_frames_iff transceiver rfl line rfl line_whole
    [.transact request, .transact request]).1.1 starts [] request (.transact request) [] rfl expired
  change transceiver.inTime request = _ at hfs
  rw [inTime] at hfs
  -- the header announces more bytes than came in time
  rcases fs with _ | ⟨f, fs⟩
  · cases hfs
  rw [List.flatMap_cons, f.bytes_eq, List.append_assoc] at hfs
  have hsplit : ([0, 1, 0, 0, 0, 5] : Bytes) ++ [17, 3]
      = f.header ++ (f.body ++ fs.flatMap Frame.bytes) := hfs
  obtain ⟨hheader, hbody⟩ := List.append_inj hsplit rfl
  have hparsed := f.parseHeader_header
  rw [← hheader] at hparsed
  have hlength := (Prod.mk.inj (Except.ok.inj hparsed)).2
  have hle := congrArg List.length hbody
  rw [List.length_append, ← hlength] at hle
  change 2 = 5 + _ at hle
  omega

end Divided

end BusMaster
