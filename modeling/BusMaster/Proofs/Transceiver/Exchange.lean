import BusMaster.Proofs.Link.Line
import BusMaster.Transceiver

/-!
# What an exchange does to the line

Logging and the state of the link leave the line alone. The beginning of an exchange, which comes to
one of five things (`begins`), writes to it (`begin_waiting`, `begin_finished`), and the end of an
exchange keeps it unless the link failed (`line_conclude`). No frame goes out and no id is taken but at the beginning of an exchange
(`quiet_finish`, `quiet_connect`, `quiet_disconnect`).
-/

namespace BusMaster.Transceiver

variable {t t' : Transceiver} {request : Bytes} {reply : Bool}

@[simp] theorem line_record (t : Transceiver) (e : Event) : (t.record e).line = t.line := rfl

@[simp] theorem settings_record (t : Transceiver) (e : Event) :
    (t.record e).settings = t.settings := rfl

@[simp] theorem line_say (t : Transceiver) (level : LogLevel) (text : String) :
    (t.say level text).line = t.line := rfl

@[simp] theorem settings_say (t : Transceiver) (level : LogLevel) (text : String) :
    (t.say level text).settings = t.settings := rfl

/-- Logging changes the journal only. -/
theorem note_eq (t : Transceiver) (lines : List LogLine) :
    ∃ journal, t.note lines = { t with journal := journal } := by
  rw [note]
  induction lines generalizing t with
  | nil => exact ⟨t.journal, rfl⟩
  | cons l lines ih => exact ih (t.record (.line l))

@[simp] theorem line_note (t : Transceiver) (lines : List LogLine) :
    (t.note lines).line = t.line := by
  obtain ⟨journal, h⟩ := t.note_eq lines
  rw [h]

@[simp] theorem settings_note (t : Transceiver) (lines : List LogLine) :
    (t.note lines).settings = t.settings := by
  obtain ⟨journal, h⟩ := t.note_eq lines
  rw [h]

@[simp] theorem detail_note (t : Transceiver) (lines : List LogLine) :
    (t.note lines).detail = t.detail := by
  obtain ⟨journal, h⟩ := t.note_eq lines
  rw [h]

@[simp] theorem now_note (t : Transceiver) (lines : List LogLine) :
    (t.note lines).now = t.now := by
  obtain ⟨journal, h⟩ := t.note_eq lines
  rw [h]

@[simp] theorem line_setState (t : Transceiver) (state : ConnectionState) :
    (t.setState state).line = t.line := by
  rw [setState]
  split <;> rfl

@[simp] theorem settings_setState (t : Transceiver) (state : ConnectionState) :
    (t.setState state).settings = t.settings := by
  rw [setState]
  split <;> rfl

@[simp] theorem settings_conclude (t : Transceiver) (result : Except RequestFault Bytes) :
    (t.conclude result).settings = t.settings := by
  rw [conclude.eq_def]
  dsimp only
  split <;> simp

/-- The end of an exchange closes the line if the link failed. -/
theorem line_conclude_link (t : Transceiver) (f : LinkFault) :
    (t.conclude (.error (.link f))).line = none := by
  simp [conclude]

/-- Any other end of an exchange keeps it. -/
theorem line_conclude {result : Except RequestFault Bytes} (h : ∀ f, result ≠ .error (.link f))
    (t : Transceiver) : (t.conclude result).line = t.line := by
  rw [conclude.eq_def]
  dsimp only
  split
  · rfl
  · rename_i f
    exact absurd rfl (h f)
  · rfl

/-- number of frames that went out -/
def sendings (t : Transceiver) : Nat :=
  t.journal.countP fun
    | .sent .. => true
    | _ => false

/-- the frames that went out, the latest first -/
def frames (t : Transceiver) : List Bytes :=
  t.journal.filterMap fun
    | .sent _ frame => some frame
    | _ => none

theorem sendings_eq (t : Transceiver) : t.sendings = t.frames.length := by
  rw [sendings, frames, List.length_filterMap_eq_countP]
  refine List.countP_congr fun e _ => ?_
  cases e <;> rfl

/-- Nothing goes out, and no exchange begins. -/
structure Quiet (t t' : Transceiver) : Prop where
  settings : t'.settings = t.settings
  nextId : t'.nextId = t.nextId
  frames : t'.frames = t.frames

theorem Quiet.refl (t : Transceiver) : t.Quiet t := ⟨rfl, rfl, rfl⟩

theorem Quiet.trans {t'' : Transceiver} (first : t.Quiet t') (second : t'.Quiet t'') :
    t.Quiet t'' :=
  ⟨second.settings.trans first.settings, second.nextId.trans first.nextId,
    second.frames.trans first.frames⟩

theorem Quiet.sendings (h : t.Quiet t') : t'.sendings = t.sendings := by
  rw [sendings_eq, sendings_eq, h.frames]

theorem quiet_note (t : Transceiver) (lines : List LogLine) : t.Quiet (t.note lines) := by
  rw [note]
  induction lines generalizing t with
  | nil => exact .refl t
  | cons l lines ih =>
    refine Quiet.trans ?_ (ih (t.record (.line l)))
    exact ⟨rfl, rfl, rfl⟩

theorem quiet_setState (t : Transceiver) (state : ConnectionState) :
    t.Quiet (t.setState state) := by
  rw [setState]
  split
  · exact .refl t
  · exact ⟨rfl, rfl, rfl⟩

theorem quiet_conclude (t : Transceiver) (result : Except RequestFault Bytes) :
    t.Quiet (t.conclude result) := by
  rw [conclude.eq_def]
  dsimp only
  split
  · exact ⟨rfl, rfl, rfl⟩
  · refine Quiet.trans ?_ (quiet_setState ..)
    exact ⟨rfl, rfl, rfl⟩
  · exact ⟨rfl, rfl, rfl⟩

theorem quiet_finish (t : Transceiver) (p : Pending) : t.Quiet (t.finish p).2 := by
  rw [finish]
  split
  · exact .refl t
  · refine Quiet.trans (Quiet.trans ?_ (quiet_note ..)) (quiet_conclude ..)
    exact ⟨rfl, rfl, rfl⟩

/-- the transceiver when it attempts to open a link, with the one before closed -/
def attempting (t : Transceiver) : Transceiver :=
  ({ t with line := none, attempts := t.nextAttempt.2 }.setState .connecting).record
    (.opening t.settings.endpoint)

/-- what an attempt to open a link comes to -/
inductive Connects (t : Transceiver) : Except RequestFault Unit × Transceiver → Prop where
  | unsupported (l : LogLine) : t.settings.isSupported = false →
    Connects t (.error .unsupported, t.record (.line l))
  | opened (line : Line) (l : LogLine) : t.settings.isSupported = true →
    Connects t (.ok (),
      { t.attempting.record (.line l) with line := some line, lastEnd := none }.setState .connected)
  | failed (fault : OpenFault) (l : LogLine) : t.settings.isSupported = true →
    Connects t (.error (fault.toRequest t.settings.endpoint),
      (t.attempting.record (.line l)).setState .disconnected)

/-- **An attempt to open a link comes to one of three things.** -/
theorem connects (t : Transceiver) : t.Connects t.connect := by
  rw [connect]
  split
  · rename_i unsupported
    exact .unsupported _ (by simpa using unsupported)
  rename_i unsupported
  have supported : t.settings.isSupported = true := by simpa using unsupported
  dsimp only
  split
  · exact .opened _ _ supported
  · exact .failed _ _ supported

theorem quiet_attempting (t : Transceiver) : t.Quiet t.attempting := by
  obtain ⟨settings, nextId, frames⟩ := quiet_setState
    { t with line := none, attempts := t.nextAttempt.2 } .connecting
  exact ⟨settings, nextId, frames⟩

theorem quiet_connect (t : Transceiver) : t.Quiet t.connect.2 := by
  have connects := t.connects
  obtain ⟨settings, nextId, frames⟩ := t.quiet_attempting
  generalize t.connect = connected at connects
  cases connects with
  | unsupported => exact ⟨rfl, rfl, rfl⟩
  | opened =>
    refine Quiet.trans ?_ (quiet_setState ..)
    exact ⟨settings, nextId, frames⟩
  | failed =>
    refine Quiet.trans ?_ (quiet_setState ..)
    exact ⟨settings, nextId, frames⟩

theorem quiet_disconnect (t : Transceiver) : t.Quiet t.disconnect := by
  rw [disconnect]
  refine Quiet.trans ?_ (quiet_setState ..)
  split
  · exact ⟨rfl, rfl, rfl⟩
  · exact .refl t

/-- the line is closed, or brings what it would have brought -/
def Keeps (t t' : Transceiver) : Prop :=
  t'.line = none ∨ ∃ line line', t.line = some line ∧ t'.line = some line' ∧
    line'.stream = line.stream

theorem Keeps.refl (t : Transceiver) : t.Keeps t := by
  rcases hline : t.line with _ | line
  · exact .inl hline
  · exact .inr ⟨line, line, hline, hline, rfl⟩

/-! ## The beginning of an exchange -/

/-- the transceiver when it writes the frame of a request, after the line has rested -/
def writing (t : Transceiver) (request : Bytes) : Transceiver :=
  let rested := { t with nextId := t.nextId + 1, now := t.rested, messages := t.messages + 1 }.note
    (outgoingLine t.settings.framing t.detail.frame t.nextId request)
  rested.note (rawLine rested.detail.raw "TX" (frameOf t.settings.framing t.nextId request))

/-- the transceiver when the line has taken the frame -/
def written (t : Transceiver) (request : Bytes) (line : Line) : Transceiver :=
  { t.writing request with line := some line }.record
    (.sent (t.writing request).now (frameOf t.settings.framing t.nextId request))

/-- the exchange of a request whose frame was written -/
def pending (t : Transceiver) (request : Bytes) : Pending where
  request := request
  id := t.nextId
  since := (t.writing request).now
  deadline := (t.writing request).now + (t.writing request).settings.timeout

/-- Until the frame is written, time passes and lines are logged. -/
theorem writing_eq (t : Transceiver) (request : Bytes) :
    ∃ journal, t.writing request = { t with
      nextId := t.nextId + 1
      now := t.rested
      messages := t.messages + 1
      journal := journal } := by
  rw [writing]
  generalize rawLine _ _ _ = raw
  obtain ⟨journal, h⟩ := note_eq { t with
    nextId := t.nextId + 1
    now := t.rested
    messages := t.messages + 1 } (outgoingLine t.settings.framing t.detail.frame t.nextId request)
  rw [h]
  obtain ⟨journal', h'⟩ := note_eq { t with
    nextId := t.nextId + 1
    now := t.rested
    messages := t.messages + 1
    journal := journal } raw
  exact ⟨journal', h'⟩

/-- what the beginning of an exchange comes to -/
inductive Begins (t : Transceiver) (request : Bytes) : Bool → Stage × Transceiver → Prop where
  | refused {reply : Bool} {fault : RequestFault} : checkRequest request = .error fault →
    Begins t request reply (.finished (.error fault), t)
  | closed {reply : Bool} : checkRequest request = .ok () → t.line = none →
    Begins t request reply (.finished (.error .notConnected), { t with nextId := t.nextId + 1 })
  | failed {reply : Bool} {line : Line} {f : LinkFault} : checkRequest request = .ok () →
    t.line = some line → line.write = .error f →
    Begins t request reply
      (.finished (.error (.link f)), (t.writing request).conclude (.error (.link f)))
  | unanswered {line line' : Line} : checkRequest request = .ok () →
    t.line = some line → line.write = .ok line' →
    Begins t request false (.finished (.ok []), (t.written request line').conclude (.ok []))
  | answered {line line' : Line} : checkRequest request = .ok () →
    t.line = some line → line.write = .ok line' →
    Begins t request true (.waiting (t.pending request), t.written request line')

/-- **The beginning of an exchange comes to one of five things.** -/
theorem begins (t : Transceiver) (request : Bytes) (reply : Bool) :
    t.Begins request reply (t.begin request reply) := by
  rw [begin]
  split
  · rename_i fault checked
    exact .refused checked
  rename_i checked
  dsimp only
  split
  · rename_i closed
    exact .closed checked closed
  rename_i line opened
  split
  · rename_i f refused
    exact .failed checked opened refused
  rename_i line' taken
  cases reply
  · exact .unanswered checked opened taken
  · exact .answered checked opened taken

theorem frames_writing (t : Transceiver) (request : Bytes) :
    (t.writing request).frames = t.frames :=
  (quiet_note ..).frames.trans (quiet_note ..).frames

/-- An exchange whose frame is on its way. -/
theorem begin_waiting {p : Pending} (h : t.begin request reply = (.waiting p, t')) :
    ∃ line line', t.line = some line ∧ line.write = .ok line' ∧ t'.line = some line' ∧
      t'.settings = t.settings ∧ p.request = request ∧ p.id = t.nextId ∧
      checkRequest request = .ok () ∧
      t'.frames = frameOf t.settings.framing t.nextId request :: t.frames := by
  have begins := t.begins request reply
  rw [h] at begins
  cases begins with
  | @answered line line' checked opened taken =>
    have settings : (t.written request line').settings = t.settings := by
      obtain ⟨journal, hwriting⟩ := t.writing_eq request
      rw [written, hwriting]
      rfl
    exact ⟨line, line', opened, taken, rfl, settings, rfl, rfl, checked,
      congrArg (List.cons _) (t.frames_writing request)⟩

/-- why no frame went out -/
inductive Unsent (t : Transceiver) (request : Bytes) : RequestFault → Prop where
  | refused {fault : RequestFault} : checkRequest request = .error fault → t.Unsent request fault
  | closed : t.line = none → t.Unsent request .notConnected
  | failed (f : LinkFault) : t.Unsent request (.link f)

theorem Unsent.ne_noReply {fault : RequestFault} (h : t.Unsent request fault) :
    fault ≠ .noReply := by
  rintro rfl
  cases h with
  | refused hcheck =>
    rw [checkRequest] at hcheck
    split at hcheck
    · cases hcheck
    · split at hcheck <;> cases hcheck

/-- An exchange that is over with its beginning. -/
theorem begin_finished {result : Except RequestFault Bytes}
    (h : t.begin request reply = (.finished result, t')) :
    t.Keeps t' ∧ t'.settings = t.settings ∧
      (∀ fault, result = .error fault → t.Unsent request fault) ∧
      (reply = true → ∃ fault, result = .error fault) := by
  have begins := t.begins request reply
  rw [h] at begins
  obtain ⟨journal, hwriting⟩ := t.writing_eq request
  cases begins with
  | @refused _ fault checked =>
    refine ⟨.refl t, rfl, fun _ hfault => ?_, fun _ => ⟨fault, rfl⟩⟩
    obtain rfl := Except.error.inj hfault
    exact .refused checked
  | closed _ closed =>
    refine ⟨.inl closed, rfl, fun _ hfault => ?_, fun _ => ⟨.notConnected, rfl⟩⟩
    obtain rfl := Except.error.inj hfault
    exact .closed closed
  | @failed _ line f =>
    refine ⟨.inl (line_conclude_link ..), ?_, fun _ hfault => ?_, fun _ => ⟨.link f, rfl⟩⟩
    · rw [settings_conclude, hwriting]
    · obtain rfl := Except.error.inj hfault
      exact .failed f
  | @unanswered line line' _ opened taken =>
    refine ⟨.inr ⟨line, line', opened, ?_, Line.write_stream taken⟩, ?_,
      fun _ hfault => (nomatch hfault), nofun⟩
    · rw [line_conclude (by simp)]
      rfl
    · rw [settings_conclude, written, hwriting]
      rfl

end BusMaster.Transceiver
