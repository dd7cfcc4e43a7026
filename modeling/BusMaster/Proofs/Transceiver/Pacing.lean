import BusMaster.Proofs.Transceiver.Connection

/-!
# Pacing

Between two exchanges on one link the line rests. What a transceiver did is a history of events, and
the ends of the exchanges on the link that was opened last can be read off it (`endsOnLink`); a
history is paced if every frame on a link comes a delay behind all ends of exchanges before it
(`Paced`). An exchange adds one write, at the moment the line has rested, and one end, at the moment
it is over, however it goes (`perform_cases`). The moment that the transceiver remembers is the
latest of those ends, and the attempt to open another link forgets all of them (`Resting`), so the
bus is paced after every run of operations (`bus_is_paced`).
-/

namespace BusMaster

/-- when a frame went out or an exchange was over -/
def Event.moment? : Event → Option Moment
  | .sent moment _ => some moment
  | .ended moment _ => some moment
  | _ => none

/-- the ends of the exchanges on a link after one more event -/
def endsAfter (ends : List Moment) : Event → List Moment
  | .opening _ => []
  | .ended moment _ => moment :: ends
  | _ => ends

/-- the ends of the exchanges on the link that was opened last, the latest first -/
def endsOnLink (history : List Event) : List Moment := history.foldl endsAfter []

/-- on one link, what goes out or is over comes a delay behind all ends of exchanges before it -/
def Paced (delay : Nat) (history : List Event) : Prop :=
  ∀ before e after moment last, history = before ++ e :: after → e.moment? = some moment →
    last ∈ endsOnLink before → last + delay ≤ moment

variable {delay : Nat} {history added : List Event} {start finish : Moment}

/-! ## Histories -/

@[simp] theorem endsOnLink_concat (history : List Event) (e : Event) :
    endsOnLink (history ++ [e]) = endsAfter (endsOnLink history) e := by
  simp [endsOnLink]

@[simp] theorem endsOnLink_lines (history : List Event) (lines : List LogLine) :
    endsOnLink (history ++ lines.map .line) = endsOnLink history := by
  induction lines generalizing history with
  | nil => rw [List.map_nil, List.append_nil]
  | cons l lines ih =>
    rw [List.map_cons, List.append_cons, ih, endsOnLink_concat]
    rfl

theorem paced_nil (delay : Nat) : Paced delay [] := by
  intro before e after moment last h
  simp at h

/-- One more event must come late enough behind the ends of exchanges on its link. -/
theorem Paced.concat (h : Paced delay history) {e : Event}
    (late : ∀ moment, e.moment? = some moment → ∀ last ∈ endsOnLink history,
      last + delay ≤ moment) : Paced delay (history ++ [e]) := by
  intro before e' after moment last hsplit hmoment hlast
  rcases List.eq_nil_or_concat after with rfl | ⟨after', e'', rfl⟩
  · obtain ⟨rfl, he⟩ := List.append_inj' hsplit rfl
    obtain rfl := List.singleton_inj.1 he
    exact late moment hmoment last hlast
  · rw [List.concat_eq_append, ← List.cons_append, ← List.append_assoc] at hsplit
    exact h before e' after' moment last (List.append_inj' hsplit rfl).1 hmoment hlast

theorem Paced.lines (h : Paced delay history) (lines : List LogLine) :
    Paced delay (history ++ lines.map .line) := by
  induction lines generalizing history with
  | nil => rwa [List.map_nil, List.append_nil]
  | cons l lines ih =>
    rw [List.map_cons, List.append_cons]
    exact ih (h.concat fun moment hmoment => nomatch hmoment)

/-- what one exchange on an open link adds to a history: a write, which the link may refuse, and the
end of the exchange -/
inductive Episode : Moment → Moment → List Event → Prop where
  | refused (moment : Moment) (f : LinkFault) (before after : List LogLine) :
    Episode moment moment
      (before.map .line ++ [.ended moment (some (.link f))] ++ after.map .line)
  | sent {start finish : Moment} (frame : Bytes) (fault : Option RequestFault)
    (before between after : List LogLine) : start ≤ finish →
    Episode start finish (before.map .line ++ [.sent start frame] ++ between.map .line ++
      [.ended finish fault] ++ after.map .line)

theorem Episode.start_le (h : Episode start finish added) : start ≤ finish := by
  cases h with
  | refused => exact Nat.le_refl _
  | sent _ _ _ _ _ hle => exact hle

/-- An exchange ends once, and last of all. -/
theorem Episode.ends_append (h : Episode start finish added) (history : List Event) :
    endsOnLink (history ++ added) = finish :: endsOnLink history := by
  cases h <;> simp only [← List.append_assoc, endsOnLink_lines, endsOnLink_concat, endsAfter]

/-- **An exchange that starts late enough keeps the history paced.** -/
theorem Episode.paced (h : Episode start finish added) (paced : Paced delay history)
    (rested : ∀ last ∈ endsOnLink history, last + delay ≤ start) :
    Paced delay (history ++ added) := by
  cases h with
  | refused f before after =>
    simp only [← List.append_assoc]
    refine ((paced.lines before).concat fun moment hmoment last hlast => ?_).lines after
    obtain rfl := Option.some.inj hmoment
    rw [endsOnLink_lines] at hlast
    exact rested last hlast
  | sent frame fault before between after hle =>
    simp only [← List.append_assoc]
    have written : Paced delay (history ++ before.map .line ++ [.sent start frame]) := by
      refine (paced.lines before).concat fun moment hmoment last hlast => ?_
      obtain rfl := Option.some.inj hmoment
      rw [endsOnLink_lines] at hlast
      exact rested last hlast
    refine ((written.lines between).concat fun moment hmoment last hlast => ?_).lines after
    obtain rfl := Option.some.inj hmoment
    simp only [endsOnLink_lines, endsOnLink_concat, endsAfter] at hlast
    exact Nat.le_trans (rested last hlast) hle

namespace Transceiver

variable {t t' : Transceiver} {request : Bytes}

/-- only lines of the log were set down -/
def Logged (history : List Event) (t : Transceiver) : Prop :=
  ∃ lines : List LogLine, t.history = history ++ lines.map .line

theorem history_record (t : Transceiver) (e : Event) :
    (t.record e).history = t.history ++ [e] := List.reverse_cons

theorem logged_self (t : Transceiver) : Logged t.history t := ⟨[], (List.append_nil _).symm⟩

theorem Logged.line (h : Logged history t) (l : LogLine) : Logged history (t.record (.line l)) := by
  obtain ⟨lines, hlines⟩ := h
  refine ⟨lines ++ [l], ?_⟩
  rw [history_record, hlines, List.map_append, List.append_assoc]
  rfl

theorem Logged.note (h : Logged history t) (lines : List LogLine) :
    Logged history (t.note lines) := by
  rw [Transceiver.note]
  induction lines generalizing t with
  | nil => exact h
  | cons l lines ih => exact ih (h.line l)

theorem Logged.setState (h : Logged history t) (state : ConnectionState) :
    Logged history (t.setState state) := by
  rw [Transceiver.setState]
  split
  · exact h
  · exact Logged.line h _

@[simp] theorem now_setState (t : Transceiver) (state : ConnectionState) :
    (t.setState state).now = t.now := by
  rw [setState]
  split <;> rfl

@[simp] theorem lastEnd_setState (t : Transceiver) (state : ConnectionState) :
    (t.setState state).lastEnd = t.lastEnd := by
  rw [setState]
  split <;> rfl

/-! ## One exchange -/

/-- an exchange on an open link that starts as soon as the line has rested, and is over -/
structure Passes (t t' : Transceiver) : Prop where
  history : ∃ added, t'.history = t.history ++ added ∧ Episode t.rested t'.now added
  lastEnd : t'.lastEnd = some t'.now

/-- However an exchange ends, the moment is remembered. -/
theorem moments_conclude (t : Transceiver) (result : Except RequestFault Bytes) :
    (t.conclude result).now = t.now ∧ (t.conclude result).lastEnd = some t.now := by
  rw [conclude.eq_def]
  dsimp only
  split
  · exact ⟨rfl, rfl⟩
  · rw [now_setState, lastEnd_setState]
    exact ⟨rfl, rfl⟩
  · exact ⟨rfl, rfl⟩

/-- However an exchange ends, its end is set down. -/
theorem logged_conclude (t : Transceiver) (result : Except RequestFault Bytes) :
    Logged (t.history ++ [.ended t.now (faultOf result)]) (t.conclude result) := by
  have ended := logged_self ({ t with lastEnd := some t.now }.record
    (.ended t.now (faultOf result)))
  rw [history_record] at ended
  rw [conclude.eq_def]
  dsimp only
  split
  · exact Logged.line ended _
  · refine Logged.setState ?_ _
    exact Logged.line ended _
  · exact ended

/-- the frame of an exchange went out as soon as the line had rested -/
structure Sent (t t' : Transceiver) : Prop where
  line : t'.line.isSome
  now : t'.now = t.rested
  history : ∃ (lines : List LogLine) (frame : Bytes),
    t'.history = t.history ++ lines.map .line ++ [.sent t.rested frame]

theorem now_writing (t : Transceiver) (request : Bytes) :
    (t.writing request).now = t.rested := by
  obtain ⟨journal, hwriting⟩ := t.writing_eq request
  rw [hwriting]

theorem logged_writing (t : Transceiver) (request : Bytes) :
    Logged t.history (t.writing request) := by
  refine Logged.note (Logged.note ?_ _) _
  exact t.logged_self

theorem sent_written (t : Transceiver) (request : Bytes) (line : Line) :
    t.Sent (t.written request line) := by
  obtain ⟨lines, hlines⟩ := t.logged_writing request
  refine ⟨rfl, t.now_writing request, lines, frameOf t.settings.framing t.nextId request, ?_⟩
  rw [written, history_record, now_writing, ← hlines]
  rfl

/-- A write that is refused is the end of its exchange. -/
theorem passes_of_refused (t : Transceiver) (request : Bytes) (f : LinkFault) :
    t.Passes ((t.writing request).conclude (.error (.link f))) := by
  obtain ⟨before, hbefore⟩ := t.logged_writing request
  obtain ⟨after, hafter⟩ := (t.writing request).logged_conclude (.error (.link f))
  obtain ⟨hover, hend⟩ := (t.writing request).moments_conclude (.error (.link f))
  refine ⟨?_, by rw [hend, hover]⟩
  rw [now_writing] at hover hafter
  rw [hover]
  refine ⟨_, ?_, .refused t.rested f before after⟩
  rw [hafter, hbefore, List.append_assoc, List.append_assoc, List.append_assoc]
  rfl

/-- An exchange whose frame went out is over when a result is concluded, whatever was heard. -/
theorem Sent.passes {u : Transceiver} (sent : t.Sent t') (heard : Logged t'.history u)
    (later : t'.now ≤ u.now) (result : Except RequestFault Bytes) :
    t.Passes (u.conclude result) := by
  obtain ⟨-, hnow, before, frame, hbefore⟩ := sent
  obtain ⟨between, hbetween⟩ := heard
  obtain ⟨after, hafter⟩ := u.logged_conclude result
  obtain ⟨hover, hend⟩ := u.moments_conclude result
  refine ⟨?_, by rw [hend, hover]⟩
  rw [hnow] at later
  rw [hover]
  refine ⟨_, ?_, .sent frame (faultOf result) before between after later⟩
  rw [hafter, hbetween, hbefore]
  simp only [List.append_assoc]

theorem Sent.passes_finish (sent : t.Sent t') (p : Pending) : t.Passes (t'.finish p).2 := by
  obtain ⟨line, hline⟩ := Option.isSome_iff_exists.1 sent.line
  rw [Transceiver.finish, hline]
  refine sent.passes (Logged.note ?_ _) ?_ _
  · exact t'.logged_self
  · rw [now_note]
    exact Nat.le_max_left ..

/-- **However a request is answered, its exchange starts when the line has rested, and its end is
set down and remembered.** -/
theorem passes_transact (opened : t.line.isSome) (checked : checkRequest request = .ok ()) :
    t.Passes (t.transact request).2 := by
  have begins := t.begins request true
  rw [transact]
  generalize t.begin request true = begun at begins
  cases begins with
  | refused fault => cases checked.symm.trans fault
  | closed _ closed => simp [closed] at opened
  | failed => exact t.passes_of_refused request _
  | answered => exact (t.sent_written request _).passes_finish _

/-- So does the exchange of a request that nobody answers. -/
theorem passes_send (opened : t.line.isSome) (checked : checkRequest request = .ok ()) :
    t.Passes (t.send request).2 := by
  have begins := t.begins request false
  rw [send]
  generalize t.begin request false = begun at begins
  cases begins with
  | refused fault => cases checked.symm.trans fault
  | closed _ closed => simp [closed] at opened
  | failed => exact t.passes_of_refused request _
  | @unanswered _ line =>
    exact (t.sent_written request line).passes (logged_self _) (Nat.le_refl _) (.ok [])

/-- An exchange without a link, or without a request, is over before it begins. -/
theorem begin_of_idle (idle : t.line = none ∨ ∃ fault, checkRequest request = .error fault)
    (reply : Bool) :
    ∃ result id, t.begin request reply = (.finished result, { t with nextId := id }) := by
  have never {line : Line} (checked : checkRequest request = .ok ()) (opened : t.line = some line) :
      False := by
    obtain closed | ⟨fault, failed⟩ := idle
    · cases closed.symm.trans opened
    · cases checked.symm.trans failed
  have begins := t.begins request reply
  generalize t.begin request reply = begun at begins
  cases begins with
  | refused => exact ⟨_, t.nextId, rfl⟩
  | closed => exact ⟨_, t.nextId + 1, rfl⟩
  | failed checked opened => exact (never checked opened).elim
  | unanswered checked opened => exact (never checked opened).elim
  | answered checked opened => exact (never checked opened).elim

/-- **What an exchange does:** it passes on an open link, or leaves link and history alone. -/
theorem perform_cases (t : Transceiver) (x : Exchange) :
    t.line.isSome ∧ t.Passes (t.perform x) ∨
      ∃ id now, t.perform x = { t with nextId := id, now := now } := by
  have idle_or (request : Bytes) : (t.line = none ∨ ∃ fault, checkRequest request = .error fault) ∨
      t.line.isSome ∧ checkRequest request = .ok () := by
    rcases hline : t.line with _ | line
    · exact .inl (.inl rfl)
    · rcases hcheck : checkRequest request with fault | ⟨⟨⟩⟩
      · exact .inl (.inr ⟨fault, rfl⟩)
      · exact .inr ⟨rfl, rfl⟩
  cases x with
  | transact request =>
    rcases idle_or request with idle | ⟨opened, checked⟩
    · obtain ⟨result, id, hbegin⟩ := begin_of_idle idle true
      refine .inr ⟨id, t.now, ?_⟩
      rw [perform, transact, hbegin]
    · exact .inl ⟨opened, passes_transact opened checked⟩
  | send request =>
    rcases idle_or request with idle | ⟨opened, checked⟩
    · obtain ⟨result, id, hbegin⟩ := begin_of_idle idle false
      refine .inr ⟨id, t.now, ?_⟩
      rw [perform, send, hbegin]
    · exact .inl ⟨opened, passes_send opened checked⟩
  | pass length => exact .inr ⟨t.nextId, _, rfl⟩

/-! ## Opening and closing a link -/

theorem logged_attempting (t : Transceiver) :
    ∃ before : List LogLine,
      t.attempting.history = t.history ++ before.map .line ++ [.opening t.settings.endpoint] := by
  let closed : Transceiver := { t with line := none, attempts := t.nextAttempt.2 }
  have attempted : Logged t.history (closed.setState .connecting) :=
    Logged.setState (t := closed) t.logged_self .connecting
  obtain ⟨before, hbefore⟩ := attempted
  refine ⟨before, ?_⟩
  rw [← hbefore]
  exact history_record ..

/-- An attempt to open a link is set down, and if it opens one, the last end is forgotten. -/
theorem logged_connect (supported : t.settings.isSupported = true) :
    Logged t.attempting.history t.connect.2 ∧
      (t.connect.2.line.isSome → t.connect.2.lastEnd = none) := by
  have connects := t.connects
  generalize t.connect = connected at connects
  cases connects with
  | unsupported _ unsupported => cases supported.symm.trans unsupported
  | opened _ l =>
    refine ⟨Logged.setState ?_ _, fun _ => lastEnd_setState ..⟩
    exact Logged.line t.attempting.logged_self l
  | failed _ l =>
    refine ⟨Logged.setState (Logged.line t.attempting.logged_self l) _, fun opened => ?_⟩
    rw [line_setState, line_record, attempting, line_record, line_setState] at opened
    cases opened

theorem endsOnLink_connect (supported : t.settings.isSupported = true) :
    endsOnLink t.connect.2.history = [] := by
  obtain ⟨⟨after, hafter⟩, -⟩ := logged_connect supported
  obtain ⟨before, hbefore⟩ := t.logged_attempting
  rw [hafter, endsOnLink_lines, hbefore, endsOnLink_concat]
  rfl

/-- A link that was opened is open, and no exchange on it is over yet. -/
theorem connect_eq_ok (connected : t.connect.1 = .ok ()) :
    t.connect.2.line.isSome ∧ endsOnLink t.connect.2.history = [] := by
  rcases hsupported : t.settings.isSupported
  · obtain ⟨l, hconnect⟩ := connect_of_unsupported hsupported
    rw [hconnect] at connected
    cases connected
  · rcases connect_cases hsupported with ⟨-, opened⟩ | ⟨fault, failed, -⟩
    · exact ⟨opened.line, endsOnLink_connect hsupported⟩
    · cases failed.symm.trans connected

theorem logged_disconnect (t : Transceiver) : Logged t.history t.disconnect := by
  rw [disconnect]
  refine Logged.setState ?_ _
  split
  · exact Logged.line t.logged_self _
  · exact t.logged_self

/-! ## Runs -/

/-- what is done is paced, and while a link is open the transceiver remembers when the latest
exchange on it was over -/
structure Resting (t : Transceiver) : Prop where
  paced : Paced t.settings.pacingDelay t.history
  latest : ∀ newest ∈ (endsOnLink t.history).head?, ∀ last ∈ endsOnLink t.history, last ≤ newest
  lastEnd : t.line.isSome → t.lastEnd = (endsOnLink t.history).head?

/-- When the line has rested, all exchanges on it were over a delay ago. -/
theorem Resting.le_rested (h : t.Resting) (opened : t.line.isSome) {last : Moment}
    (hlast : last ∈ endsOnLink t.history) : last + t.settings.pacingDelay ≤ t.rested := by
  obtain ⟨line, hline⟩ := Option.isSome_iff_exists.1 opened
  rcases hends : (endsOnLink t.history).head? with _ | newest
  · rw [List.head?_eq_none_iff.1 hends] at hlast
    cases hlast
  -- the line rests from the newest end on, and the others are behind it
  have hnewest : t.lastEnd = some newest := (h.lastEnd opened).trans hends
  have hle : last ≤ newest := h.latest newest hends last hlast
  rw [rested, hline, hnewest]
  calc last + t.settings.pacingDelay
      ≤ newest + wholeMilliseconds t.settings.pacingDelay :=
        Nat.add_le_add hle (le_wholeMilliseconds _)
    _ ≤ max t.now (newest + wholeMilliseconds t.settings.pacingDelay) := Nat.le_max_right ..

/-- On a link on which no exchange is over, nothing is waited for. -/
theorem Resting.rested_eq (h : t.Resting) (opened : t.line.isSome)
    (first : endsOnLink t.history = []) : t.rested = t.now := by
  have hnone : t.lastEnd = none := by rw [h.lastEnd opened, first]; rfl
  rw [rested, hnone]
  split
  · rename_i hsome
    cases hsome
  · rfl

theorem Resting.passes (h : t.Resting) (opened : t.line.isSome) (passes : t.Passes t')
    (settings : t'.settings = t.settings) : t'.Resting := by
  obtain ⟨⟨added, hadded, episode⟩, hend⟩ := passes
  have hends : endsOnLink t'.history = t'.now :: endsOnLink t.history := by
    rw [hadded, episode.ends_append]
  refine ⟨?_, ?_, fun _ => ?_⟩
  · rw [settings, hadded]
    exact episode.paced h.paced fun last hlast => h.le_rested opened hlast
  · rw [hends]
    intro newest hnewest last hlast
    obtain rfl := Option.some.inj hnewest
    rcases List.mem_cons.1 hlast with rfl | hlast
    · exact Nat.le_refl _
    · calc last
          ≤ last + t.settings.pacingDelay := Nat.le_add_right ..
        _ ≤ t.rested := h.le_rested opened hlast
        _ ≤ t'.now := episode.start_le
  · rw [hend, hends]
    rfl

/-- Lines of the log change nothing, nor does it change anything to close a link. -/
theorem Resting.logged (h : t.Resting) (logged : Logged t.history t')
    (settings : t'.settings = t.settings)
    (kept : t'.line.isSome → t.line.isSome ∧ t'.lastEnd = t.lastEnd) : t'.Resting := by
  obtain ⟨lines, hlines⟩ := logged
  have hends : endsOnLink t'.history = endsOnLink t.history := by rw [hlines, endsOnLink_lines]
  refine ⟨?_, ?_, fun opened => ?_⟩
  · rw [settings, hlines]
    exact h.paced.lines lines
  · rw [hends]
    exact h.latest
  · obtain ⟨opened, hsame⟩ := kept opened
    rw [hsame, hends]
    exact h.lastEnd opened

theorem resting_connect (h : t.Resting) : t.connect.2.Resting := by
  rcases hsupported : t.settings.isSupported
  · obtain ⟨l, hconnect⟩ := connect_of_unsupported hsupported
    rw [hconnect]
    exact h.logged (Logged.line t.logged_self l) rfl fun opened => ⟨opened, rfl⟩
  · obtain ⟨⟨after, hafter⟩, hlast⟩ := logged_connect hsupported
    obtain ⟨before, hbefore⟩ := t.logged_attempting
    have hends := endsOnLink_connect hsupported
    refine ⟨?_, ?_, fun opened => ?_⟩
    · rw [t.quiet_connect.settings, hafter, hbefore]
      refine ((h.paced.lines before).concat fun moment hmoment => ?_).lines after
      cases hmoment
    · rw [hends]
      intro newest hnewest
      cases hnewest
    · rw [hlast opened, hends]
      rfl

theorem Resting.advanceTo (h : t.Resting) (moment : Moment) : (t.advanceTo moment).Resting :=
  ⟨h.paced, h.latest, h.lastEnd⟩

theorem resting_use (h : t.Resting) (x : Use) : (t.use x).Resting := by
  have settings := t.settings_use x
  cases x with
  | connect => exact resting_connect h
  | disconnect =>
    refine h.logged t.logged_disconnect settings fun opened => ?_
    change t.disconnect.line.isSome at opened
    rw [t.closed_disconnect.line] at opened
    cases opened
  | exchange x =>
    rcases t.perform_cases x with ⟨opened, passes⟩ | ⟨id, now, hidle⟩
    · exact h.passes opened passes settings
    · change (t.perform x).Resting
      rw [hidle]
      exact ⟨h.paced, h.latest, h.lastEnd⟩

theorem resting_useAll (h : t.Resting) (xs : List Use) : (t.useAll xs).Resting := by
  induction xs generalizing t with
  | nil => exact h
  | cons x xs ih => exact ih (resting_use h x)

end Transceiver

open Transceiver

/-- **The bus is always paced.** From a new transceiver on, after any run of operations and whatever
its links do: no frame went out, and no write was refused, earlier than the pacing delay after the
end of any exchange before it on its link. The first exchange on a link that was opened, whenever it
is made, starts at once. Any exchange starts when the line has rested, which is the delay behind all
exchanges on the link, and at once if there was none; and however it goes, its end is set down and
remembered. -/
theorem bus_is_paced (settings : TransportSettings) (detail : Detail) (attempts : List Attempt)
    (line : Option Line) (state : ConnectionState) (now : Moment) (xs : List Use) :
    let t := ({ settings, detail, attempts, line, state, now } : Transceiver).useAll xs
    Paced settings.pacingDelay t.history ∧
      (t.connect.1 = .ok () → ∀ moment request, checkRequest request = .ok () →
        let first := t.connect.2.advanceTo moment
        first.rested = first.now ∧
          first.Passes (first.transact request).2 ∧ first.Passes (first.send request).2) ∧
      (t.line.isSome →
        (∀ last ∈ endsOnLink t.history, last + settings.pacingDelay ≤ t.rested) ∧
        (endsOnLink t.history = [] → t.rested = t.now) ∧
        ∀ request, checkRequest request = .ok () →
          t.Passes (t.transact request).2 ∧ t.Passes (t.send request).2) := by
  intro t
  have resting : t.Resting := by
    refine resting_useAll ⟨paced_nil _, ?_, fun _ => rfl⟩ xs
    intro newest hnewest
    cases hnewest
  have hsettings : t.settings = settings := settings_useAll _ xs
  refine ⟨?_, fun connected moment request checked => ?_, fun opened => ⟨?_, ?_, ?_⟩⟩
  · rw [← hsettings]
    exact resting.paced
  · obtain ⟨opened, none⟩ := connect_eq_ok connected
    have first : (t.connect.2.advanceTo moment).Resting :=
      (resting_connect resting).advanceTo moment
    exact ⟨first.rested_eq opened none, passes_transact opened checked,
      passes_send opened checked⟩
  · intro last hlast
    rw [← hsettings]
    exact resting.le_rested opened hlast
  · exact resting.rested_eq opened
  · intro request checked
    exact ⟨passes_transact opened checked, passes_send opened checked⟩

/-! ## A device that does not answer -/

namespace Unanswered

/-- read one register of unit 17 -/
def request : Bytes := [17, 3, 0, 0, 0, 1]

/-- a line at 9600 baud, on which nobody answers -/
def transceiver : Transceiver where
  settings := { endpoint := .serial "/dev/ttyS0" {}, framing := .rtu }
  attempts := [.ok {}]

/-- The first request goes out at once, after a second in which nothing was done; the next one 5
milliseconds after it timed out, the next whole ones behind three and a half characters. -/
theorem second_request_waits :
    let first := transceiver.connect.2.advanceTo 1000000000
    let next := transceiver.useAll
      [.connect, .exchange (.pass 1000000000), .exchange (.transact request)]
    transceiver.connect.1 = .ok () ∧ first.rested = 1000000000 ∧ first.Passes next ∧
      endsOnLink next.history = [2000000000] ∧ 2000000000 + 4010415 ≤ next.rested ∧
      next.rested = 2005000000 ∧ next.Passes (next.send request).2 := by
  intro first next
  have paced := bus_is_paced transceiver.settings {} transceiver.attempts none .disconnected 0
  have connected : transceiver.connect.1 = .ok () := by decide +kernel
  have checked : checkRequest request = .ok () := by decide
  obtain ⟨-, starts, -⟩ := paced []
  obtain ⟨atOnce, passes, -⟩ := starts connected 1000000000 request checked
  obtain ⟨-, -, rests⟩ := paced
    [.connect, .exchange (.pass 1000000000), .exchange (.transact request)]
  obtain ⟨late, -, passes'⟩ := rests (by decide +kernel)
  exact ⟨connected, atOnce, passes, by decide +kernel, late 2000000000 (by decide +kernel),
    by decide +kernel, (passes' request checked).2⟩

end Unanswered

end BusMaster
