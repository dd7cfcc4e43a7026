import BusMaster.Proofs.Transceiver.Matching

/-!
# State and link

The state of a transceiver and its link are set down apart, and they stay together: between two
operations a link is open and the state says so, or neither is the case (`Transceiver.Settled`). An
exchange leaves the link as `conclude` does, closed if it is the link that failed (`ends_conclude`).
An attempt to open a link ends with the new one or with none (`connect_cases`). So what is said of
single operations holds after every run of them (`transceiver_is_orderly`).
-/

namespace BusMaster

namespace Transceiver

/-- a link is open, and the state says so -/
structure Opened (t : Transceiver) : Prop where
  state : t.state = .connected
  line : t.line.isSome

/-- no link is open, and the state says so -/
structure Closed (t : Transceiver) : Prop where
  state : t.state = .disconnected
  line : t.line = none

/-- state and link agree -/
def Settled (t : Transceiver) : Prop := t.Opened ∨ t.Closed

/-- nothing went out, nothing was counted, and the link is as it was -/
structure Untouched (t t' : Transceiver) : Prop where
  state : t'.state = t.state
  line : t'.line = t.line
  frames : t'.frames = t.frames
  messages : t'.messages = t.messages
  timeouts : t'.timeouts = t.timeouts

/-- how an exchange on an open link leaves it: closed if the link failed, and open after any other
fault and after none -/
def Ends {α : Type} : Except RequestFault α → Transceiver → Prop
  | .error (.link _), t => t.Closed
  | _, t => t.Opened

variable {t t' : Transceiver} {request : Bytes} {reply : Bool} {α β : Type}

theorem Ends.settled {result : Except RequestFault α} (h : Ends result t) : t.Settled := by
  rw [Ends.eq_def] at h
  split at h
  · exact .inr h
  · exact .inl h

theorem ends_of_opened {result : Except RequestFault α} (other : ∀ f, result ≠ .error (.link f))
    (h : t.Opened) : Ends result t := by
  rw [Ends.eq_def]
  split
  · exact absurd rfl (other _)
  · exact h

theorem Ends.map {result : Except RequestFault α} (h : Ends result t) (f : α → β) :
    Ends (result.map f) t := by
  cases result with
  | ok a => exact h
  | error fault => cases fault <;> exact h

/-! ## State and log -/

@[simp] theorem state_note (t : Transceiver) (lines : List LogLine) :
    (t.note lines).state = t.state := by
  obtain ⟨journal, h⟩ := t.note_eq lines
  rw [h]

@[simp] theorem state_setState (t : Transceiver) (state : ConnectionState) :
    (t.setState state).state = state := by
  rw [setState]
  split
  · assumption
  · rfl

theorem Opened.note (h : t.Opened) (lines : List LogLine) : (t.note lines).Opened :=
  ⟨(t.state_note lines).trans h.state, (congrArg Option.isSome (t.line_note lines)).trans h.line⟩

theorem opened_setState (h : t.line.isSome) : (t.setState .connected).Opened :=
  ⟨t.state_setState _, (congrArg Option.isSome (t.line_setState _)).trans h⟩

theorem closed_setState (h : t.line = none) : (t.setState .disconnected).Closed :=
  ⟨t.state_setState _, (t.line_setState _).trans h⟩

/-! ## Exchanges on an open link -/

/-- The end of an exchange closes the link if it is the link that failed. -/
theorem ends_conclude (h : t.Opened) (result : Except RequestFault Bytes) :
    Ends result (t.conclude result) := by
  rw [conclude.eq_def]
  dsimp only
  split
  · exact ⟨h.state, h.line⟩
  · exact closed_setState rfl
  · rename_i other
    exact ends_of_opened other ⟨h.state, h.line⟩

/-- A request that is refused is no fault of the link. -/
theorem checkRequest_ne_link (request : Bytes) (f : LinkFault) :
    checkRequest request ≠ .error (.link f) := by
  intro h
  rw [checkRequest] at h
  split at h
  · cases h
  · split at h <;> cases h

/-- The beginning of an exchange is its end, or leaves the link open to the response. -/
theorem begin_of_opened (h : t.Opened) (request : Bytes) (reply : Bool) :
    match t.begin request reply with
    | (.finished result, t') => Ends result t'
    | (.waiting _, t') => t'.Opened := by
  have begins := t.begins request reply
  generalize t.begin request reply = begun at begins
  have writing : (t.writing request).Opened := by
    obtain ⟨journal, hwriting⟩ := t.writing_eq request
    rw [hwriting]
    exact ⟨h.state, h.line⟩
  have written (line : Line) : (t.written request line).Opened := ⟨writing.state, rfl⟩
  cases begins with
  | @refused _ fault checked =>
    refine ends_of_opened (fun f hf => ?_) h
    obtain rfl := Except.error.inj hf
    exact checkRequest_ne_link request f checked
  | closed _ closed =>
    have hline := h.line
    rw [closed] at hline
    cases hline
  | failed => exact ends_conclude writing _
  | unanswered => exact ends_conclude (written _) _
  | answered => exact written _

theorem ends_finish (h : t.Opened) (p : Pending) : Ends (t.finish p).1 (t.finish p).2 := by
  obtain ⟨line, hline⟩ := Option.isSome_iff_exists.1 h.line
  rw [finish, hline]
  refine ends_conclude (Opened.note ?_ _) _
  exact ⟨h.state, rfl⟩

theorem ends_transact (h : t.Opened) (request : Bytes) :
    Ends (t.transact request).1 (t.transact request).2 := by
  have begun := begin_of_opened h request true
  rw [transact]
  rcases hbegin : t.begin request true with ⟨result | p, t'⟩ <;> rw [hbegin] at begun
  · exact begun
  · exact ends_finish begun p

theorem ends_send (h : t.Opened) (request : Bytes) :
    Ends (t.send request).1 (t.send request).2 := by
  have begun := begin_of_opened h request false
  rw [send]
  rcases hbegin : t.begin request false with ⟨result | p, t'⟩ <;> rw [hbegin] at begun
  · exact begun.map _
  · exact begun

/-! ## Exchanges without a link -/

theorem Untouched.closed (h : t.Untouched t') (closed : t.Closed) : t'.Closed :=
  ⟨h.state.trans closed.state, h.line.trans closed.line⟩

/-- Without a link an exchange is over with its beginning. -/
theorem begin_of_closed (h : t.Closed) (request : Bytes) (reply : Bool) :
    ∃ t', t.begin request reply =
      (.finished ((checkRequest request).bind fun _ => .error .notConnected), t') ∧
        t.Untouched t' := by
  have begins := t.begins request reply
  generalize t.begin request reply = begun at begins
  cases begins with
  | refused checked =>
    rw [checked]
    exact ⟨_, rfl, rfl, rfl, rfl, rfl, rfl⟩
  | closed checked =>
    rw [checked]
    exact ⟨_, rfl, rfl, rfl, rfl, rfl, rfl⟩
  | failed _ opened => cases h.line.symm.trans opened
  | unanswered _ opened => cases h.line.symm.trans opened
  | answered _ opened => cases h.line.symm.trans opened

theorem transact_of_closed (h : t.Closed) (request : Bytes) :
    (t.transact request).1 = (checkRequest request).bind (fun _ => .error .notConnected) ∧
      t.Untouched (t.transact request).2 := by
  obtain ⟨t', hbegin, untouched⟩ := begin_of_closed h request true
  rw [transact, hbegin]
  exact ⟨rfl, untouched⟩

theorem send_of_closed (h : t.Closed) (request : Bytes) :
    (t.send request).1 = (checkRequest request).bind (fun _ => .error .notConnected) ∧
      t.Untouched (t.send request).2 := by
  obtain ⟨t', hbegin, untouched⟩ := begin_of_closed h request false
  rw [send, hbegin]
  refine ⟨?_, untouched⟩
  dsimp only
  rcases checkRequest request with fault | ⟨⟨⟩⟩ <;> rfl

/-! ## Opening and closing a link -/

/-- A link that could not be opened is supported. -/
theorem toRequest_ne_unsupported (endpoint : Endpoint) (fault : OpenFault) :
    fault.toRequest endpoint ≠ .unsupported := by
  intro h
  rw [OpenFault.toRequest.eq_def] at h
  split at h <;> cases h

/-- An attempt to open a link ends with the new one, or with none. -/
theorem connect_cases (supported : t.settings.isSupported = true) :
    (t.connect.1 = .ok () ∧ t.connect.2.Opened) ∨
      ∃ fault, t.connect.1 = .error fault ∧ fault ≠ .unsupported ∧ t.connect.2.Closed := by
  have connects := t.connects
  generalize t.connect = connected at connects
  cases connects with
  | unsupported _ unsupported => cases supported.symm.trans unsupported
  | opened => exact .inl ⟨rfl, opened_setState rfl⟩
  | failed fault =>
    exact .inr ⟨_, rfl, toRequest_ne_unsupported _ fault, closed_setState (line_setState ..)⟩

/-- A link that is not supported is not attempted. -/
theorem connect_of_unsupported (unsupported : t.settings.isSupported = false) :
    ∃ l, t.connect = (.error .unsupported, t.record (.line l)) := by
  have connects := t.connects
  generalize t.connect = connected at connects
  cases connects with
  | unsupported l => exact ⟨l, rfl⟩
  | opened _ _ supported => cases supported.symm.trans unsupported
  | failed _ _ supported => cases supported.symm.trans unsupported

theorem closed_disconnect (t : Transceiver) : t.disconnect.Closed := by
  rw [disconnect]
  refine closed_setState ?_
  split
  · rfl
  · assumption

/-! ## Runs -/

theorem settled_connect (h : t.Settled) : t.connect.2.Settled := by
  rcases hsupported : t.settings.isSupported
  · obtain ⟨l, hconnect⟩ := connect_of_unsupported hsupported
    rw [hconnect]
    exact h.imp (fun h => ⟨h.state, h.line⟩) fun h => ⟨h.state, h.line⟩
  · rcases connect_cases hsupported with ⟨-, opened⟩ | ⟨fault, -, -, closed⟩
    · exact .inl opened
    · exact .inr closed

theorem settled_perform (h : t.Settled) (x : Exchange) : (t.perform x).Settled := by
  cases x with
  | transact request =>
    rcases h with opened | closed
    · exact (ends_transact opened request).settled
    · exact .inr ((transact_of_closed closed request).2.closed closed)
  | send request =>
    rcases h with opened | closed
    · exact (ends_send opened request).settled
    · exact .inr ((send_of_closed closed request).2.closed closed)
  | pass length => exact h.imp (fun h => ⟨h.state, h.line⟩) fun h => ⟨h.state, h.line⟩

/-- State and link agree after each use, if they did before. -/
theorem settled_use (h : t.Settled) (x : Use) : (t.use x).Settled := by
  cases x with
  | connect => exact settled_connect h
  | disconnect => exact .inr t.closed_disconnect
  | exchange x => exact settled_perform h x

theorem settled_useAll (h : t.Settled) (xs : List Use) : (t.useAll xs).Settled := by
  induction xs generalizing t with
  | nil => exact h
  | cons x xs ih => exact ih (settled_use h x)

/-- what each operation does to the link, and to the state with it -/
structure Orderly (t : Transceiver) : Prop where
  /-- the state is connected while a link is open, and only then -/
  connected_iff : t.state = .connected ↔ t.line.isSome
  /-- no operation ends while a link is being opened -/
  not_connecting : t.state ≠ .connecting
  /-- without a link exchanges are refused -/
  refused : t.state ≠ .connected → ∀ request,
    ((t.transact request).1 = (checkRequest request).bind (fun _ => .error .notConnected) ∧
      t.Untouched (t.transact request).2) ∧
    (t.send request).1 = (checkRequest request).bind (fun _ => .error .notConnected) ∧
      t.Untouched (t.send request).2
  /-- an exchange closes a link that fails, and no other -/
  exchanged : t.state = .connected → ∀ request,
    Ends (t.transact request).1 (t.transact request).2 ∧ Ends (t.send request).1 (t.send request).2
  /-- an attempt to open a link closes the one before it, whether it opens another one or not -/
  attempted : t.settings.isSupported = true → (t.connect.1 = .ok () ∧ t.connect.2.Opened) ∨
    ∃ fault, t.connect.1 = .error fault ∧ fault ≠ .unsupported ∧ t.connect.2.Closed
  /-- a link that is not supported is not attempted, and all but the log stays as it is -/
  unsupported : t.settings.isSupported = false →
    ∃ l, t.connect = (.error .unsupported, t.record (.line l))
  disconnected : t.disconnect.Closed

theorem Settled.orderly (h : t.Settled) : t.Orderly where
  connected_iff := by
    rcases h with h | h
    · exact iff_of_true h.state h.line
    · rw [h.state, h.line]
      decide
  not_connecting := by
    rcases h with h | h <;> rw [h.state] <;> decide
  refused apart request := by
    have closed := h.resolve_left fun h => apart h.state
    exact ⟨transact_of_closed closed request, send_of_closed closed request⟩
  exchanged connected request := by
    have opened := h.resolve_right fun h => by cases h.state.symm.trans connected
    exact ⟨ends_transact opened request, ends_send opened request⟩
  attempted := connect_cases
  unsupported := connect_of_unsupported
  disconnected := t.closed_disconnect

end Transceiver

open Transceiver

/-- **The state of a transceiver is connected while a link is open, and only then.**
From a new transceiver on, after any run of operations and whatever its links do: exchanges without
a link are refused and change nothing, an exchange closes its link if the link fails and only then,
an attempt to open a link replaces the one before it or leaves none, and one that is not supported
changes nothing. -/
theorem transceiver_is_orderly (settings : TransportSettings) (detail : Detail)
    (attempts : List Attempt) (xs : List Use) :
    (({ settings, detail, attempts } : Transceiver).useAll xs).Orderly :=
  (settled_useAll (.inr ⟨rfl, rfl⟩) xs).orderly

/-- The connection is reset while the response to the first request is awaited. -/
example :
    let t : Transceiver := {
      settings := { framing := .rtu, endpoint := .tcp "bus" 502 }
      attempts := [.ok { writes := [.taken [.fault .connectionReset]] }] }
    (t.useAll [.connect]).state = .connected ∧
      (t.useAll [.connect, .exchange (.transact [17, 3, 0, 0, 0, 1])]).state = .disconnected := by
  decide +kernel

end BusMaster
