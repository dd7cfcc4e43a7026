import BusMaster.Proofs.Transceiver.Exchange

/-!
# What a transceiver counts

An exchange is begun when its request fits a frame and a link is open (`Transceiver.contact?`); a
request that is refused, or that finds no link, begins none. The beginning of an exchange counts it,
whatever comes of it (`counts_begin`), and the end of its reading counts a timeout if there was no
answer by the deadline (`counts_finish`). Nothing else counts.
-/

namespace BusMaster

/-- the result is that no answer came by the deadline -/
def overdue {α : Type} : Except RequestFault α → Bool
  | .error .noReply => true
  | _ => false

theorem overdue_iff {α : Type} {result : Except RequestFault α} :
    overdue result = true ↔ result = .error .noReply := by
  rcases result with fault | a
  · cases fault <;> simp [overdue]
  · simp [overdue]

/-- an exchange that was begun on an open link -/
structure Contact where
  request : Bytes
  /-- how it ended; there is none while it is under way, nor if it was cut off -/
  result : Option (Except RequestFault Bytes)

/-- the exchange ended at its deadline -/
def Contact.isOverdue (x : Contact) : Bool := x.result.any overdue

/-- the result of an exchange that is over with its beginning -/
def Stage.result? : Stage → Option (Except RequestFault Bytes)
  | .finished result => some result
  | .waiting _ => none

namespace Transceiver

/-- the exchange that is begun with a request, unless it is refused or finds no link -/
def contact? (t : Transceiver) (request : Bytes) (reply : Bool) : Option Contact :=
  if (checkRequest request).isOk && t.line.isSome then
    some ⟨request, (t.begin request reply).1.result?⟩
  else none

/-- the counts of the exchanges that were begun and of those that ended at their deadline -/
def counts (t : Transceiver) : Nat × Nat := (t.messages, t.timeouts)

variable {t t' : Transceiver} {request : Bytes} {reply : Bool}

@[simp] theorem counts_note (t : Transceiver) (lines : List LogLine) :
    (t.note lines).counts = t.counts := by
  obtain ⟨journal, h⟩ := t.note_eq lines
  rw [h]
  rfl

@[simp] theorem counts_setState (t : Transceiver) (state : ConnectionState) :
    (t.setState state).counts = t.counts := by
  rw [setState]
  split <;> rfl

/-- An exchange that is over counts as a timeout if there was no answer. -/
theorem counts_conclude (t : Transceiver) (result : Except RequestFault Bytes) :
    (t.conclude result).counts =
      (t.messages, t.timeouts + if overdue result then 1 else 0) := by
  rw [conclude.eq_def]
  dsimp only
  split
  · rfl
  · rw [counts_setState]
    rfl
  · rename_i unanswered _
    have answered : ¬overdue result = true := fun h => unanswered (overdue_iff.1 h)
    rw [if_neg answered]
    rfl

/-- The beginning of an exchange counts it, if it is begun at all. -/
theorem counts_begin (t : Transceiver) (request : Bytes) (reply : Bool) :
    (t.begin request reply).2.counts =
      (t.messages + (t.contact? request reply).toList.length, t.timeouts) := by
  have writing : (t.writing request).counts = (t.messages + 1, t.timeouts) := by
    obtain ⟨journal, hwriting⟩ := t.writing_eq request
    rw [hwriting]
    rfl
  have begins := t.begins request reply
  rw [contact?]
  generalize t.begin request reply = begun at begins
  cases begins with
  | refused checked =>
    rw [checked]
    rfl
  | closed checked closed =>
    rw [checked, closed]
    rfl
  | failed checked opened =>
    rw [checked, opened]
    exact (counts_conclude ..).trans writing
  | unanswered checked opened =>
    rw [checked, opened]
    exact (counts_conclude ..).trans writing
  | answered checked opened =>
    rw [checked, opened]
    exact writing

theorem counts_send (t : Transceiver) (request : Bytes) :
    (t.send request).2.counts =
      (t.messages + (t.contact? request false).toList.length, t.timeouts) := by
  rw [← counts_begin, send]
  split <;> rename_i h <;> rw [h]

/-- The end of the reading counts a timeout if there was no answer. -/
theorem counts_finish (t : Transceiver) (p : Pending) :
    (t.finish p).2.counts =
      (t.messages, t.timeouts + if overdue (t.finish p).1 then 1 else 0) := by
  rw [finish]
  split
  · rfl
  · rename_i line hline
    have heard := counts_note { t with
      line := some { line with incoming := (t.listen p line.incoming).rest }
      now := max t.now (t.listen p line.incoming).moment } (t.listen p line.incoming).lines
    obtain ⟨hmessages, htimeouts⟩ := Prod.mk.inj heard
    dsimp only
    rw [counts_conclude, hmessages, htimeouts]

theorem counts_connect (t : Transceiver) : t.connect.2.counts = t.counts := by
  have connects := t.connects
  have attempting : t.attempting.counts = t.counts := counts_setState _ .connecting
  generalize t.connect = connected at connects
  cases connects with
  | unsupported => rfl
  | opened => exact (counts_setState ..).trans attempting
  | failed => exact (counts_setState ..).trans attempting

theorem counts_disconnect (t : Transceiver) : t.disconnect.counts = t.counts := by
  rw [disconnect]
  refine (counts_setState ..).trans ?_
  split <;> rfl

/-! ## How an exchange stands when it was begun -/

/-- Whatever is over with its beginning was not waited for. -/
theorem begin_ne_noReply {result : Except RequestFault Bytes}
    (h : t.begin request reply = (.finished result, t')) : result ≠ .error .noReply := by
  obtain ⟨-, -, unsent, -⟩ := begin_finished h
  exact fun hresult => (unsent _ hresult).ne_noReply rfl

/-- Nobody waits for an answer to what is only sent. -/
theorem send_ne_noReply (t : Transceiver) (request : Bytes) :
    (t.send request).1 ≠ .error .noReply := by
  rw [send]
  rcases hbegin : t.begin request false with ⟨result | p, t'⟩
  · rcases result with fault | response
    · exact fun h => begin_ne_noReply hbegin (congrArg Except.error (Except.error.inj h))
    · exact nofun
  · exact nofun

/-- Whatever is waited for was begun. -/
theorem contact?_of_waiting {p : Pending} (h : t.begin request reply = (.waiting p, t')) :
    t.contact? request reply = some ⟨p.request, none⟩ := by
  obtain ⟨line, _, hline, -, -, -, hrequest, -, checked, -⟩ := begin_waiting h
  rw [contact?, checked, hline, h, hrequest]
  rfl

/-- No exchange is at its deadline when it is begun. -/
theorem isOverdue_contact? {x : Contact} (hx : x ∈ t.contact? request reply) :
    x.isOverdue = false := by
  rcases hbegin : t.begin request reply with ⟨result | p, t'⟩
  · rw [contact?, hbegin] at hx
    split at hx
    · obtain rfl := Option.some.inj hx
      exact Bool.eq_false_iff.2 fun late => begin_ne_noReply hbegin (overdue_iff.1 late)
    · cases hx
  · obtain rfl := Option.some.inj ((contact?_of_waiting hbegin).symm.trans hx)
    rfl

/-! ## Counts and contacts -/

/-- The counts grew as a list of contacts did. -/
structure Reckons (t t' : Transceiver) (before after : List Contact) : Prop where
  messages : t'.messages + before.length = t.messages + after.length
  timeouts : t'.timeouts + before.countP Contact.isOverdue =
    t.timeouts + after.countP Contact.isOverdue

variable (contacts : List Contact)

/-- The exchange that is begun, if one is, is one more contact. -/
theorem reckons_of_counts
    (counts : t'.counts = (t.messages + (t.contact? request reply).toList.length, t.timeouts)) :
    t.Reckons t' contacts ((t.contact? request reply).toList ++ contacts) := by
  obtain ⟨hmessages, htimeouts⟩ := Prod.mk.inj counts
  have inTime : (t.contact? request reply).toList.countP Contact.isOverdue = 0 :=
    List.countP_eq_zero.2 fun x hx =>
      Bool.eq_false_iff.1 (isOverdue_contact? (Option.mem_toList.1 hx))
  refine ⟨?_, ?_⟩
  · rw [hmessages, List.length_append, Nat.add_assoc]
  · rw [htimeouts, List.countP_append, inTime, Nat.zero_add]

theorem reckons_begin (t : Transceiver) (request : Bytes) (reply : Bool) :
    t.Reckons (t.begin request reply).2 contacts
      ((t.contact? request reply).toList ++ contacts) :=
  reckons_of_counts contacts (t.counts_begin request reply)

theorem reckons_send (t : Transceiver) (request : Bytes) :
    t.Reckons (t.send request).2 contacts ((t.contact? request false).toList ++ contacts) :=
  reckons_of_counts contacts (t.counts_send request)

/-- The exchange under way gets its end. -/
theorem reckons_finish (t : Transceiver) (p : Pending) :
    t.Reckons (t.finish p).2 (⟨p.request, none⟩ :: contacts)
      (⟨p.request, some (t.finish p).1⟩ :: contacts) := by
  obtain ⟨hmessages, htimeouts⟩ := Prod.mk.inj (t.counts_finish p)
  refine ⟨congrArg (· + (contacts.length + 1)) hmessages, ?_⟩
  rw [htimeouts, List.countP_cons, List.countP_cons]
  change _ + (_ + 0) = _ + (_ + if overdue (t.finish p).1 = true then 1 else 0)
  omega

end Transceiver

end BusMaster
