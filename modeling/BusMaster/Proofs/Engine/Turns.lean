import BusMaster.Proofs.Engine.Tally
import BusMaster.Proofs.Query.Course

/-!
# What executions do

A tally sets down each execution of an action with its exchanges and its end. What it has set down
is the course of the session that the execution began with (`Turn.requests`), so whatever holds
throughout that session holds of the turn, at every moment and whatever the devices do
(`Tally.Kept.run`). The session of an action is made when its execution begins, from the nodes that
are known then.
-/

namespace BusMaster

/-- what is said of executions: of the action, the requests begun so far, and the end -/
abbrev TurnRule := Action → List Bytes → Option (Except RequestFault Gain) → Prop

namespace Turn

/-- the requests of its exchanges, in the order in which they were begun -/
def requests (x : Turn) : List Bytes := (x.contacts.map Contact.request).reverse

theorem requests_eq_nil_iff {x : Turn} : x.requests = [] ↔ x.contacts = [] := by
  rw [requests, List.reverse_eq_nil_iff, List.map_eq_nil_iff]

/-- the turn is as the rule has it -/
def Obeys (rule : TurnRule) (x : Turn) : Prop := rule x.action x.requests x.result

theorem requests_begin (x : Turn) (new : Contact) :
    (x.begin (some new)).requests = x.requests ++ [new.request] :=
  List.reverse_cons

/-- The end of an exchange begins none. -/
theorem requests_finish (x : Turn) (result : Except RequestFault Bytes) :
    (x.finish result).requests = x.requests := by
  rw [requests, requests, finish]
  cases x.contacts <;> rfl

end Turn

namespace Transceiver

variable {t : Transceiver} {request : Bytes} {reply : Bool}

theorem request_contact? {x : Contact} (h : t.contact? request reply = some x) :
    x.request = request := by
  rw [contact?] at h
  split at h
  · exact (congrArg Contact.request (Option.some.inj h)).symm
  · cases h

/-- What is not begun is over at once, with a fault. -/
theorem begin_of_contact?_none (h : t.contact? request reply = none) :
    ∃ fault t', t.begin request reply = (.finished (.error fault), t') := by
  have counted {line : Line} (checked : checkRequest request = .ok ()) (opened : t.line = some line) :
      t.contact? request reply ≠ none := by
    rw [contact?, checked, opened]
    exact Option.some_ne_none _
  have begins := t.begins request reply
  generalize t.begin request reply = begun at begins
  cases begins with
  | refused => exact ⟨_, _, rfl⟩
  | closed => exact ⟨_, _, rfl⟩
  | failed checked opened => exact absurd h (counted checked opened)
  | unanswered checked opened => exact absurd h (counted checked opened)
  | answered checked opened => exact absurd h (counted checked opened)

/-- An exchange of which nothing is waited for is begun, or fails. -/
theorem send_of_contact?_none (h : t.contact? request false = none) :
    ∃ fault, (t.send request).1 = .error fault := by
  obtain ⟨fault, t', hbegin⟩ := begin_of_contact?_none h
  exact ⟨fault, by rw [send, hbegin]; rfl⟩

end Transceiver

/-- the turn is that of the execution so far, and what is left of the session keeps to the rule -/
def Execution.Suits (rule : TurnRule) : Execution → Turn → Prop
  | .running a rest, x =>
    x.action = a ∧ x.result = none ∧ rest.Throughout (rule a) x.requests
  | .awaiting a _ next, x =>
    x.action = a ∧ x.result = none ∧ ∀ result, (next result).Throughout (rule a) x.requests
  | _, _ => True

namespace Execution

variable {rule : TurnRule} {x : Turn}

/-- A turn under way keeps to the rule so far. -/
theorem obeys_of_running {a : Action} {rest : Session Gain}
    (h : (Execution.running a rest).Suits rule x) : x.Obeys rule := by
  obtain ⟨rfl, hresult, throughout⟩ := h
  rw [Turn.Obeys, hresult]
  exact throughout.now

theorem obeys_of_awaiting {a : Action} {p : Pending}
    {next : Except RequestFault Bytes → Session Gain}
    (h : (Execution.awaiting a p next).Suits rule x) : x.Obeys rule := by
  obtain ⟨rfl, hresult, throughout⟩ := h
  rw [Turn.Obeys, hresult]
  exact (throughout (.ok [])).now

/-- Without an action under execution there is nothing to keep. -/
theorem suits_of_action?_none {execution : Execution} (h : execution.action? = none) :
    execution.Suits rule x := by
  cases execution with
  | running a rest => cases h
  | awaiting a p next => cases h
  | _ => exact trivial

end Execution

namespace Tally

variable {rule : TurnRule} {c : Tally} {e e' : Engine} {turns : List Turn}

/-- These turns keep to the rule, and so will the latest of them. -/
structure Kept (rule : TurnRule) (turns : List Turn) (execution : Execution) : Prop where
  all : ∀ x ∈ turns, x.Obeys rule
  latest : ∀ x ∈ turns.head?, execution.Suits rule x

/-- The latest turn goes on. -/
theorem Kept.modifyHead {execution execution' : Execution} (h : Kept rule turns execution)
    {f : Turn → Turn}
    (next : ∀ x, execution.Suits rule x → (f x).Obeys rule ∧ execution'.Suits rule (f x)) :
    Kept rule (turns.modifyHead f) execution' := by
  cases turns with
  | nil => exact ⟨fun x hx => (nomatch hx), fun x hx => nomatch hx⟩
  | cons x past =>
    obtain ⟨obeys, suits⟩ := next x (h.latest x rfl)
    refine ⟨fun y hy => ?_, fun y hy => Option.some.inj hy ▸ suits⟩
    rcases List.mem_cons.1 hy with rfl | hy
    · exact obeys
    · exact h.all y (List.mem_cons_of_mem x hy)

/-- The latest turn stays as it is, under another execution. -/
theorem Kept.same {execution execution' : Execution} (h : Kept rule turns execution)
    (next : ∀ x, execution.Suits rule x → execution'.Suits rule x) :
    Kept rule turns execution' :=
  ⟨h.all, fun x hx => next x (h.latest x hx)⟩

/-- The answer to a request that was begun, or the fault of one that was not. -/
theorem suits_begin {a : Action} {x : Turn} {request : Bytes} {reply : Bool} {t : Transceiver}
    {rest : Session Gain} (hx : x.action = a ∧ x.result = none)
    (unbegun : t.contact? request reply = none → rest.Throughout (rule a) x.requests)
    (begun : rest.Throughout (rule a) (x.requests ++ [request])) :
    (Execution.running a rest).Suits rule (x.begin (t.contact? request reply)) := by
  refine ⟨hx.1, hx.2, ?_⟩
  rcases hcontact : t.contact? request reply with _ | new
  · exact unbegun hcontact
  · rw [Turn.requests_begin, Transceiver.request_contact? hcontact]
    exact begun

/-- **A step of the execution keeps to the rule**, if the session of each action does that may begin
with it. -/
theorem Kept.executes (h : Kept rule turns e.execution) (step : Engine.Executes e e')
    (starts : ∀ a, (e.sessionOf a).Throughout (rule a) []) :
    Kept rule (e.turns turns) e'.execution := by
  cases step with
  | @begin a flow hexec hpop =>
    rw [Engine.turns, hexec, hpop]
    refine ⟨fun x hx => ?_, fun x hx => ?_⟩
    · rcases List.mem_cons.1 hx with rfl | hx
      · exact (starts a).now
      · exact h.all x hx
    · obtain rfl := Option.some.inj hx
      exact ⟨rfl, rfl, starts a⟩
  | @conclude a result hexec =>
    rw [hexec] at h
    rw [Engine.turns, hexec]
    refine h.modifyHead ?_
    rintro x ⟨rfl, -, -, ended⟩
    exact ⟨ended, Execution.suits_of_action?_none (e.conclude_flows x.action result).2.2⟩
  | note hexec =>
    rw [hexec] at h
    rw [Engine.turns, hexec]
    exact h.same fun x suits => suits
  | @tell a request next result t hexec hsend =>
    rw [hexec] at h
    rw [Engine.turns, hexec]
    refine h.modifyHead fun x suits => ?_
    obtain ⟨haction, hresult, -, unbegun, begun⟩ := suits
    have refused (none : e.transceiver.contact? request false = none) :
        (next result).Throughout (rule a) x.requests := by
      obtain ⟨fault, hfault⟩ := Transceiver.send_of_contact?_none none
      rw [hsend] at hfault
      obtain rfl : result = .error fault := hfault
      exact unbegun fault
    have suits := suits_begin ⟨haction, hresult⟩ refused (begun result)
    exact ⟨Execution.obeys_of_running suits, suits⟩
  | @ask a request next result t hexec hbegin =>
    rw [hexec] at h
    rw [Engine.turns, hexec]
    refine h.modifyHead fun x suits => ?_
    obtain ⟨haction, hresult, -, unbegun, begun⟩ := suits
    have refused (none : e.transceiver.contact? request true = none) :
        (next result).Throughout (rule a) x.requests := by
      obtain ⟨fault, t', hfault⟩ := Transceiver.begin_of_contact?_none none
      rw [hbegin] at hfault
      cases hfault
      exact unbegun fault
    have suits := suits_begin ⟨haction, hresult⟩ refused (begun result)
    exact ⟨Execution.obeys_of_running suits, suits⟩
  | @await a request next p t hexec hbegin =>
    rw [hexec] at h
    rw [Engine.turns, hexec]
    dsimp only
    rw [Transceiver.contact?_of_waiting hbegin]
    obtain ⟨-, -, -, -, -, -, hrequest, -⟩ := Transceiver.begin_waiting hbegin
    refine h.modifyHead fun x suits => ?_
    obtain ⟨haction, hresult, -, -, begun⟩ := suits
    have suits : (Execution.awaiting a p next).Suits rule (x.begin (some ⟨p.request, none⟩)) := by
      refine ⟨haction, hresult, fun result => ?_⟩
      rw [Turn.requests_begin, hrequest]
      exact begun result
    exact ⟨Execution.obeys_of_awaiting suits, suits⟩
  | @finish a p next result t hexec hfinish =>
    rw [hexec] at h
    rw [Engine.turns, hexec]
    refine h.modifyHead fun x suits => ?_
    obtain ⟨haction, hresult, throughout⟩ := suits
    have suits : (Execution.running a (next result)).Suits rule
        (x.finish (e.transceiver.finish p).1) := by
      refine ⟨haction, hresult, ?_⟩
      rw [Turn.requests_finish]
      exact throughout result
    exact ⟨Execution.obeys_of_running suits, suits⟩
  | deliver hexec hpush =>
    rw [Engine.turns, hexec]
    exact h.same fun x _ => trivial
  | announced hexec =>
    rw [Engine.turns, hexec]
    exact h.same fun x _ => trivial
  | announce hexec hpush =>
    rw [Engine.turns, hexec]
    exact h.same fun x _ => trivial

/-- Nothing was set down yet, so there is nothing to keep. -/
theorem Kept.empty (rule : TurnRule) (execution : Execution) : Kept rule [] execution :=
  ⟨fun _ hx => (nomatch hx), fun _ hx => nomatch hx⟩

theorem Kept.move {own : Option Pending} (h : Kept rule c.turns e.execution)
    (starts : ∀ a, (e.sessionOf a).Throughout (rule a) []) (m : Move) :
    Kept rule (c.follow ⟨e, own⟩ (.move m)).turns
      (Shared.step ⟨e, own⟩ (.move m)).engine.execution := by
  by_cases execution : m = .advance .execution
  · subst execution
    simp only [follow, Shared.step]
    split
    · exact h
    obtain ⟨e', hnext, executes⟩ | ⟨hsame, waits⟩ := e.executes_or_waits
    · rw [hnext]
      exact h.executes executes starts
    · rw [hsame, turns_of_waits waits]
      exact h
  · rw [follow_of_ne execution, Shared.step]
    split
    · exact h
    by_cases stop : m = .stop
    · subst stop
      by_cases running : e.isRunning = true
      · change Kept rule c.turns e.stop.execution
        rw [Engine.execution_stop running]
        exact h.same fun x _ => trivial
      · change Kept rule c.turns e.stop.execution
        rw [Engine.stop, if_neg running]
        exact h
    · rw [show (e.step m).execution = e.execution from Engine.execution_step stop execution e]
      exact h

/-- The host's own use of the transceiver is nobody's turn. -/
theorem Kept.follow {s : Shared} (h : Kept rule c.turns s.engine.execution)
    (starts : ∀ a, (s.engine.sessionOf a).Throughout (rule a) []) (d : Deed) :
    Kept rule (c.follow s d).turns (s.step d).engine.execution := by
  cases d with
  | move m => exact h.move starts m
  | begin request reply =>
    simp only [Tally.follow, Shared.step]
    split
    · exact h
    · rcases s.engine.transceiver.begin request reply with ⟨_ | _, t⟩ <;> exact h
  | finish =>
    rcases s with ⟨e, _ | p⟩ <;> exact h
  | leave => exact h

/-- **Over every run all executions keep to the rule**, if the engine stays such that the session of
each action does. -/
theorem Kept.run {P : Engine → Prop} (starts : ∀ e a, P e → (e.sessionOf a).Throughout (rule a) [])
    {s : Shared} (h : Kept rule c.turns s.engine.execution) (first : P s.engine) (deeds : List Deed)
    (stays : ∀ (s : Shared), ∀ d ∈ deeds, P s.engine → P (s.step d).engine) :
    Kept rule (c.run s deeds).turns (s.run deeds).engine.execution := by
  induction deeds generalizing c s with
  | nil => exact h
  | cons d deeds ih =>
    exact ih (h.follow (fun a => starts s.engine a first) d) (stays s d List.mem_cons_self first)
      fun s' d' hd' => stays s' d' (List.mem_cons_of_mem d hd')

end Tally

end BusMaster
