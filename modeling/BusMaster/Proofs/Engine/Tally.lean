import BusMaster.Proofs.Engine.Figures

/-!
# Counters that tell the truth

The counters of an engine grow in three places: where an exchange begins, where its reading ends, and
where an action is given up. The host may use the transceiver of the engine as well, and what it does
there counts too (`Shared`). A tally keeps the books on a run without looking at the counters: the
exchanges that were begun on an open link, each with its end, those of an action with the action, and
what each action ended with (`Tally.follow`). The counters are the tally's (`Tally.Exact`), along
every run: an enumeration that ends with a query that nobody answered has its timeout counted, and
what a stop cuts off stays begun. An action ends without an answer only if an exchange of it did, so
each failure comes with a timeout of its own, and each timeout with an exchange
(`counters_tell_the_truth`).
-/

namespace BusMaster

/-! ## An engine whose transceiver the host uses too -/

/-- the move opens, closes or uses the link -/
def Engine.needsLink (e : Engine) : Move → Bool
  | .connect | .disconnect | .stop => true
  | .advance .execution =>
    match e.execution with
    | .running _ (.ask ..) | .running _ (.tell ..) | .running _ (.done (.error (.link _))) => true
    | _ => false
  | _ => false

/-- an engine, and the exchange that the host itself has under way on its transceiver -/
structure Shared where
  engine : Engine
  own : Option Pending := none

/-- what can happen next -/
inductive Deed where
  /-- a move of the engine -/
  | move (m : Move)
  /-- the host begins an exchange of its own -/
  | begin (request : Bytes) (reply : Bool)
  /-- the host reads the response -/
  | finish
  /-- the host gives its exchange up -/
  | leave

namespace Shared

/-- the state after a deed; there is one exchange at a time, and what needs the link meanwhile waits -/
def step (s : Shared) : Deed → Shared
  | .move m =>
    if s.own.isSome && s.engine.needsLink m then s else { s with engine := s.engine.step m }
  | .begin request reply =>
    if s.own.isSome || s.engine.isAwaiting then s
    else
      match s.engine.transceiver.begin request reply with
      | (.finished _, t) => { s with engine := { s.engine with transceiver := t } }
      | (.waiting p, t) => { engine := { s.engine with transceiver := t }, own := some p }
  | .finish =>
    match s.own with
    | some p =>
      { engine := { s.engine with transceiver := (s.engine.transceiver.finish p).2 }, own := none }
    | none => s
  | .leave => { s with own := none }

/-- the state after deeds -/
def run (s : Shared) (deeds : List Deed) : Shared := deeds.foldl step s

end Shared

/-! ## The tally -/

/-- the end of an exchange -/
def Contact.settle (result : Except RequestFault Bytes) (x : Contact) : Contact :=
  { x with result := some result }

/-- the execution of an action -/
structure Turn where
  action : Action
  /-- its exchanges, the latest first -/
  contacts : List Contact := []
  /-- what it ended with; there is none while it is under way, nor if it was cut off -/
  result : Option (Except RequestFault Gain) := none

namespace Turn

/-- an exchange begins -/
def begin (new : Option Contact) (x : Turn) : Turn :=
  { x with contacts := new.toList ++ x.contacts }

/-- the exchange under way ends -/
def finish (result : Except RequestFault Bytes) (x : Turn) : Turn :=
  { x with contacts := x.contacts.modifyHead (Contact.settle result) }

/-- the execution ends -/
def settle (result : Except RequestFault Gain) (x : Turn) : Turn := { x with result := some result }

/-- the execution ended without an answer, and no retry was left -/
def isGivenUp (maxRetries : UInt8) (x : Turn) : Bool :=
  x.result.any fun result => Trial.isGivenUp maxRetries ⟨x.action, result⟩

end Turn

/-- the executions, the latest first, after a step of the execution of actions -/
def Engine.turns (e : Engine) (turns : List Turn) : List Turn :=
  match e.execution with
  | .idle =>
    match e.actions.pop? with
    | some (a, _) => { action := a } :: turns
    | none => turns
  | .running _ (.done result) => turns.modifyHead (Turn.settle result)
  | .running _ (.tell request _) =>
    turns.modifyHead (Turn.begin (e.transceiver.contact? request false))
  | .running _ (.ask request _) =>
    turns.modifyHead (Turn.begin (e.transceiver.contact? request true))
  | .awaiting _ p _ => turns.modifyHead (Turn.finish (e.transceiver.finish p).1)
  | _ => turns

/-- what happened in a run -/
structure Tally where
  /-- the exchanges of the host itself, the latest first -/
  own : List Contact := []
  turns : List Turn := []

namespace Tally

/-- all exchanges that were begun on an open link -/
def contacts (c : Tally) : List Contact := c.own ++ c.turns.flatMap Turn.contacts

/-- what a deed means for the tally -/
def follow (c : Tally) (s : Shared) : Deed → Tally
  | .move (.advance .execution) =>
    if s.own.isSome && s.engine.needsLink (.advance .execution) then c
    else { c with turns := s.engine.turns c.turns }
  | .move _ => c
  | .begin request reply =>
    if s.own.isSome || s.engine.isAwaiting then c
    else { c with own := (s.engine.transceiver.contact? request reply).toList ++ c.own }
  | .finish =>
    match s.own with
    | some p =>
      { c with own := c.own.modifyHead (Contact.settle (s.engine.transceiver.finish p).1) }
    | none => c
  | .leave => c

/-- the tally after deeds -/
def run (c : Tally) (s : Shared) : List Deed → Tally
  | [] => c
  | d :: deeds => (c.follow s d).run (s.step d) deeds

end Tally

/-! ## The books are right -/

/-- an answer came, or something else went wrong than that none did -/
def Answered (fault : RequestFault) : Prop := fault ≠ .noReply

theorem answered_of_complaint (fault : RequestFault) (h : fault.IsComplaint) : Answered fault := by
  rintro rfl
  exact h

theorem faultIn_answered {α : Type} {result : Except RequestFault α}
    (h : result ≠ .error .noReply) : FaultIn Answered result := by
  cases result with
  | ok a => exact trivial
  | error fault => exact fun hfault => h (congrArg Except.error hfault)

/-- Whatever an action does, it hands on the faults of its exchanges, complaints apart. -/
theorem Engine.endsIn_sessionOf {P : RequestFault → Prop}
    (complaints : ∀ fault : RequestFault, fault.IsComplaint → P fault) (e : Engine) (a : Action) :
    (e.sessionOf a).EndsIn P := by
  rw [Engine.sessionOf]
  split
  · exact Action.endsIn_session complaints ..
  · exact Action.endsIn_refuse complaints _

/-- The latest execution is the one under way. Without an answer it ends only if it was without one
before, or will be. -/
def Execution.Current : Execution → List Turn → Prop
  | .running a rest, turns => ∃ contacts past, turns = ⟨a, contacts, none⟩ :: past ∧
    (rest.EndsIn Answered ∨ contacts.any Contact.isOverdue = true)
  | .awaiting a p next, turns => ∃ contacts past,
    turns = ⟨a, ⟨p.request, none⟩ :: contacts, none⟩ :: past ∧
      ((∀ result, FaultIn Answered result → (next result).EndsIn Answered) ∨
        contacts.any Contact.isOverdue = true)
  | _, _ => True

namespace Tally

/-- The counters are those of the tally. -/
structure Exact (settings : EngineSettings) (c : Tally) (s : Shared) : Prop where
  figures : s.engine.figures = (settings,
    (c.contacts.length, c.contacts.countP Contact.isOverdue),
    c.turns.countP (Turn.isGivenUp settings.maxRetries))
  /-- an execution that ended without an answer had an exchange that did -/
  owed : ∀ x ∈ c.turns, x.result = some (.error .noReply) →
    x.contacts.any Contact.isOverdue = true
  own : ∀ p, s.own = some p → ∃ past, c.own = ⟨p.request, none⟩ :: past
  current : s.engine.execution.Current c.turns

variable {settings : EngineSettings} {c : Tally} {e e' : Engine} {own : Option Pending}

/-- The execution under way goes on to other exchanges, which are counted. -/
theorem Exact.goOn (h : c.Exact settings ⟨e, own⟩) {a : Action} {contacts new : List Contact}
    {past : List Turn} (hturns : c.turns = ⟨a, contacts, none⟩ :: past) {t : Transceiver}
    {execution : Execution} (reckons : e.transceiver.Reckons t contacts new)
    (current : execution.Current (⟨a, new, none⟩ :: past)) :
    ({ c with turns := ⟨a, new, none⟩ :: past } : Tally).Exact settings
      ⟨{ e with transceiver := t, execution := execution }, own⟩ := by
  obtain ⟨messages, timeouts⟩ := reckons
  obtain ⟨hsettings, hcounts, hfailures⟩ := Prod.mk.inj h.figures |>.imp_right Prod.mk.inj
  obtain ⟨hmessages, htimeouts⟩ := Prod.mk.inj hcounts
  rw [Tally.contacts, hturns] at hmessages htimeouts
  rw [hturns] at hfailures
  refine ⟨?_, fun x hx => ?_, h.own, current⟩
  · simp only [Engine.figures, Transceiver.counts, Prod.mk.injEq, Tally.contacts]
    simp only [List.flatMap_cons, List.length_append, List.countP_append] at hmessages htimeouts ⊢
    exact ⟨hsettings, ⟨by omega, by omega⟩, hfailures⟩
  · rcases List.mem_cons.1 hx with rfl | hx
    · exact nofun
    · exact h.owed x (hturns ▸ List.mem_cons_of_mem _ hx)

/-- The host goes on with an exchange of its own, which is counted. -/
theorem Exact.exchange (h : c.Exact settings ⟨e, own⟩) {t : Transceiver} {new : List Contact}
    {own' : Option Pending} (reckons : e.transceiver.Reckons t c.own new)
    (underway : ∀ p, own' = some p → ∃ past, new = ⟨p.request, none⟩ :: past) :
    ({ c with own := new } : Tally).Exact settings ⟨{ e with transceiver := t }, own'⟩ := by
  obtain ⟨messages, timeouts⟩ := reckons
  obtain ⟨hsettings, hcounts, hfailures⟩ := Prod.mk.inj h.figures |>.imp_right Prod.mk.inj
  obtain ⟨hmessages, htimeouts⟩ := Prod.mk.inj hcounts
  refine ⟨?_, h.owed, underway, h.current⟩
  simp only [Engine.figures, Transceiver.counts, Prod.mk.injEq, Tally.contacts]
  simp only [Tally.contacts, List.length_append, List.countP_append] at hmessages htimeouts ⊢
  exact ⟨hsettings, ⟨by omega, by omega⟩, hfailures⟩

/-! ### The engine moves -/

/-- What follows the end of an action is no execution. -/
theorem current_conclude (e : Engine) (a : Action) (result : Except RequestFault Gain)
    (turns : List Turn) : (e.conclude a result).execution.Current turns := by
  rw [Engine.conclude.eq_def]
  dsimp only
  split
  · exact trivial
  · exact trivial
  · exact trivial
  · split
    · rw [(Engine.offers_submit ..).execution]
      exact trivial
    · exact trivial
  · split <;> exact trivial

/-- An action at its end is given up or not, as the tally has it. -/
theorem Exact.conclude (h : c.Exact settings ⟨e, own⟩) {a : Action}
    {result : Except RequestFault Gain} (hexec : e.execution = .running a (.done result)) :
    ({ c with turns := e.turns c.turns } : Tally).Exact settings ⟨e.conclude a result, own⟩ := by
  have current := h.current
  rw [hexec] at current
  obtain ⟨contacts, past, hturns, ended⟩ := current
  have hnext : e.turns c.turns = ⟨a, contacts, some result⟩ :: past := by
    rw [Engine.turns, hexec, hturns]
    rfl
  have figures := h.figures
  rw [Tally.contacts, hturns] at figures
  obtain ⟨hsettings, hcounts, hfailures⟩ := Prod.mk.inj figures |>.imp_right Prod.mk.inj
  rw [hnext]
  refine ⟨?_, fun x hx hresult => ?_, h.own, current_conclude ..⟩
  · rw [e.figures_conclude, hsettings, hcounts, hfailures, Tally.contacts, List.countP_cons,
      List.countP_cons]
    rfl
  · rcases List.mem_cons.1 hx with rfl | hx
    · obtain rfl := Option.some.inj hresult
      exact ended.resolve_left fun answered => answered rfl
    · exact h.owed x (hturns ▸ List.mem_cons_of_mem _ hx) hresult

theorem Exact.executes (h : c.Exact settings ⟨e, own⟩) (step : Engine.Executes e e') :
    ({ c with turns := e.turns c.turns } : Tally).Exact settings ⟨e', own⟩ := by
  have current := h.current
  cases step with
  | @begin a flow hexec hpop =>
    rw [Engine.turns, hexec, hpop]
    -- there was no exchange yet, so whatever the action ends with is still to come
    refine ⟨h.figures, fun x hx => ?_, h.own, [], c.turns, rfl, .inl ?_⟩
    · rcases List.mem_cons.1 hx with rfl | hx
      · exact nofun
      · exact h.owed x hx
    · exact Engine.endsIn_sessionOf answered_of_complaint e a
  | conclude hexec => exact h.conclude hexec
  | @note a line rest hexec =>
    rw [hexec] at current
    obtain ⟨contacts, past, hturns, ended⟩ := current
    rw [Engine.turns, hexec]
    exact ⟨(Engine.schedules_note ..).figures.trans h.figures, h.owed, h.own, contacts, past,
      hturns, ended⟩
  | @tell a request next result t hexec hsend =>
    rw [hexec] at current
    obtain ⟨contacts, past, hturns, ended⟩ := current
    have reckons := e.transceiver.reckons_send contacts request
    -- what is over at once was not waited for, so the rest of the action is to blame as before
    have answered := e.transceiver.send_ne_noReply request
    rw [hsend] at reckons answered
    rw [Engine.turns, hexec, hturns]
    refine h.goOn hturns reckons ⟨_, past, rfl, ended.imp (fun within => ?_) fun late => ?_⟩
    · exact within result (faultIn_answered answered)
    · rw [List.any_append, late, Bool.or_true]
  | @ask a request next result t hexec hbegin =>
    rw [hexec] at current
    obtain ⟨contacts, past, hturns, ended⟩ := current
    have reckons := e.transceiver.reckons_begin contacts request true
    have answered := Transceiver.begin_ne_noReply hbegin
    rw [hbegin] at reckons
    rw [Engine.turns, hexec, hturns]
    refine h.goOn hturns reckons ⟨_, past, rfl, ended.imp (fun within => ?_) fun late => ?_⟩
    · exact within result (faultIn_answered answered)
    · rw [List.any_append, late, Bool.or_true]
  | @await a request next p t hexec hbegin =>
    rw [hexec] at current
    obtain ⟨contacts, past, hturns, ended⟩ := current
    have reckons := e.transceiver.reckons_begin contacts request true
    have begun := Transceiver.contact?_of_waiting hbegin
    rw [hbegin, begun] at reckons
    rw [Engine.turns, hexec, hturns]
    dsimp only
    rw [begun]
    exact h.goOn hturns reckons ⟨contacts, past, rfl, ended⟩
  | @finish a p next result t hexec hfinish =>
    rw [hexec] at current
    obtain ⟨contacts, past, hturns, ended⟩ := current
    have reckons := e.transceiver.reckons_finish contacts p
    rw [hfinish] at reckons
    rw [Engine.turns, hexec, hturns]
    dsimp only
    rw [hfinish]
    refine h.goOn hturns reckons ⟨⟨p.request, some result⟩ :: contacts, past, rfl, ?_⟩
    rw [List.any_cons, Bool.or_eq_true_iff]
    -- this is the exchange that got no answer, or all is as before
    by_cases late : overdue result = true
    · exact .inr (.inl late)
    · refine ended.imp (fun within => within result (faultIn_answered fun h => ?_)) .inr
      exact late (overdue_iff.2 h)
  | deliver hexec hpush =>
    rw [Engine.turns, hexec]
    exact ⟨h.figures, h.owed, h.own, trivial⟩
  | announced hexec =>
    rw [Engine.turns, hexec]
    exact ⟨h.figures, h.owed, h.own, trivial⟩
  | announce hexec hpush =>
    rw [Engine.turns, hexec]
    exact ⟨h.figures, h.owed, h.own, trivial⟩

/-- A step of the execution that has to wait is nobody's turn. -/
theorem turns_of_waits (waits : (e.execution = .idle ∧ e.actions.items = []) ∨
      (∃ m, e.execution = .delivering m) ∨ ∃ node units, e.execution = .announcing node units)
    (turns : List Turn) : e.turns turns = turns := by
  rw [Engine.turns]
  rcases waits with ⟨hexec, none⟩ | ⟨m, hexec⟩ | ⟨node, units, hexec⟩
  · rw [hexec, Flow.pop?_eq_none_iff.2 none]
  · rw [hexec]
  · rw [hexec]

/-- All other moves mean nothing for the tally. -/
theorem follow_of_ne {m : Move} (execution : m ≠ .advance .execution) (s : Shared) :
    c.follow s (.move m) = c := by
  cases m with
  | advance consumer =>
    cases consumer with
    | execution => exact absurd rfl execution
    | _ => rfl
  | _ => rfl

/-- A move of the engine, and what the tally makes of it. -/
theorem Exact.move (h : c.Exact settings ⟨e, own⟩) (m : Move) :
    (c.follow ⟨e, own⟩ (.move m)).Exact settings (Shared.step ⟨e, own⟩ (.move m)) := by
  by_cases execution : m = .advance .execution
  · subst execution
    simp only [follow, Shared.step]
    split
    · exact h
    obtain ⟨e', hnext, executes⟩ | ⟨hsame, waits⟩ := e.executes_or_waits
    · rw [hnext]
      exact h.executes executes
    · rw [hsame, turns_of_waits waits]
      exact h
  · rw [follow_of_ne execution, Shared.step]
    split
    · exact h
    refine ⟨(Engine.figures_step execution e).trans h.figures, h.owed, h.own, ?_⟩
    by_cases stop : m = .stop
    · subst stop
      by_cases running : e.isRunning = true
      · change e.stop.execution.Current c.turns
        rw [Engine.execution_stop running]
        exact trivial
      · change e.stop.execution.Current c.turns
        rw [Engine.stop, if_neg running]
        exact h.current
    · exact (Engine.execution_step stop execution e) ▸ h.current

/-! ### The host uses the transceiver -/

/-- The host begins an exchange. -/
theorem Exact.begin (h : c.Exact settings ⟨e, own⟩) (request : Bytes) (reply : Bool) :
    (c.follow ⟨e, own⟩ (.begin request reply)).Exact settings
      (Shared.step ⟨e, own⟩ (.begin request reply)) := by
  simp only [follow, Shared.step]
  split
  · exact h
  rename_i free
  have reckons := e.transceiver.reckons_begin c.own request reply
  rcases hbegin : e.transceiver.begin request reply with ⟨result | p, t⟩
  · rw [hbegin] at reckons
    refine h.exchange reckons fun p hp => ?_
    rw [show own = some p from hp] at free
    exact absurd rfl free
  · rw [hbegin] at reckons
    refine h.exchange reckons fun p' hp => ⟨c.own, ?_⟩
    obtain rfl := Option.some.inj hp
    rw [Transceiver.contact?_of_waiting hbegin]
    rfl

/-- The host reads the response. -/
theorem Exact.finish (h : c.Exact settings ⟨e, own⟩) :
    (c.follow ⟨e, own⟩ .finish).Exact settings (Shared.step ⟨e, own⟩ .finish) := by
  rcases own with _ | p
  · exact h
  obtain ⟨past, hown⟩ := h.own p rfl
  simp only [follow, Shared.step]
  refine h.exchange ?_ nofun
  rw [hown]
  exact e.transceiver.reckons_finish past p

/-! ### Every run -/

theorem Exact.follow {s : Shared} (h : c.Exact settings s) (d : Deed) :
    (c.follow s d).Exact settings (s.step d) := by
  cases d with
  | move m => exact h.move m
  | begin request reply => exact h.begin request reply
  | finish => exact h.finish
  | leave => exact ⟨h.figures, h.owed, nofun, h.current⟩

/-- The tally of an engine that did nothing yet. -/
theorem Exact.empty (settings : EngineSettings) (transport : TransportSettings) (detail : Detail)
    (attempts : List Attempt) :
    ({} : Tally).Exact settings
      { engine := { settings, transceiver := { settings := transport, detail, attempts } } } where
  figures := rfl
  owed _ hx := nomatch hx
  own := nofun
  current := trivial

/-- **After every run the counters are those of the tally.** -/
theorem Exact.run {s : Shared} (h : c.Exact settings s) (deeds : List Deed) :
    (c.run s deeds).Exact settings (s.run deeds) := by
  induction deeds generalizing c s with
  | nil => exact h
  | cons d deeds ih => exact ih (h.follow d)

/-- An execution that was given up had an exchange that got no answer. -/
theorem Exact.exists_overdue {s : Shared} (h : c.Exact settings s) {x : Turn} (hx : x ∈ c.turns)
    {maxRetries : UInt8} (givenUp : x.isGivenUp maxRetries = true) :
    ∃ y ∈ x.contacts, y.isOverdue = true := by
  obtain ⟨result, hresult, hgivenUp⟩ := (Option.any_eq_true ..).1 givenUp
  obtain ⟨unanswered, -⟩ := Trial.isGivenUp_iff.1 hgivenUp
  exact List.any_eq_true.1 (h.owed x hx (hresult.trans (congrArg some unanswered)))

/-- Each execution that was given up has a timeout of its own. -/
theorem countP_isGivenUp_le {maxRetries : UInt8} {turns : List Turn}
    (owed : ∀ x ∈ turns, x.isGivenUp maxRetries = true → ∃ y ∈ x.contacts, y.isOverdue = true) :
    turns.countP (Turn.isGivenUp maxRetries) ≤
      (turns.flatMap Turn.contacts).countP Contact.isOverdue := by
  induction turns with
  | nil => exact Nat.le_refl 0
  | cons x turns ih =>
    have rest := ih fun y hy => owed y (List.mem_cons_of_mem _ hy)
    rw [List.countP_cons, List.flatMap_cons, List.countP_append]
    split
    · rename_i givenUp
      have overdue := List.countP_pos_iff.2 (owed x List.mem_cons_self givenUp)
      omega
    · omega

end Tally

/-- **The counters tell the truth.** After every run of a new engine and its transceiver, which the
host may use as well, and whatever the devices do: messages are the exchanges that were begun on an
open link, timeouts are those among them that ended without an answer, and failures are the
executions of actions that ended without an answer when no retry was left. An execution that ended so
had an exchange that did. So there are no more failures than timeouts, and no more timeouts than
messages. -/
theorem counters_tell_the_truth (settings : EngineSettings) (transport : TransportSettings)
    (detail : Detail) (attempts : List Attempt) (deeds : List Deed) :
    let first : Shared :=
      { engine := { settings, transceiver := { settings := transport, detail, attempts } } }
    let counters := (first.run deeds).engine.counters
    let tally := Tally.run {} first deeds
    counters.messages = tally.contacts.length ∧
    counters.timeouts = tally.contacts.countP Contact.isOverdue ∧
    counters.failures = tally.turns.countP (Turn.isGivenUp settings.maxRetries) ∧
    (∀ x ∈ tally.turns, x.isGivenUp settings.maxRetries = true →
      ∃ y ∈ x.contacts, y.isOverdue = true) ∧
    counters.failures ≤ counters.timeouts ∧ counters.timeouts ≤ counters.messages := by
  intro first counters tally
  have exact : tally.Exact settings (first.run deeds) :=
    (Tally.Exact.empty settings transport detail attempts).run deeds
  obtain ⟨-, hcounts, failures⟩ := Prod.mk.inj exact.figures |>.imp_right Prod.mk.inj
  obtain ⟨messages, timeouts⟩ := Prod.mk.inj hcounts
  have owed (x : Turn) (hx : x ∈ tally.turns) (givenUp : x.isGivenUp settings.maxRetries = true) :=
    exact.exists_overdue hx givenUp
  refine ⟨messages, timeouts, failures, owed, ?_, ?_⟩
  · calc counters.failures
        = tally.turns.countP (Turn.isGivenUp settings.maxRetries) := failures
      _ ≤ (tally.turns.flatMap Turn.contacts).countP Contact.isOverdue :=
        Tally.countP_isGivenUp_le owed
      _ ≤ tally.contacts.countP Contact.isOverdue :=
        (List.sublist_append_right ..).countP_le
      _ = counters.timeouts := timeouts.symm
  · calc counters.timeouts
        = tally.contacts.countP Contact.isOverdue := timeouts
      _ ≤ tally.contacts.length := List.countP_le_length
      _ = counters.messages := messages.symm

/-- Nobody answers the first query of an enumeration. It ends well, and its timeout counts. -/
example :
    let handOut : Action := {
      dataset := 1
      node := 1
      cls := .setLogicalAddress
      action := .write
      address := 2
      length := 1 }
    let first : Shared := { engine := {
      settings := {}
      transceiver := {
        settings := { framing := .bridge, endpoint := .tcp "bus" 502 }
        attempts := [.ok { writes := [.taken [], .taken []] }] } } }
    let moves : List Move := [.connect, .addNode 1 ⟨⟨17⟩, .vendor⟩, .submit handOut] ++
      List.replicate 8 (.advance .execution)
    (first.run (moves.map .move)).engine.counters = ⟨2, 1, 0, 0⟩ := by
  decide +kernel

end BusMaster
