import BusMaster.Proofs.Engine.Spreading
import BusMaster.Proofs.Transceiver.Exchange

/-!
# What enters the flow of actions

Everything that hands out actions does it through `Engine.enqueue`, which puts an action at the end of
its flow or drops it. So whatever the host or a consumer does, unless it takes something out, the
flow of actions afterwards is the flow before followed by some of the actions that were offered, in
their order (`Engine.Offers`), and neither the waiting states nor the execution are touched. No frame
goes out then: only an action under execution puts one on the wire (`Engine.sendings_step`).
-/

namespace BusMaster

/-- the action under execution -/
def Execution.action? : Execution → Option Action
  | .running a _ | .awaiting a _ _ => some a
  | _ => none

namespace Engine

/-- number of frames that went out -/
def sendings (e : Engine) : Nat := e.transceiver.sendings

@[simp] theorem sendings_note (e : Engine) (lines : List LogLine) :
    (e.note lines).sendings = e.sendings := (e.transceiver.quiet_note lines).sendings

/-- Some of the offered actions entered their flow at its end, and nothing else happened that
concerns writes. -/
structure Offers (e e' : Engine) (offered : List Action) : Prop where
  actions : ∃ new : List Action, new.Sublist offered ∧ e'.actions.items = e.actions.items ++ new
  states : e'.states.items = e.states.items
  execution : e'.execution = e.execution
  catalog : e'.catalog = e.catalog
  isRunning : e'.isRunning = e.isRunning
  sendings : e'.sendings = e.sendings

namespace Offers

variable {e e' e'' : Engine} {offered offered' : List Action}

/-- A change of other parts offers nothing. -/
theorem of_eq (actions : e'.actions = e.actions) (states : e'.states = e.states)
    (execution : e'.execution = e.execution) (catalog : e'.catalog = e.catalog)
    (isRunning : e'.isRunning = e.isRunning) (sendings : e'.sendings = e.sendings) :
    Offers e e' [] :=
  ⟨⟨[], List.Sublist.refl _, by rw [actions, List.append_nil]⟩, by rw [states], execution, catalog,
    isRunning, sendings⟩

theorem trans (first : Offers e e' offered) (second : Offers e' e'' offered') :
    Offers e e'' (offered ++ offered') := by
  obtain ⟨new, hnew, hitems⟩ := first.actions
  obtain ⟨new', hnew', hitems'⟩ := second.actions
  refine ⟨⟨new ++ new', hnew.append hnew', ?_⟩, second.states.trans first.states,
    second.execution.trans first.execution, second.catalog.trans first.catalog,
    second.isRunning.trans first.isRunning, second.sendings.trans first.sendings⟩
  rw [hitems', hitems, List.append_assoc]

end Offers

theorem offers_note (e : Engine) (lines : List LogLine) : Offers e (e.note lines) [] :=
  .of_eq rfl rfl rfl rfl rfl (e.sendings_note lines)

theorem offers_enqueue (e : Engine) (a : Action) : Offers e (e.enqueue a) [a] := by
  rw [enqueue]
  split
  · split
    · rename_i actions hpush
      exact ⟨⟨[a], List.Sublist.refl _, (Flow.push?_items hpush).1⟩, rfl, rfl, rfl, rfl, rfl⟩
    · exact ⟨⟨[], List.nil_sublist _, (List.append_nil _).symm⟩, rfl, rfl, rfl, rfl, rfl⟩
  · exact ⟨⟨[], List.nil_sublist _, (List.append_nil _).symm⟩, rfl, rfl, rfl, rfl, rfl⟩

theorem offers_enqueueAll (e : Engine) (actions : List Action) :
    Offers e (e.enqueueAll actions) actions := by
  rw [enqueueAll]
  induction actions generalizing e with
  | nil => exact .of_eq rfl rfl rfl rfl rfl rfl
  | cons a rest ih => exact (offers_enqueue e a).trans (ih (e.enqueue a))

theorem offers_submit (e : Engine) (a : Action) : Offers e (e.submit a) (Agenda.handsOut a) := by
  have offers := offers_enqueueAll { e with agenda := e.agenda.add a } (Agenda.handsOut a)
  exact ⟨offers.actions, offers.states, offers.execution, offers.catalog, offers.isRunning,
    offers.sendings⟩

/-- Submitting actions one after another, whatever is logged in between. -/
theorem offers_foldl {α : Type} (f : Engine → α → Engine) (handed : α → List Action)
    (h : ∀ e x, Offers e (f e x) (handed x)) (xs : List α) (e : Engine) :
    Offers e (xs.foldl f e) (xs.flatMap handed) := by
  induction xs generalizing e with
  | nil => exact .of_eq rfl rfl rfl rfl rfl rfl
  | cons x rest ih => exact (h e x).trans (ih (f e x))

/-- The write of a state offers its action. -/
theorem offers_compose (e : Engine) (s : State) :
    ∃ offered, Offers e (e.compose s) offered ∧
      ∀ a ∈ offered, e.catalog.buildWrite s = .ok a := by
  rw [compose]
  split
  · rename_i a ha
    refine ⟨Agenda.handsOut a, ?_, fun b hb => ?_⟩
    · exact (offers_note e _).trans (offers_submit _ a)
    · rw [Agenda.handsOut] at hb
      split at hb
      · rw [List.mem_singleton.1 hb]
        exact ha
      · cases hb
  · exact ⟨[], offers_note e _, fun a ha => nomatch ha⟩

/-- Actions entered their flow at its end, and nothing else happened that concerns writes. -/
structure Appends (e e' : Engine) : Prop where
  actions : ∃ new : List Action, e'.actions.items = e.actions.items ++ new
  states : e'.states.items = e.states.items
  execution : e'.execution = e.execution
  isRunning : e'.isRunning = e.isRunning
  sendings : e'.sendings = e.sendings

theorem Offers.appends {e e' : Engine} {offered : List Action} (h : Offers e e' offered) :
    Appends e e' := by
  obtain ⟨new, -, hitems⟩ := h.actions
  exact ⟨⟨new, hitems⟩, h.states, h.execution, h.isRunning, h.sendings⟩

theorem Appends.of_eq {e e' : Engine} (actions : e'.actions = e.actions)
    (states : e'.states = e.states) (execution : e'.execution = e.execution)
    (isRunning : e'.isRunning = e.isRunning) (sendings : e'.sendings = e.sendings) :
    Appends e e' :=
  ⟨⟨[], by rw [actions, List.append_nil]⟩, by rw [states], execution, isRunning, sendings⟩

/-- Of what is done for a message only its reads concern the flow of actions. -/
theorem Spreads.appends {e e' : Engine} (h : Spreads e e') : Appends e e' := by
  cases h with
  | @cascade a cascades states telling _ =>
    have set : Offers e { e with spreading := ⟨cascades, states, telling⟩ } [] :=
      .of_eq rfl rfl rfl rfl rfl rfl
    exact (set.trans ((offers_note _ _).trans (offers_submit _ a))).appends
  | state => exact .of_eq rfl rfl rfl rfl rfl
  | @lookUp n _ =>
    obtain ⟨lines, h⟩ := e.lookUp_eq n
    rw [h]
    exact .of_eq rfl rfl rfl rfl (sendings_note ..)
  | finding => exact .of_eq rfl rfl rfl rfl rfl
  | @read m messages hspreading _ =>
    obtain ⟨lines, h⟩ := spread_eq (e := { e with messages := messages }) m hspreading
    rw [h]
    exact .of_eq rfl rfl rfl rfl (sendings_note ..)

theorem appends_announce? {e e' : Engine} (h : e.announce? = some e') : Appends e e' := by
  rw [announce?] at h
  split at h
  · obtain ⟨reports, -, rfl⟩ := Option.map_eq_some_iff.1 h
    exact .of_eq rfl rfl rfl rfl rfl
  · obtain ⟨⟨finding, findings⟩, -, rfl⟩ := Option.map_eq_some_iff.1 h
    exact .of_eq rfl rfl rfl rfl (sendings_note ..)

/-- An action that came to its end is offered once more at most, and nothing is under execution
then. -/
theorem conclude_flows (e : Engine) (a : Action) (result : Except RequestFault Gain) :
    (∃ new : List Action, new.Sublist [a.retry] ∧
      (e.conclude a result).actions.items = e.actions.items ++ new) ∧
    (e.conclude a result).states.items = e.states.items ∧
    (e.conclude a result).execution.action? = none := by
  have nothing : ∃ new : List Action, new.Sublist [a.retry] ∧
      e.actions.items = e.actions.items ++ new :=
    ⟨[], List.nil_sublist _, (List.append_nil _).symm⟩
  unfold conclude
  dsimp only
  split
  · exact ⟨nothing, rfl, rfl⟩
  · exact ⟨nothing, rfl, rfl⟩
  · exact ⟨nothing, rfl, rfl⟩
  · split
    · have offers := offers_submit (({ e with execution := .idle } : Engine).say .debug .execution
        (a.toText ++ " timed out, retrying")) a.retry
      refine ⟨offers.actions, offers.states, ?_⟩
      rw [offers.execution]
      rfl
    · exact ⟨nothing, rfl, rfl⟩
  · split <;> exact ⟨nothing, rfl, rfl⟩

/-- Only an action that got no answer enters again. -/
theorem conclude_actions (e : Engine) (a : Action) {result : Except RequestFault Gain}
    (answered : result ≠ .error .noReply) : (e.conclude a result).actions = e.actions := by
  rw [conclude.eq_def]
  dsimp only
  split
  · rfl
  · rfl
  · rfl
  · exact absurd rfl answered
  · split <;> rfl

/-- What a step of the execution of actions can be. -/
inductive Executes (e : Engine) : Engine → Prop where
  | begin {a : Action} {rest : Flow Action} :
      e.execution = .idle → e.actions.pop? = some (a, rest) →
      Executes e { e with actions := rest, execution := .running a (e.sessionOf a) }
  | conclude {a : Action} {result : Except RequestFault Gain} :
      e.execution = .running a (.done result) → Executes e (e.conclude a result)
  | note {a : Action} {line : LogLine} {rest : Session Gain} :
      e.execution = .running a (.note line rest) →
      Executes e ({ e with execution := .running a rest }.note [line])
  | tell {a : Action} {request : Bytes} {next : Except RequestFault Unit → Session Gain}
      {result : Except RequestFault Unit} {t : Transceiver} :
      e.execution = .running a (.tell request next) → e.transceiver.send request = (result, t) →
      Executes e { e with transceiver := t, execution := .running a (next result) }
  /-- a request whose exchange was over before it began -/
  | ask {a : Action} {request : Bytes} {next : Except RequestFault Bytes → Session Gain}
      {result : Except RequestFault Bytes} {t : Transceiver} :
      e.execution = .running a (.ask request next) →
      e.transceiver.begin request true = (.finished result, t) →
      Executes e { e with transceiver := t, execution := .running a (next result) }
  /-- a request that is on its way -/
  | await {a : Action} {request : Bytes} {next : Except RequestFault Bytes → Session Gain}
      {p : Pending} {t : Transceiver} :
      e.execution = .running a (.ask request next) →
      e.transceiver.begin request true = (.waiting p, t) →
      Executes e { e with transceiver := t, execution := .awaiting a p next }
  | finish {a : Action} {p : Pending} {next : Except RequestFault Bytes → Session Gain}
      {result : Except RequestFault Bytes} {t : Transceiver} :
      e.execution = .awaiting a p next → e.transceiver.finish p = (result, t) →
      Executes e { e with transceiver := t, execution := .running a (next result) }
  | deliver {m : Message} {messages : Flow Message} :
      e.execution = .delivering m → e.messages.push? m = some messages →
      Executes e { e with messages := messages, execution := .idle }
  | announced {node : NodeId} :
      e.execution = .announcing node [] → Executes e { e with execution := .idle }
  | announce {node : NodeId} {unit : Assignment} {units : List Assignment}
      {findings : Flow Finding} :
      e.execution = .announcing node (unit :: units) →
      e.findings.push? (.assignment node unit) = some findings →
      Executes e { e with findings := findings, execution := .announcing node units }

theorem execute?_eq_some {e e' : Engine} (h : e.execute? = some e') : Executes e e' := by
  rw [execute?] at h
  split at h
  · rename_i hexec
    obtain ⟨⟨a, rest⟩, hpop, rfl⟩ := Option.map_eq_some_iff.1 h
    exact .begin hexec hpop
  · rename_i a result hexec
    obtain rfl := Option.some.inj h
    exact .conclude hexec
  · rename_i a line rest hexec
    obtain rfl := Option.some.inj h
    exact .note hexec
  · rename_i a request next hexec
    obtain rfl := Option.some.inj h
    exact .tell hexec rfl
  · rename_i a request next hexec
    split at h
    · rename_i result t hbegin
      obtain rfl := Option.some.inj h
      exact .ask hexec hbegin
    · rename_i p t hbegin
      obtain rfl := Option.some.inj h
      exact .await hexec hbegin
  · rename_i a p next hexec
    obtain rfl := Option.some.inj h
    exact .finish hexec rfl
  · rename_i m hexec
    obtain ⟨messages, hpush, rfl⟩ := Option.map_eq_some_iff.1 h
    exact .deliver hexec hpush
  · rename_i node hexec
    obtain rfl := Option.some.inj h
    exact .announced hexec
  · rename_i node unit units hexec
    obtain ⟨findings, hpush, rfl⟩ := Option.map_eq_some_iff.1 h
    exact .announce hexec hpush

/-- The execution waits for an action, or for room for what it brought. -/
theorem execute?_eq_none {e : Engine} (h : e.execute? = none) :
    (e.execution = .idle ∧ e.actions.items = []) ∨ (∃ m, e.execution = .delivering m) ∨
      ∃ node units, e.execution = .announcing node units := by
  rw [execute?] at h
  split at h
  · rename_i hexec
    exact .inl ⟨hexec, Flow.pop?_eq_none_iff.1 (Option.map_eq_none_iff.1 h)⟩
  · cases h
  · cases h
  · cases h
  · split at h <;> cases h
  · cases h
  · rename_i m hexec
    exact .inr (.inl ⟨m, hexec⟩)
  · cases h
  · rename_i node unit units hexec
    exact .inr (.inr ⟨node, unit :: units, hexec⟩)

/-- A step of the execution that has to wait changes nothing. -/
theorem executes_or_waits (e : Engine) :
    (∃ e', e.step (.advance .execution) = e' ∧ Executes e e') ∨
      e.step (.advance .execution) = e ∧ ((e.execution = .idle ∧ e.actions.items = []) ∨
        (∃ m, e.execution = .delivering m) ∨ ∃ node units, e.execution = .announcing node units) := by
  simp only [step, advance?]
  rcases hstep : e.execute? with _ | e'
  · exact .inr ⟨rfl, execute?_eq_none hstep⟩
  · exact .inl ⟨e', rfl, execute?_eq_some hstep⟩

/-- Nothing waits in the two flows that a write goes through, and nothing will. -/
structure Stopped (e : Engine) : Prop where
  isRunning : e.isRunning = false
  actions : e.actions.items = []
  states : e.states.items = []

variable {e : Engine}

theorem Stopped.enqueueAll (h : e.Stopped) (actions : List Action) :
    (e.enqueueAll actions).Stopped := by
  rw [Engine.enqueueAll]
  induction actions generalizing e with
  | nil => exact h
  | cons a rest ih =>
    refine ih ?_
    rw [enqueue, h.isRunning]
    exact ⟨h.isRunning, h.actions, h.states⟩

theorem Stopped.compose (h : e.Stopped) (s : State) : (e.compose s).Stopped := by
  rw [Engine.compose]
  split
  · rename_i a _
    rw [submit]
    refine Stopped.enqueueAll ?_ _
    exact ⟨h.isRunning, h.actions, h.states⟩
  · exact ⟨h.isRunning, h.actions, h.states⟩

/-- the engine with its consumers stopped and its flows cleared -/
def emptied (e : Engine) : Engine :=
  { e with
    isRunning := false
    actions := e.actions.clear
    messages := e.messages.clear
    states := e.states.clear
    findings := e.findings.clear
    execution := .idle
    spreading := {}
    found := [] }

/-- The flows are cleared first, and the states that waited are looked at after that. -/
theorem stop_eq (running : e.isRunning = true) :
    ∃ lines, e.stop = ((e.states.items.foldl compose e.emptied).note lines).disconnect :=
  ⟨_, if_pos running⟩

/-- An engine that is stopped drops what waited, also the states it looks at once more. -/
theorem stopped_stop (running : e.isRunning = true) : e.stop.Stopped := by
  have composed : ∀ (states : List State) (e : Engine), e.Stopped →
      (states.foldl Engine.compose e).Stopped := by
    intro states
    induction states with
    | nil => exact fun e h => h
    | cons s rest ih => exact fun e h => ih _ (h.compose s)
  obtain ⟨lines, hstop⟩ := stop_eq running
  obtain ⟨isRunning, actions, states⟩ := composed e.states.items e.emptied ⟨rfl, rfl, rfl⟩
  rw [hstop]
  exact ⟨isRunning, actions, states⟩

end Engine

/-- neither a host that writes or stops the engine, nor one of the two consumers that a write goes
through -/
def Move.isOrdinary : Move → Bool
  | .write _ | .stop | .advance .composition | .advance .execution => false
  | _ => true

/-- All other moves put actions at the end of their flow at most. -/
theorem Engine.appends_step {m : Move} (ordinary : m.isOrdinary = true) (e : Engine) :
    Appends e (e.step m) := by
  cases m with
  | connect =>
    simp only [step]
    split
    · exact .of_eq rfl rfl rfl rfl rfl
    · exact .of_eq rfl rfl rfl rfl e.transceiver.quiet_connect.sendings
  | disconnect =>
    simp only [step]
    split
    · exact .of_eq rfl rfl rfl rfl rfl
    · exact .of_eq rfl rfl rfl rfl e.transceiver.quiet_disconnect.sendings
  | addNode id node => exact .of_eq rfl rfl rfl rfl rfl
  | removeNode id => exact .of_eq rfl rfl rfl rfl rfl
  | addDataset key d => exact .of_eq rfl rfl rfl rfl (sendings_note ..)
  | addChannel ch => exact .of_eq rfl rfl rfl rfl (sendings_note ..)
  | submit a => exact (offers_submit e a).appends
  | pollDataset id =>
    simp only [step, pollDataset]
    split
    · exact (offers_submit e _).appends
    · exact .of_eq rfl rfl rfl rfl rfl
  | pollNode id =>
    simp only [step, pollNode]
    split
    · exact (offers_foldl _ _ (fun e x => offers_submit e (Action.ofDataset x.1 x.2)) _ e).appends
    · exact .of_eq rfl rfl rfl rfl rfl
  | tickSlow => exact (offers_enqueueAll e _).appends
  | tickFast => exact (offers_enqueueAll e _).appends
  | takeReport =>
    simp only [step, takeReport]
    split <;> exact .of_eq rfl rfl rfl rfl rfl
  | pass length => exact .of_eq rfl rfl rfl rfl rfl
  | advance consumer =>
    cases consumer with
    | spreading =>
      obtain ⟨e', hnext, spreads⟩ | ⟨hsame, -⟩ := e.spreads_or_waits
      · rw [hnext]
        exact spreads.appends
      · rw [hsame]
        exact .of_eq rfl rfl rfl rfl rfl
    | announcement =>
      simp only [step, advance?]
      rcases h : e.announce? with _ | e'
      · exact .of_eq rfl rfl rfl rfl rfl
      · exact appends_announce? h
    | execution => cases ordinary
    | composition => cases ordinary
  | write s => cases ordinary
  | stop => cases ordinary

namespace Engine

theorem execution_foldl_compose (states : List State) (e : Engine) :
    (states.foldl compose e).execution = e.execution := by
  induction states generalizing e with
  | nil => rfl
  | cons s states ih =>
    obtain ⟨offered, offers, -⟩ := offers_compose e s
    exact (ih _).trans offers.execution

theorem execution_stop {e : Engine} (running : e.isRunning = true) : e.stop.execution = .idle := by
  have closed (e : Engine) (lines : List LogLine) :
      (e.note lines).disconnect.execution = e.execution := rfl
  obtain ⟨lines, hstop⟩ := stop_eq running
  rw [hstop, closed, execution_foldl_compose]
  rfl

/-- Only its own steps and a stop change what the execution of actions is at. -/
theorem execution_step {m : Move} (stop : m ≠ .stop) (execution : m ≠ .advance .execution)
    (e : Engine) : (e.step m).execution = e.execution := by
  rcases hm : m.isOrdinary with _ | _
  · cases m with
    | write s =>
      simp only [step, write?]
      split
      · rcases e.states.push? s with _ | states <;> rfl
      · rfl
    | stop => exact absurd rfl stop
    | advance c =>
      cases c with
      | execution => exact absurd rfl execution
      | composition =>
        simp only [step, advance?, compose?]
        rcases e.states.pop? with _ | ⟨s, states⟩
        · rfl
        · obtain ⟨offered, offers, -⟩ := offers_compose { e with states := states } s
          exact offers.execution
      | spreading => cases hm
      | announcement => cases hm
    | _ => cases hm
  · exact (appends_step hm e).execution

/-! ## What goes out -/

theorem sendings_compose (e : Engine) (s : State) : (e.compose s).sendings = e.sendings := by
  obtain ⟨offered, offers, -⟩ := e.offers_compose s
  exact offers.sendings

theorem sendings_stop (e : Engine) : e.stop.sendings = e.sendings := by
  have closed (e : Engine) : e.disconnect.sendings = e.sendings :=
    e.transceiver.quiet_disconnect.sendings
  have composed : ∀ (states : List State) (e : Engine),
      (states.foldl compose e).sendings = e.sendings := by
    intro states
    induction states with
    | nil => exact fun e => rfl
    | cons s states ih => exact fun e => (ih _).trans (e.sendings_compose s)
  by_cases running : e.isRunning = true
  · obtain ⟨lines, hstop⟩ := stop_eq running
    rw [hstop, closed, sendings_note, composed]
    rfl
  · rw [stop, if_neg running, closed]

theorem sendings_conclude (e : Engine) (a : Action) (result : Except RequestFault Gain) :
    (e.conclude a result).sendings = e.sendings := by
  rw [conclude.eq_def]
  dsimp only
  split
  · rfl
  · rfl
  · rfl
  · split
    · exact (offers_submit ..).sendings
    · rfl
  · split
    · exact (Transceiver.quiet_disconnect _).sendings
    · rfl

/-- **A frame goes out only when an action under execution asks or tells.** -/
theorem sendings_step {e : Engine} {m : Move} (h : (e.step m).sendings ≠ e.sendings) :
    m = .advance .execution ∧
      ∃ a request, (∃ next, e.execution = .running a (.ask request next)) ∨
        ∃ next, e.execution = .running a (.tell request next) := by
  rcases hm : m.isOrdinary with _ | _
  · cases m with
    | write s =>
      refine absurd ?_ h
      simp only [step, write?]
      split
      · rcases e.states.push? s with _ | states <;> rfl
      · rfl
    | stop => exact absurd e.sendings_stop h
    | advance consumer =>
      cases consumer with
      | execution =>
        refine ⟨rfl, ?_⟩
        obtain ⟨e', hnext, executes⟩ | ⟨hsame, -⟩ := e.executes_or_waits
        case inr => exact absurd (congrArg sendings hsame) h
        rw [hnext] at h
        cases executes with
        | tell hexec _ => exact ⟨_, _, .inr ⟨_, hexec⟩⟩
        | ask hexec _ => exact ⟨_, _, .inl ⟨_, hexec⟩⟩
        | await hexec _ => exact ⟨_, _, .inl ⟨_, hexec⟩⟩
        | conclude hexec => exact absurd (e.sendings_conclude ..) h
        | @finish a p next result t hexec hfinish =>
          have hsame := (e.transceiver.quiet_finish p).sendings
          rw [hfinish] at hsame
          exact absurd hsame h
        | _ => exact absurd rfl h
      | composition =>
        refine absurd ?_ h
        simp only [step, advance?, compose?]
        rcases e.states.pop? with _ | ⟨s, states⟩
        · rfl
        · exact sendings_compose ..
      | spreading => cases hm
      | announcement => cases hm
    | _ => cases hm
  · exact absurd (appends_step hm e).sendings h

end Engine

end BusMaster
