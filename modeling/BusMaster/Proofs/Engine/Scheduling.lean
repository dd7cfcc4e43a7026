import BusMaster.Proofs.Engine.Flows

/-!
# What scheduling touches

The calls of the host that plan, the composition of writes, the change bitmaps and the retries all
schedule their actions through `Engine.submit`. Whatever they schedule, only the agenda, the flow of
actions, the count of those dropped and the log are different afterwards, and the agenda is the one
before with the actions put on it in their order (`Engine.Schedules`). So each of these steps is a
change of a few fields that can be written down, followed by scheduling, and every projection of the
engine after the step is read off that equation.
-/

namespace BusMaster

/-- the host plans: it registers, removes or schedules something -/
def Move.isPlanning : Move → Bool
  | .addNode .. | .removeNode _ | .addDataset .. | .addChannel _ | .submit _ | .pollDataset _
  | .pollNode _ | .tickSlow | .tickFast => true
  | _ => false

namespace Engine

/-- Actions were submitted one after another, and nothing else happened but logging. -/
def Schedules (e : Engine) (actions : List Action) (e' : Engine) : Prop :=
  ∃ flow dropped journal, e' = { e with
    agenda := actions.foldl Agenda.add e.agenda
    actions := flow
    dropped := dropped
    transceiver := { e.transceiver with journal := journal } }

namespace Schedules

variable {e e' e'' : Engine} {actions actions' : List Action}

theorem refl (e : Engine) : Schedules e [] e := ⟨_, _, _, rfl⟩

theorem trans (first : Schedules e actions e') (second : Schedules e' actions' e'') :
    Schedules e (actions ++ actions') e'' := by
  obtain ⟨flow, dropped, journal, rfl⟩ := first
  obtain ⟨flow', dropped', journal', rfl⟩ := second
  exact ⟨flow', dropped', journal', by rw [List.foldl_append]⟩

theorem agenda (h : Schedules e actions e') :
    e'.agenda = actions.foldl Agenda.add e.agenda := by
  obtain ⟨flow, dropped, journal, rfl⟩ := h
  rfl

end Schedules

theorem schedules_note (e : Engine) (lines : List LogLine) : Schedules e [] (e.note lines) := by
  obtain ⟨journal, h⟩ := e.transceiver.note_eq lines
  exact ⟨e.actions, e.dropped, journal, by rw [note, h]; rfl⟩

theorem schedules_enqueue (e : Engine) (a : Action) : Schedules e [] (e.enqueue a) := by
  rw [enqueue]
  split
  · split
    · exact ⟨_, _, _, rfl⟩
    · exact ⟨_, _, _, rfl⟩
  · exact schedules_note ..

/-- Steps one after another, each of which schedules actions of its own. -/
theorem schedules_foldl {α : Type} (f : Engine → α → Engine) (submitted : α → List Action)
    (h : ∀ e x, Schedules e (submitted x) (f e x)) (xs : List α) (e : Engine) :
    Schedules e (xs.flatMap submitted) (xs.foldl f e) := by
  induction xs generalizing e with
  | nil => exact .refl e
  | cons x xs ih => exact (h e x).trans (ih (f e x))

theorem schedules_enqueueAll (e : Engine) (actions : List Action) :
    Schedules e [] (e.enqueueAll actions) := by
  have h := schedules_foldl enqueue (fun _ => []) schedules_enqueue actions e
  rwa [List.flatMap_eq_nil_iff.2 fun _ _ => rfl] at h

theorem schedules_submit (e : Engine) (a : Action) : Schedules e [a] (e.submit a) := by
  obtain ⟨flow, dropped, journal, h⟩ :=
    schedules_enqueueAll { e with agenda := e.agenda.add a } (Agenda.handsOut a)
  exact ⟨flow, dropped, journal, h⟩

/-- The write of a state schedules the action that the catalog gives for it, if there is one. -/
theorem schedules_compose (e : Engine) (s : State) :
    ∃ actions, (∀ a ∈ actions, e.catalog.buildWrite s = .ok a) ∧
      Schedules e actions (e.compose s) := by
  rw [compose]
  split
  · rename_i a ha
    refine ⟨[a], fun b hb => ?_, (schedules_note e _).trans (schedules_submit _ a)⟩
    rw [List.mem_singleton.1 hb]
    exact ha
  · exact ⟨[], List.forall_mem_nil _, schedules_note ..⟩

theorem schedules_foldl_compose (states : List State) (e : Engine) :
    ∃ actions, (∀ a ∈ actions, ∃ s, e.catalog.buildWrite s = .ok a) ∧
      Schedules e actions (states.foldl compose e) := by
  induction states generalizing e with
  | nil => exact ⟨[], List.forall_mem_nil _, .refl e⟩
  | cons s states ih =>
    obtain ⟨actions, built, first⟩ := schedules_compose e s
    obtain ⟨actions', built', second⟩ := ih (e.compose s)
    -- a write leaves the catalog as it is
    have same : (e.compose s).catalog = e.catalog := by
      obtain ⟨flow, dropped, journal, h⟩ := first
      rw [h]
    refine ⟨actions ++ actions', fun a ha => ?_, first.trans second⟩
    rcases List.mem_append.1 ha with ha | ha
    · exact ⟨s, built a ha⟩
    · rw [← same]
      exact built' a ha

/-! ## The end of an action, a stop and the host -/

/-- The end of an action schedules its retry at most. -/
theorem schedules_conclude (e : Engine) (a : Action) (result : Except RequestFault Gain) :
    ∃ execution failures transceiver actions, (∀ b ∈ actions, b = a.retry) ∧
      Schedules
        { e with execution := execution, failures := failures, transceiver := transceiver }
        actions (e.conclude a result) := by
  have none : ∀ b ∈ ([] : List Action), b = a.retry := List.forall_mem_nil _
  rw [conclude.eq_def]
  dsimp only
  split
  · exact ⟨_, _, _, [], none, .refl _⟩
  · exact ⟨_, _, _, [], none, .refl _⟩
  · exact ⟨_, _, _, [], none, .refl _⟩
  · split
    · exact ⟨.idle, e.failures, e.transceiver, [a.retry], fun b hb => List.mem_singleton.1 hb,
        (schedules_note _ _).trans (schedules_submit _ _)⟩
    · exact ⟨_, _, _, [], none, .refl _⟩
  · split
    · exact ⟨_, _, _, [], none, .refl _⟩
    · exact ⟨_, _, _, [], none, .refl _⟩

/-- A stop empties the flows and schedules the writes of the states that waited. -/
theorem schedules_stop {e : Engine} (running : e.isRunning = true) :
    ∃ actions, (∀ a ∈ actions, ∃ s, e.catalog.buildWrite s = .ok a) ∧
      Schedules { e.emptied with transceiver := e.stop.transceiver } actions e.stop := by
  obtain ⟨lines, hstop⟩ := stop_eq running
  obtain ⟨actions, built, flow, dropped, journal, h⟩ :=
    schedules_foldl_compose e.states.items e.emptied
  refine ⟨actions, built, flow, dropped, e.stop.transceiver.journal, ?_⟩
  rw [hstop, h]
  rfl

/-- the engine after what the host edits with a move, before anything is scheduled -/
def edited (e : Engine) : Move → Engine
  | .addNode id node => { e with nodes := e.nodes.insert id node }
  | .removeNode id => { e with
      agenda := e.agenda.remove id
      catalog := ((e.catalog.removeChannels id).2.removeDatasets id).2
      nodes := e.nodes.erase id }
  | .addDataset key d => { e with catalog := (e.catalog.addDataset key d).2.1 }
  | .addChannel ch => { e with catalog := (e.catalog.addChannel ch).2.1 }
  | _ => e

/-- the actions that the host submits with a move, in order -/
def submitted (e : Engine) : Move → List Action
  | .submit a => [a]
  | .pollDataset id =>
    match e.catalog.readAction id with
    | .ok a => [a]
    | .error _ => []
  | .pollNode id =>
    if e.nodes.contains id then
      (e.catalog.datasetsOf id).map fun x => Action.ofDataset x.1 x.2
    else []
  | _ => []

/-- **A host that plans edits and submits**, and nothing else happens. -/
theorem schedules_step {m : Move} (planning : m.isPlanning = true) (e : Engine) :
    Schedules (e.edited m) (e.submitted m) (e.step m) := by
  cases m with
  | addNode id node => exact schedules_note ..
  | removeNode id => exact schedules_note ..
  | addDataset key d => exact schedules_note ..
  | addChannel ch => exact schedules_note ..
  | submit a => exact schedules_submit e a
  | pollDataset id =>
    simp only [step, pollDataset, submitted]
    rcases e.catalog.readAction id with fault | a
    · exact .refl e
    · exact schedules_submit e a
  | pollNode id =>
    simp only [step, pollNode, submitted]
    split
    · have h := schedules_foldl _ _
        (fun e (x : DatasetId × Dataset) => schedules_submit e (Action.ofDataset x.1 x.2))
        (e.catalog.datasetsOf id) e
      rwa [← List.map_eq_flatMap] at h
    · exact .refl e
  | tickSlow => exact schedules_enqueueAll ..
  | tickFast => exact schedules_enqueueAll ..
  | _ => cases planning

/-- The other calls of the host, a stop apart, touch the transceiver, the flow of states and the
reports at most. -/
theorem exists_step_eq {m : Move} (planning : m.isPlanning = false) (stop : m ≠ .stop)
    (consumer : ∀ c, m ≠ .advance c) (e : Engine) : ∃ transceiver states reports,
      e.step m = { e with transceiver := transceiver, states := states, reports := reports } := by
  cases m with
  | connect =>
    simp only [step]
    split
    · exact ⟨_, _, _, rfl⟩
    · exact ⟨_, _, _, rfl⟩
  | disconnect =>
    simp only [step]
    split
    · exact ⟨_, _, _, rfl⟩
    · exact ⟨_, _, _, rfl⟩
  | write s =>
    simp only [step, write?]
    split
    · rcases e.states.push? s with _ | states
      · exact ⟨_, _, _, rfl⟩
      · exact ⟨_, _, _, rfl⟩
    · exact ⟨_, _, _, rfl⟩
  | takeReport =>
    simp only [step, takeReport]
    split
    · exact ⟨_, _, _, rfl⟩
    · exact ⟨_, _, _, rfl⟩
  | stop => exact absurd rfl stop
  | pass length => exact ⟨_, _, _, rfl⟩
  | advance c => exact absurd rfl (consumer c)
  | _ => cases planning

/-! ## Three of the consumers -/

/-- A step of the spreading works on a message, and schedules the next of its reads. -/
theorem schedules_spreading (e : Engine) : ∃ catalog messages spreading findings reports, Schedules
    { e with
      catalog := catalog
      messages := messages
      spreading := spreading
      findings := findings
      reports := reports }
    e.spreading.cascades.head?.toList (e.step (.advance .spreading)) := by
  obtain ⟨e', hnext, spreads⟩ | ⟨hsame, -, -, hnone⟩ := e.spreads_or_waits
  · rw [hnext]
    cases spreads with
    | @cascade a cascades states telling hspreading =>
      rw [hspreading]
      exact ⟨e.catalog, e.messages, ⟨cascades, states, telling⟩, e.findings, e.reports,
        (schedules_note ..).trans (schedules_submit _ a)⟩
    | @state s states telling reports hspreading _ =>
      rw [hspreading]
      exact ⟨e.catalog, e.messages, ⟨[], states, telling⟩, e.findings, reports, schedules_note ..⟩
    | @lookUp n hspreading =>
      obtain ⟨lines, h⟩ := e.lookUp_eq n
      rw [h, hspreading]
      exact ⟨e.catalog, e.messages, _, e.findings, e.reports, schedules_note ..⟩
    | @finding f findings hspreading _ =>
      rw [hspreading]
      exact ⟨e.catalog, e.messages, {}, findings, e.reports, .refl _⟩
    | @read m messages hspreading _ =>
      obtain ⟨lines, h⟩ := spread_eq (e := { e with messages := messages }) m hspreading
      rw [h, hspreading]
      exact ⟨_, messages, _, e.findings, e.reports, schedules_note ..⟩
  · rw [hsame, hnone]
    exact ⟨e.catalog, e.messages, e.spreading, e.findings, e.reports, .refl e⟩

/-- A step of the composition takes a state and schedules its write. -/
theorem schedules_composition (e : Engine) :
    ∃ states actions, (∀ a ∈ actions, ∃ s, e.catalog.buildWrite s = .ok a) ∧
      Schedules { e with states := states } actions (e.step (.advance .composition)) := by
  simp only [step, advance?, compose?]
  rcases e.states.pop? with _ | ⟨s, states⟩
  · exact ⟨e.states, [], List.forall_mem_nil _, .refl e⟩
  · obtain ⟨actions, built, schedules⟩ := schedules_compose { e with states := states } s
    exact ⟨states, actions, fun a ha => ⟨s, built a ha⟩, schedules⟩

/-- A step of the announcement moves findings and devices on. -/
theorem exists_announcement_eq (e : Engine) : ∃ transceiver findings found reports,
    e.step (.advance .announcement) = { e with
      transceiver := transceiver, findings := findings, found := found, reports := reports } := by
  simp only [step, advance?, announce?]
  split
  · rcases e.reports.push? _ with _ | reports
    · exact ⟨_, _, _, _, rfl⟩
    · exact ⟨_, _, _, _, rfl⟩
  · rcases e.findings.pop? with _ | ⟨finding, findings⟩
    · exact ⟨_, _, _, _, rfl⟩
    · exact ⟨_, _, _, _, rfl⟩

end Engine

end BusMaster
