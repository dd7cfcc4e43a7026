import BusMaster.Proofs.Engine.Intake
import BusMaster.Proofs.Engine.Outbox
import BusMaster.Proofs.Engine.Scheduling
import BusMaster.Proofs.Plant.Reported

/-!
# What a run does to the catalog

The catalog of an engine is changed by the host, which registers and removes, and by the spreading of
messages, which takes in what was read (`Engine.operations`). Nothing else touches it, so after a run
it is the catalog after these operations, one after another (`Engine.catalog_run`), and what is known
of catalogs over runs of operations is known of it.

An engine that was stopped takes in no more messages (`Engine.Halted`): the flows that a message comes
through are empty, and nothing enters them.
-/

namespace BusMaster

namespace Engine

variable {e e' : Engine}

/-! ## Along a run -/

/-- what the moves of a run give, in order -/
def collect {α : Type} (f : Engine → Move → List α) (e : Engine) : List Move → List α
  | [] => []
  | m :: moves => f e m ++ (e.step m).collect f moves

theorem collect_append {α : Type} (f : Engine → Move → List α) (before after : List Move)
    (e : Engine) :
    e.collect f (before ++ after) = e.collect f before ++ (e.run before).collect f after := by
  induction before generalizing e with
  | nil => rfl
  | cons m moves ih =>
    rw [List.cons_append, collect, collect, ih, List.append_assoc]
    rfl

/-! ## The catalog -/

/-- what a move does to the catalog -/
def operations (e : Engine) : Move → List Catalog.Operation
  | .addDataset key d => [.addDataset key d]
  | .addChannel ch => [.addChannel ch]
  | .removeNode id => [.removeChannels id, .removeDatasets id]
  | .advance c => (e.reading? (.advance c)).toList.map .apply
  | _ => []

theorem catalog_conclude (e : Engine) (a : Action) (result : Except RequestFault Gain) :
    (e.conclude a result).catalog = e.catalog := by
  obtain ⟨execution, failures, transceiver, actions, -, flow, dropped, journal, h⟩ :=
    schedules_conclude e a result
  rw [h]

theorem catalog_stop (e : Engine) : e.stop.catalog = e.catalog := by
  by_cases running : e.isRunning = true
  · obtain ⟨actions, -, flow, dropped, journal, h⟩ := schedules_stop running
    rw [h]
    rfl
  · rw [stop, if_neg running]
    rfl

/-- **A move does to the catalog what its operations do.** -/
theorem catalog_step (e : Engine) (m : Move) :
    (e.step m).catalog = e.catalog.run (e.operations m) := by
  by_cases planning : m.isPlanning = true
  · obtain ⟨flow, dropped, journal, h⟩ := schedules_step planning e
    rw [h]
    cases m with
    | addNode | removeNode | addDataset | addChannel | submit | pollDataset | pollNode => rfl
    | tickSlow | tickFast => rfl
    | _ => cases planning
  · cases m with
    | stop => exact e.catalog_stop
    | connect | disconnect | write | takeReport | pass =>
      obtain ⟨transceiver, states, reports, h⟩ :=
        exists_step_eq (Bool.eq_false_iff.2 planning) nofun nofun e
      rw [h]
      rfl
    | advance c =>
      cases c with
      | execution =>
        obtain ⟨e', hnext, executes⟩ | ⟨hsame, -⟩ := e.executes_or_waits
        · rw [hnext]
          cases executes with
          | conclude hexec => exact catalog_conclude ..
          | _ => rfl
        · rw [hsame]
          rfl
      | spreading =>
        obtain ⟨e', hnext, spreads⟩ | ⟨hsame, hnone, -⟩ := e.spreads_or_waits
        · rw [hnext, operations, reading?]
          cases spreads with
          | cascade hspreading =>
            rw [hspreading]
            exact (offers_submit ..).catalog
          | state hspreading _ =>
            rw [hspreading]
            rfl
          | @lookUp n hspreading =>
            obtain ⟨lines, h⟩ := e.lookUp_eq n
            rw [h, hspreading]
            rfl
          | finding hspreading _ =>
            rw [hspreading]
            rfl
          | @read m messages hspreading hpop =>
            obtain ⟨lines, h⟩ := spread_eq (e := { e with messages := messages }) m hspreading
            rw [h, hspreading, (Flow.pop?_items hpop).1]
            rfl
        · rw [hsame, operations, hnone]
          rfl
      | composition =>
        obtain ⟨states, actions, -, flow, dropped, journal, h⟩ := e.schedules_composition
        rw [h]
        rfl
      | announcement =>
        obtain ⟨transceiver, findings, found, reports, h⟩ := e.exists_announcement_eq
        rw [h]
        rfl
    | _ => exact absurd rfl planning

/-- **The catalog after a run** is the one after the operations of the run. -/
theorem catalog_run (e : Engine) (moves : List Move) :
    (e.run moves).catalog = e.catalog.run (e.collect operations moves) := by
  induction moves generalizing e with
  | nil => rfl
  | cons m moves ih => rw [run_cons, ih, catalog_step, collect, Catalog.run_append]

/-! ## The nodes that are known -/

theorem nodes_conclude (e : Engine) (a : Action) (result : Except RequestFault Gain) :
    (e.conclude a result).nodes = e.nodes := by
  obtain ⟨execution, failures, transceiver, actions, -, flow, dropped, journal, h⟩ :=
    schedules_conclude e a result
  rw [h]

/-- No consumer changes which nodes are known. -/
theorem nodes_advance (e : Engine) (c : Consumer) : (e.step (.advance c)).nodes = e.nodes := by
  cases c with
  | execution =>
    obtain ⟨e', hnext, executes⟩ | ⟨hsame, -⟩ := e.executes_or_waits
    case inr => rw [hsame]
    rw [hnext]
    cases executes with
    | conclude hexec => exact nodes_conclude ..
    | _ => rfl
  | spreading =>
    obtain ⟨catalog, messages, spreading, findings, reports, flow, dropped, journal, h⟩ :=
      e.schedules_spreading
    rw [h]
  | composition =>
    obtain ⟨states, actions, -, flow, dropped, journal, h⟩ := e.schedules_composition
    rw [h]
  | announcement =>
    obtain ⟨transceiver, findings, found, reports, h⟩ := e.exists_announcement_eq
    rw [h]

theorem nodes_stop (e : Engine) : e.stop.nodes = e.nodes := by
  by_cases running : e.isRunning = true
  · obtain ⟨actions, -, flow, dropped, journal, h⟩ := schedules_stop running
    rw [h]
    rfl
  · rw [stop, if_neg running]
    rfl

/-- Only the host changes which nodes are known. -/
theorem nodes_step (e : Engine) (m : Move) : (e.step m).nodes = (e.edited m).nodes := by
  by_cases planning : m.isPlanning = true
  · obtain ⟨flow, dropped, journal, h⟩ := schedules_step planning e
    rw [h]
  · cases m with
    | stop => exact e.nodes_stop
    | advance c => exact e.nodes_advance c
    | connect | disconnect | write | takeReport | pass =>
      obtain ⟨transceiver, states, reports, h⟩ :=
        exists_step_eq (Bool.eq_false_iff.2 planning) (by rintro ⟨⟩) (by rintro _ ⟨⟩) e
      rw [h]
      rfl
    | _ => exact absurd rfl planning

/-- A node stays as it is until the host adds or removes it. -/
theorem node_step {n : NodeId} {m : Move} (add : ∀ node, m ≠ .addNode n node)
    (remove : m ≠ .removeNode n) (e : Engine) : (e.step m).nodes[n]? = e.nodes[n]? := by
  rw [nodes_step]
  cases m with
  | addNode id node =>
    have other : id ≠ n := fun same => add node (same ▸ rfl)
    exact (Std.TreeMap.getElem?_insert ..).trans
      (if_neg fun same => other (Std.LawfulEqCmp.compare_eq_iff_eq.1 same))
  | removeNode id =>
    have other : id ≠ n := fun same => remove (same ▸ rfl)
    exact (Std.TreeMap.getElem?_erase ..).trans
      (if_neg fun same => other (Std.LawfulEqCmp.compare_eq_iff_eq.1 same))
  | _ => rfl

/-! ## What is to be done for a message -/

/-- Only its own steps and a stop change what the spreading of messages is at. -/
theorem spreading_step {m : Move} (stop : m ≠ .stop) (spreading : m ≠ .advance .spreading)
    (e : Engine) : (e.step m).spreading = e.spreading := by
  by_cases other : m = .takeReport ∨ m = .advance .execution ∨ m = .advance .announcement
  · obtain rfl | rfl | rfl := other
    · simp only [step, takeReport]
      split <;> rfl
    · obtain ⟨e', hnext, executes⟩ | ⟨hsame, -⟩ := e.executes_or_waits
      · rw [hnext]
        cases executes with
        | conclude hexec => exact congrArg Outbox.spreading (outbox_conclude ..)
        | _ => rfl
      · rw [hsame]
    · obtain ⟨transceiver, findings, found, reports, h⟩ := e.exists_announcement_eq
      rw [h]
  · rw [not_or, not_or] at other
    obtain ⟨take, execution, announcement⟩ := other
    refine congrArg Outbox.spreading (outbox_step take stop (fun c hc => ?_) e)
    subst hc
    cases c with
    | composition => rfl
    | execution => exact absurd rfl execution
    | spreading => exact absurd rfl spreading
    | announcement => exact absurd rfl announcement

/-- the reads that are still to be submitted do not repeat -/
def CascadesOnce (e : Engine) : Prop := ∀ a ∈ e.spreading.cascades, a.repeats = .once

theorem CascadesOnce.step (h : e.CascadesOnce) (m : Move) : (e.step m).CascadesOnce := by
  by_cases stop : m = .stop
  · subst stop
    by_cases running : e.isRunning = true
    · have nothing : e.stop.spreading = {} := congrArg Outbox.spreading (outbox_stop running).1
      intro a ha
      change a ∈ e.stop.spreading.cascades at ha
      rw [nothing] at ha
      cases ha
    · rw [Engine.step, Engine.stop, if_neg running]
      exact h
  by_cases spreading : m = .advance .spreading
  · subst spreading
    obtain ⟨e', hnext, spreads⟩ | ⟨hsame, -⟩ := e.spreads_or_waits
    case inr => rwa [hsame]
    rw [hnext]
    cases spreads with
    | @cascade a cascades states telling hspreading =>
      rw [CascadesOnce, hspreading] at h
      have rest : (({ e with spreading := ⟨cascades, states, telling⟩ } : Engine).say .debug .fanout
          ("change bitmap requests " ++ a.toText)).CascadesOnce :=
        fun b hb => h b (List.mem_cons_of_mem a hb)
      obtain ⟨flow, dropped, journal, hsubmit⟩ := schedules_submit
        (({ e with spreading := ⟨cascades, states, telling⟩ } : Engine).say .debug .fanout
          ("change bitmap requests " ++ a.toText)) a
      rw [hsubmit]
      exact rest
    | state | finding => exact List.forall_mem_nil _
    | @lookUp n _ =>
      obtain ⟨lines, hlook⟩ := e.lookUp_eq n
      rw [hlook]
      exact List.forall_mem_nil _
    | @read m messages hspreading _ =>
      obtain ⟨lines, hspread⟩ := spread_eq (e := { e with messages := messages }) m hspreading
      rw [hspread]
      exact fun a => Catalog.cascades_once
  · rw [CascadesOnce, spreading_step stop spreading]
    exact h

/-! ## After a stop -/

/-- Only a stop ends the run. -/
theorem isRunning_step {m : Move} (stop : m ≠ .stop) (e : Engine) :
    (e.step m).isRunning = e.isRunning := by
  by_cases execution : m = .advance .execution
  · subst execution
    obtain ⟨e', hnext, executes⟩ | ⟨hsame, -⟩ := e.executes_or_waits
    · rw [hnext]
      cases executes with
      | @conclude a result hexec =>
        obtain ⟨execution, failures, transceiver, actions, -, flow, dropped, journal, h⟩ :=
          schedules_conclude e a result
        rw [h]
      | _ => rfl
    · rw [hsame]
  · have same := congrArg Intake.isRunning (intake_step stop execution e)
    rcases running : e.isRunning with _ | _
    · rw [Intake.foldl_hand_stopped running] at same
      exact same.trans running
    · exact same.trans ((Intake.takes_foldl running _).isRunning.trans running)

theorem isRunning_stop (e : Engine) : e.stop.isRunning = false := by
  by_cases running : e.isRunning = true
  · obtain ⟨actions, -, flow, dropped, journal, h⟩ := schedules_stop running
    rw [h]
    rfl
  · rw [stop, if_neg running]
    exact Bool.eq_false_iff.2 running

/-- An engine that was stopped, with nothing left of what it was at. -/
structure Halted (e : Engine) : Prop where
  isRunning : e.isRunning = false
  actions : e.actions.items = []
  messages : e.messages.items = []
  findings : e.findings.items = []
  found : e.found = []
  spreading : e.spreading = {}
  execution : e.execution = .idle

theorem halted_stop (running : e.isRunning = true) : e.stop.Halted := by
  have stopped := stopped_stop running
  obtain ⟨actions, -, flow, dropped, journal, h⟩ := schedules_stop running
  have messages : e.stop.messages = e.messages.clear := by rw [h]; rfl
  have findings : e.stop.findings = e.findings.clear := by rw [h]; rfl
  have found : e.stop.found = [] := by rw [h]; rfl
  have spreading : e.stop.spreading = {} := by rw [h]; rfl
  exact ⟨stopped.isRunning, stopped.actions, messages ▸ rfl, findings ▸ rfl, found, spreading,
    execution_stop running⟩

/-- the reports that the host takes with a move -/
def takes (e : Engine) : Move → List Report
  | .takeReport => e.takeReport.1.toList
  | _ => []

/-- What happened to the reports when the host took one. -/
theorem reports_takeReport (e : Engine) :
    e.reports.items = e.takes .takeReport ++ (e.step .takeReport).reports.items := by
  simp only [step, takes, takeReport]
  rcases hpop : e.reports.pop? with _ | ⟨r, reports⟩
  · rfl
  · exact (Flow.pop?_items hpop).1

namespace Halted

/-- A consumer that is not given anything does nothing. -/
theorem advance (h : e.Halted) (c : Consumer) (composition : c ≠ .composition) :
    e.step (.advance c) = e := by
  cases c with
  | execution =>
    have none : e.actions.pop? = none := Flow.pop?_eq_none_iff.2 h.actions
    simp only [step, advance?, execute?, h.execution, none, Option.map_none, Option.getD_none]
  | spreading =>
    have none : e.messages.pop? = none := Flow.pop?_eq_none_iff.2 h.messages
    simp only [step, advance?, spread?, h.spreading, none, Option.map_none, Option.getD_none]
  | announcement =>
    have none : e.findings.pop? = none := Flow.pop?_eq_none_iff.2 h.findings
    simp only [step, advance?, announce?, h.found, none, Option.map_none, Option.getD_none]
  | composition => exact absurd rfl composition

/-- What schedules actions does not hand them out. -/
theorem schedules (h : e.Halted) {actions : List Action} (schedules : Schedules e actions e')
    (intake : e'.intake = e.intake) : e'.Halted := by
  have isRunning : e'.isRunning = e.isRunning := congrArg Intake.isRunning intake
  have flow : e'.actions = e.actions := congrArg Intake.actions intake
  obtain ⟨_, dropped, journal, rfl⟩ := schedules
  exact ⟨isRunning ▸ h.isRunning, flow ▸ h.actions, h.messages, h.findings, h.found, h.spreading,
    h.execution⟩

/-- **A stopped engine stays so.** -/
theorem step (h : e.Halted) (m : Move) : (e.step m).Halted := by
  by_cases stop : m = .stop
  · subst stop
    have same : e.step .stop = e.disconnect := by
      rw [Engine.step, Engine.stop, if_neg (Bool.eq_false_iff.1 h.isRunning)]
    rw [same]
    exact ⟨h.isRunning, h.actions, h.messages, h.findings, h.found, h.spreading, h.execution⟩
  by_cases consumer : ∃ c, m = .advance c ∧ c ≠ .composition
  · obtain ⟨c, rfl, hc⟩ := consumer
    rw [h.advance c hc]
    exact h
  -- what is left may hand over actions, but a stopped engine takes none
  have intake : (e.step m).intake = e.intake := by
    refine (intake_step stop (fun hm => consumer ⟨_, hm, by decide⟩) e).trans ?_
    exact Intake.foldl_hand_stopped h.isRunning _
  by_cases planning : m.isPlanning = true
  · have edited : (e.edited m).Halted := by
      cases m <;>
        exact ⟨h.isRunning, h.actions, h.messages, h.findings, h.found, h.spreading, h.execution⟩
    refine edited.schedules (schedules_step planning e) (intake.trans ?_)
    cases m <;> rfl
  · cases m with
    | stop => exact absurd rfl stop
    | advance c =>
      cases c with
      | composition =>
        obtain ⟨states, actions, -, schedules⟩ := e.schedules_composition
        have taken : ({ e with states := states } : Engine).Halted :=
          ⟨h.isRunning, h.actions, h.messages, h.findings, h.found, h.spreading, h.execution⟩
        exact taken.schedules schedules intake
      | _ => exact absurd ⟨_, rfl, by decide⟩ consumer
    | connect | disconnect | write | takeReport | pass =>
      obtain ⟨transceiver, states, reports, hstep⟩ := exists_step_eq
        (Bool.eq_false_iff.2 planning) stop (fun _ h => Move.noConfusion h) e
      rw [hstep]
      exact ⟨h.isRunning, h.actions, h.messages, h.findings, h.found, h.spreading, h.execution⟩
    | _ => exact absurd rfl planning

/-- It takes in nothing. -/
theorem reading? (h : e.Halted) (m : Move) : e.reading? m = none := by
  cases m with
  | advance c =>
    cases c with
    | spreading => simp only [Engine.reading?, h.spreading, h.messages, List.head?_nil]
    | _ => rfl
  | _ => rfl

/-- It looks up nothing. -/
theorem looking? (h : e.Halted) (m : Move) : e.looking? m = none := by
  cases m with
  | advance c =>
    cases c with
    | spreading => simp only [Engine.looking?, h.spreading]
    | _ => rfl
  | _ => rfl

/-- And it reports nothing. -/
theorem reports (h : e.Halted) (m : Move) :
    e.reports.items = e.takes m ++ (e.step m).reports.items := by
  by_cases take : m = .takeReport
  · exact take ▸ e.reports_takeReport
  have none : e.takes m = [] := by
    cases m with
    | takeReport => exact absurd rfl take
    | _ => rfl
  rw [none, List.nil_append]
  by_cases stop : m = .stop
  · subst stop
    rw [Engine.step, Engine.stop, if_neg (Bool.eq_false_iff.1 h.isRunning)]
    rfl
  by_cases consumer : ∃ c, m = .advance c ∧ c ≠ .composition
  · obtain ⟨c, rfl, hc⟩ := consumer
    rw [h.advance c hc]
  · have same := outbox_step take stop (fun c hc => by_contra fun hne => consumer ⟨c, hc, hne⟩) e
    exact (congrArg (fun o : Outbox => o.reports.items) same).symm

end Halted

/-- A run is over at its first stop, or the engine is running. -/
theorem running_or_stopped (moves : List Move) (running : e.isRunning = true) :
    (e.run moves).isRunning = true ∨
      ∃ before after, moves = before ++ .stop :: after ∧ (e.run before).isRunning = true := by
  induction moves generalizing e with
  | nil => exact .inl running
  | cons m moves ih =>
    by_cases stop : m = .stop
    · exact .inr ⟨[], moves, stop ▸ rfl, running⟩
    · rcases ih ((isRunning_step stop e).trans running) with still | ⟨before, after, rfl, hbefore⟩
      · exact .inl still
      · exact .inr ⟨m :: before, after, rfl, hbefore⟩

/-- An engine that was stopped is not running again. -/
theorem isRunning_run (stopped : e.isRunning = false) (moves : List Move) :
    (e.run moves).isRunning = false := by
  refine run_induction (P := fun e => e.isRunning = false) stopped (fun e m stopped => ?_) moves
  by_cases stop : m = .stop
  · exact stop ▸ e.isRunning_stop
  · exact (isRunning_step stop e).trans stopped

/-- An engine that is running was running all along. -/
theorem running_of_run {m : Move} {moves : List Move}
    (running : (e.run (m :: moves)).isRunning = true) : e.isRunning = true ∧ m ≠ .stop := by
  have next : (e.step m).isRunning = true := by
    by_contra h
    rw [run_cons, isRunning_run (Bool.eq_false_iff.2 h)] at running
    cases running
  by_cases stop : m = .stop
  · subst stop
    rw [show e.step .stop = e.stop from rfl, isRunning_stop] at next
    cases next
  · exact ⟨(isRunning_step stop e).symm.trans next, stop⟩

end Engine

end BusMaster
