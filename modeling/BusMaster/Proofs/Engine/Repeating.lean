import BusMaster.Proofs.Engine.History
import BusMaster.Proofs.Engine.Mirror

/-!
# Who puts actions on the agenda

A repeating action that is submitted stays on its list until its node is removed, so a list is polled
for as long as the engine runs, and an action that enters it once too often is polled once too often.
Retries, the reads that change bitmaps ask for, and the writes of states are submitted like the
actions of the host. They do not repeat (`Action.retry`, `Catalog.named`, `Catalog.buildWrite_once`),
and this is all that keeps them off the lists.

So only the host changes the agenda (`Engine.agenda_step`), and after a run each list is what the
host submitted for it, in order, less what went with a node (`Engine.list_run`).
-/

namespace BusMaster

/-! ## The lists -/

namespace Agenda

/-- the list of a repeat policy -/
def list (g : Agenda) : RepeatPolicy → List Action
  | .once => []
  | .slow => g.slow
  | .fast => g.fast

/-- An action that does not repeat is on no list. -/
theorem add_once {g : Agenda} {a : Action} (once : a.repeats = .once) : g.add a = g := by
  rw [add, once]

theorem foldl_add_once {actions : List Action} (once : ∀ a ∈ actions, a.repeats = .once)
    (g : Agenda) : actions.foldl add g = g := by
  induction actions with
  | nil => rfl
  | cons a actions ih =>
    rw [List.foldl_cons, add_once (once a List.mem_cons_self)]
    exact ih fun b hb => once b (List.mem_cons_of_mem a hb)

variable {r : RepeatPolicy} (g : Agenda)

theorem list_add (repeating : r ≠ .once) (a : Action) :
    (g.add a).list r = g.list r ++ [a].filter (·.repeats = r) := by
  cases r with
  | once => exact absurd rfl repeating
  | slow => cases h : a.repeats <;> simp [add, list, h]
  | fast => cases h : a.repeats <;> simp [add, list, h]

/-- Of the actions put on the agenda those of the policy stand at the end of its list. -/
theorem list_foldl_add (repeating : r ≠ .once) (actions : List Action) :
    (actions.foldl add g).list r = g.list r ++ actions.filter (·.repeats = r) := by
  induction actions generalizing g with
  | nil => exact (List.append_nil _).symm
  | cons a actions ih =>
    calc ((a :: actions).foldl add g).list r
      _ = (g.add a).list r ++ actions.filter (·.repeats = r) := ih (g.add a)
      _ = g.list r ++ ([a] ++ actions).filter (·.repeats = r) := by
        rw [g.list_add repeating, List.append_assoc, List.filter_append]

theorem list_remove (node : NodeId) :
    (g.remove node).list r = (g.list r).filter fun a => a.node != node := by
  cases r <;> rfl

end Agenda

/-! ## Who changes them -/

/-- Writes of states do not repeat. -/
theorem Catalog.composed_once {c : Catalog} {actions : List Action}
    (built : ∀ a ∈ actions, ∃ s, c.buildWrite s = .ok a) : ∀ a ∈ actions, a.repeats = .once := by
  intro a ha
  obtain ⟨s, hs⟩ := built a ha
  exact (buildWrite_once hs).2

/-- the node whose removal the move is -/
def Move.removed? : Move → Option NodeId
  | .removeNode id => some id
  | _ => none

namespace Engine

/-- the agenda after the host removed what it removes with a move -/
def pruned (e : Engine) (m : Move) : Agenda := m.removed?.elim e.agenda e.agenda.remove

theorem agenda_execute? {e e' : Engine} (h : e.execute? = some e') : e'.agenda = e.agenda := by
  cases execute?_eq_some h with
  | @conclude a result hexec =>
    obtain ⟨execution, failures, transceiver, actions, retried, schedules⟩ :=
      schedules_conclude e a result
    rw [schedules.agenda]
    exact Agenda.foldl_add_once (fun b hb => retried b hb ▸ rfl) _
  | _ => rfl

theorem agenda_stop (e : Engine) : e.stop.agenda = e.agenda := by
  by_cases running : e.isRunning = true
  · obtain ⟨actions, built, schedules⟩ := schedules_stop running
    rw [schedules.agenda]
    exact Agenda.foldl_add_once (Catalog.composed_once built) _
  · rw [stop, if_neg running]
    rfl

/-- No consumer changes the agenda. -/
theorem agenda_advance {e : Engine} (once : e.CascadesOnce) (c : Consumer) :
    (e.step (.advance c)).agenda = e.agenda := by
  cases c with
  | execution =>
    simp only [step, advance?]
    rcases h : e.execute? with _ | e'
    · rfl
    · exact agenda_execute? h
  | spreading =>
    obtain ⟨catalog, messages, spreading, findings, reports, schedules⟩ := e.schedules_spreading
    rw [schedules.agenda]
    exact Agenda.foldl_add_once
      (fun a ha => once a (List.mem_of_mem_head? (Option.mem_toList.1 ha))) _
  | composition =>
    obtain ⟨states, actions, built, schedules⟩ := e.schedules_composition
    rw [schedules.agenda]
    exact Agenda.foldl_add_once (Catalog.composed_once built) _
  | announcement =>
    obtain ⟨transceiver, findings, found, reports, h⟩ := e.exists_announcement_eq
    rw [h]

/-- **Only the host changes the agenda**: it removes a node, or submits. -/
theorem agenda_step {e : Engine} (once : e.CascadesOnce) (m : Move) :
    (e.step m).agenda = (e.submitted m).foldl Agenda.add (e.pruned m) := by
  by_cases planning : m.isPlanning = true
  · have hedited : (e.edited m).agenda = e.pruned m := by cases m <;> rfl
    rw [(schedules_step planning e).agenda, hedited]
  · cases m with
    | stop => exact e.agenda_stop
    | advance c => exact agenda_advance once c
    | connect | disconnect | write | takeReport | pass =>
      obtain ⟨transceiver, states, reports, h⟩ :=
        exists_step_eq (Bool.eq_false_iff.2 planning) nofun nofun e
      rw [h]
      rfl
    | _ => exact absurd rfl planning

/-! ## Runs -/

/-- the actions whose node the host does not remove in a run -/
def lasting (moves : List Move) (actions : List Action) : List Action :=
  actions.filter fun a => moves.all fun m => m.removed? != some a.node

/-- the actions of a repeat policy that the host submits in a run, in order, without those whose
node it removes later -/
def scheduled (e : Engine) (r : RepeatPolicy) : List Move → List Action
  | [] => []
  | m :: moves =>
    lasting moves ((e.submitted m).filter (·.repeats = r)) ++ (e.step m).scheduled r moves

theorem lasting_append (moves : List Move) (actions actions' : List Action) :
    lasting moves (actions ++ actions') = lasting moves actions ++ lasting moves actions' :=
  List.filter_append ..

/-- What lasts through a run is left by its first move, and lasts through the others. -/
theorem lasting_cons {r : RepeatPolicy} (e : Engine) (m : Move) (moves : List Move) :
    lasting (m :: moves) (e.agenda.list r) = lasting moves ((e.pruned m).list r) := by
  rcases hm : m.removed? with _ | node
  · rw [pruned, hm]
    refine List.filter_congr fun a _ => ?_
    rw [List.all_cons, hm]
    rfl
  · rw [pruned, hm]
    change _ = lasting moves ((e.agenda.remove node).list r)
    rw [Agenda.list_remove, lasting, lasting, List.filter_filter]
    refine List.filter_congr fun a _ => ?_
    have spared : (m.removed? != some a.node) = (a.node != node) := by
      rw [hm, Bool.eq_iff_iff, bne_iff_ne, bne_iff_ne, ne_eq, Option.some_inj, eq_comm]
    rw [List.all_cons, spared, Bool.and_comm]

/-- **A list after a run** is what is left of it before the run and what the host submitted for it. -/
theorem list_run {r : RepeatPolicy} (repeating : r ≠ .once) (moves : List Move) {e : Engine}
    (once : e.CascadesOnce) :
    (e.run moves).agenda.list r = lasting moves (e.agenda.list r) ++ e.scheduled r moves := by
  induction moves generalizing e with
  | nil => simp [lasting, scheduled]
  | cons m moves ih =>
    rw [run_cons, ih (once.step m), agenda_step once, Agenda.list_foldl_add _ repeating,
      lasting_append, lasting_cons, scheduled, List.append_assoc]

/-- **The repeating lists belong to the host.** After every run of a new engine, whatever the devices
do, each list is what the host submitted for it, in the order of submission with repetitions kept,
without the actions whose node it removed later. No step of a consumer changes a list: no retry, no
read that a change bitmap asks for, and no write of a state enters; and neither does a stop. And a
tick hands out the list as it is at that moment, in order, says how long it is and keeps it. -/
theorem agenda_is_the_hosts (settings : EngineSettings) (t : Transceiver) (moves : List Move) :
    let first : Engine := { settings := settings, transceiver := t }
    let e := first.run moves
    e.agenda.slow = first.scheduled .slow moves ∧
    e.agenda.fast = first.scheduled .fast moves ∧
    (∀ consumer, (e.step (.advance consumer)).agenda = e.agenda) ∧
    (e.step .stop).agenda = e.agenda ∧
    e.tickSlow.1 = e.agenda.slow.length ∧
    (e.step .tickSlow).intake = e.agenda.slow.foldl Intake.hand e.intake ∧
    (e.step .tickSlow).agenda = e.agenda ∧
    e.tickFast.1 = e.agenda.fast.length ∧
    (e.step .tickFast).intake = e.agenda.fast.foldl Intake.hand e.intake ∧
    (e.step .tickFast).agenda = e.agenda := by
  intro first e
  have none : first.CascadesOnce := List.forall_mem_nil _
  have once : e.CascadesOnce := run_induction none (fun _ m h => h.step m) moves
  have slow : e.agenda.list .slow = first.scheduled .slow moves := list_run (by decide) moves none
  have fast : e.agenda.list .fast = first.scheduled .fast moves := list_run (by decide) moves none
  exact ⟨slow, fast, agenda_advance once, e.agenda_stop, rfl, e.intake_enqueueAll _,
    agenda_step once .tickSlow, rfl, e.intake_enqueueAll _, agenda_step once .tickFast⟩

end Engine

end BusMaster
