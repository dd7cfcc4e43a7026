import BusMaster.Proofs.Engine.History
import BusMaster.Proofs.Engine.Jobs
import BusMaster.Proofs.Query.Blame
import BusMaster.Proofs.Transceiver.Counting

/-!
# What moves the counters

Three counters say how the work of an engine went: exchanges that were begun, those that ended at
their deadline, and actions that were given up. The first two are the transceiver's. Only the
execution of actions moves them (`Engine.figures_step`), and at the end of an action the third one
grows if the action is given up (`Engine.figures_conclude`).
-/

namespace BusMaster

namespace Engine

/-- the settings, the counts of exchanges and the count of failures -/
def figures (e : Engine) : EngineSettings × (Nat × Nat) × Nat :=
  (e.settings, e.transceiver.counts, e.failures)

variable {e e' : Engine} {actions : List Action}

theorem Schedules.figures (h : Schedules e actions e') : e'.figures = e.figures := by
  obtain ⟨flow, dropped, journal, rfl⟩ := h
  rfl

theorem figures_of_counts {t : Transceiver} (h : t.counts = e.transceiver.counts) :
    ({ e with transceiver := t } : Engine).figures = e.figures :=
  congrArg (fun counts => (e.settings, counts, e.failures)) h

theorem figures_disconnect (e : Engine) : e.disconnect.figures = e.figures :=
  figures_of_counts e.transceiver.counts_disconnect

theorem figures_stop (e : Engine) : e.stop.figures = e.figures := by
  by_cases running : e.isRunning = true
  · obtain ⟨lines, hstop⟩ := stop_eq running
    obtain ⟨actions, -, schedules⟩ := schedules_foldl_compose e.states.items e.emptied
    rw [hstop, figures_disconnect, (schedules_note ..).figures, schedules.figures]
    rfl
  · rw [stop, if_neg running, figures_disconnect]

/-- Only the execution of actions counts. -/
theorem figures_step {m : Move} (execution : m ≠ .advance .execution) (e : Engine) :
    (e.step m).figures = e.figures := by
  rcases planning : m.isPlanning with _ | _
  · cases m with
    | connect =>
      simp only [step]
      split
      · rfl
      · exact figures_of_counts e.transceiver.counts_connect
    | disconnect =>
      simp only [step]
      split
      · rfl
      · exact e.figures_disconnect
    | write s =>
      simp only [step, write?]
      split
      · rcases e.states.push? s with _ | states <;> rfl
      · rfl
    | takeReport =>
      simp only [step, takeReport]
      split <;> rfl
    | stop => exact e.figures_stop
    | pass length => rfl
    | advance consumer =>
      cases consumer with
      | execution => exact absurd rfl execution
      | spreading =>
        obtain ⟨catalog, messages, spreading, findings, reports, schedules⟩ := e.schedules_spreading
        exact schedules.figures
      | composition =>
        obtain ⟨states, actions, -, schedules⟩ := e.schedules_composition
        exact schedules.figures
      | announcement =>
        simp only [step, advance?, announce?]
        split
        · rcases e.reports.push? _ with _ | reports
          · rfl
          · exact (schedules_note ..).figures
        · rcases e.findings.pop? with _ | ⟨finding, findings⟩
          · rfl
          · exact (schedules_note ..).figures
    | _ => cases planning
  · have edits : (e.edited m).figures = e.figures := by cases m <;> rfl
    exact (schedules_step planning e).figures.trans edits

/-- The end of an action counts a failure if it is given up. -/
theorem figures_conclude (e : Engine) (a : Action) (result : Except RequestFault Gain) :
    (e.conclude a result).figures = (e.settings, e.transceiver.counts,
      e.failures + if Trial.isGivenUp e.settings.maxRetries ⟨a, result⟩ then 1 else 0) := by
  rw [conclude.eq_def]
  dsimp only
  split
  · rfl
  · rfl
  · rfl
  · split
    · rename_i left
      rw [if_neg fun h => UInt8.not_le.2 left (Trial.isGivenUp_iff.1 h).2]
      exact ((schedules_note _ _).trans (schedules_submit _ _)).figures
    · rename_i none
      rw [if_pos (Trial.isGivenUp_iff.2 ⟨rfl, UInt8.not_lt.1 none⟩)]
      exact (schedules_note ..).figures
  · rename_i fault answered
    have ended : ¬Trial.isGivenUp e.settings.maxRetries ⟨a, .error fault⟩ = true := by
      rw [Trial.isGivenUp_iff]
      exact fun h => answered (Except.error.inj h.1)
    rw [if_neg ended]
    split
    · exact (figures_disconnect _).trans (schedules_note ..).figures
    · exact (schedules_note ..).figures

end Engine

end BusMaster
