import Mathlib.Data.List.Forall2
import BusMaster.Proofs.Engine.Relay

/-!
# Which node a message is told of

A message of an internal dataset is taken in at one moment, and the node of its dataset is looked up
at a later one. In between the host may have added the node anew, with another unit, or removed it.
What is told is the node of the later moment. The two moments belong together all the same: the next
message is not taken in before the node of this one was looked up (`Engine.Consults`), so the messages
are looked up one after another, in the order in which they were taken in, and at any time at most one
of them waits for it (`Engine.Pending`).
-/

namespace BusMaster

namespace Engine

variable {e e' : Engine} {m : Message} {n : Notice}

/-- the engine `e'` has still to look up the node of the message that the engine `e` took in: it is
the same engine after moves in which no other message is taken in, and it knows the same node unless
the host added or removed it -/
structure Consults (e : Engine) (m : Message) (e' : Engine) (n : Notice) : Prop where
  notice : e.notice? m = some n
  later : ∃ moves, e' = e.run (.advance .spreading :: moves) ∧
    (e.step (.advance .spreading)).readings moves = [] ∧
    ((∀ node, .addNode n.dataset.node node ∉ moves) → .removeNode n.dataset.node ∉ moves →
      e'.nodes[n.dataset.node]? = e.nodes[n.dataset.node]?)

/-- Taking in the message is the first of the moves. -/
theorem Consults.first (h : e.notice? m = some n) : e.Consults m (e.step (.advance .spreading)) n :=
  ⟨h, [], rfl, rfl, fun _ _ => congrArg (·[n.dataset.node]?) (e.nodes_advance .spreading)⟩

theorem Consults.step (h : e.Consults m e' n) {move : Move} (reading : e'.reading? move = none) :
    e.Consults m (e'.step move) n := by
  obtain ⟨notice, moves, hmoves, readings, same⟩ := h
  refine ⟨notice, moves ++ [move], ?_, ?_, fun add remove => ?_⟩
  · rw [← List.cons_append, run_append, ← hmoves]
    rfl
  · rw [Engine.readings, collect_append]
    change (e.step (.advance .spreading)).readings moves
      ++ ((e.run (.advance .spreading :: moves)).readings [move]) = []
    rw [readings, ← hmoves, readings_cons, reading]
    rfl
  · simp only [List.mem_append, List.mem_singleton, not_or] at add remove
    rw [node_step (fun node h => (add node).2 h.symm) (fun h => remove.2 h.symm)]
    exact same (fun node => (add node).1) remove.1

/-- the messages that still wait for their nodes to be looked up, each with the engine that took it
in -/
inductive Pending (e : Engine) : List (Engine × Message) → Prop where
  | nothing : e.spreading.telling.notice? = none → Pending e []
  | notice {x : Engine × Message} {n : Notice} :
      e.spreading.telling = .notice n → x.1.Consults x.2 e n → Pending e [x]

/-- the messages of internal datasets that are taken in during a run, each with the engine that takes
it in -/
def internalReadings (e : Engine) (moves : List Move) : List (Engine × Message) :=
  (e.readings moves).filter fun x => (x.1.notice? x.2).isSome

/-- the engine that takes in a message, with the message, belongs to the one that looks up its node -/
def Answers (x : Engine × Message) (y : Engine × Notice) : Prop := x.1.Consults x.2 y.1 y.2

namespace Pending

variable {pending : List (Engine × Message)}

/-- What concerns neither messages nor nodes leaves who waits. -/
theorem wait (h : e.Pending pending) {move : Move} (reading : e.reading? move = none)
    (same : (e.step move).spreading.telling = e.spreading.telling) :
    (e.step move).Pending pending := by
  cases h with
  | nothing h => exact .nothing (same ▸ h)
  | notice h consults => exact .notice (same.trans h) (consults.step reading)

theorem eq_nil (h : e.Pending pending) (none : e.spreading.telling.notice? = none) :
    pending = [] := by
  cases h with
  | nothing => rfl
  | notice waiting _ =>
    rw [waiting] at none
    cases none

theorem eq_singleton (h : e.Pending pending) (waits : e.spreading.telling = .notice n) :
    ∃ x, pending = [x] ∧ x.1.Consults x.2 e n := by
  cases h with
  | nothing none =>
    rw [waits] at none
    cases none
  | notice waiting consults =>
    obtain rfl := Telling.notice.inj (waits.symm.trans waiting)
    exact ⟨_, rfl, consults⟩

/-- A message that is taken in waits, if its dataset is internal. -/
theorem read (m : Message) (telling :
    (e.step (.advance .spreading)).spreading.telling = (e.notice? m).elim .nothing .notice) :
    (e.step (.advance .spreading)).Pending
      ([(e, m)].filter fun x => (x.1.notice? x.2).isSome) := by
  rcases hnotice : e.notice? m with _ | n
  · rw [hnotice] at telling
    rw [List.filter_singleton, hnotice]
    exact .nothing (by rw [telling]; rfl)
  · rw [hnotice] at telling
    rw [List.filter_singleton, hnotice]
    exact .notice telling (.first hnotice)

/-- **A move takes in a message of an internal dataset, or looks up the node of the one that waits.** -/
theorem step (h : e.Pending pending) {move : Move} (stop : move ≠ .stop) :
    ∃ told left, pending ++ e.internalReadings [move] = told ++ left ∧
      List.Forall₂ Answers told (e.lookups [move]) ∧ (e.step move).Pending left := by
  have quiet (reading : e.reading? move = none) : e.internalReadings [move] = [] := by
    rw [internalReadings, readings_cons, reading]
    rfl
  have rest (reading : e.reading? move = none) (looking : e.looking? move = none)
      (same : (e.step move).spreading.telling = e.spreading.telling) :
      ∃ told left, pending ++ e.internalReadings [move] = told ++ left ∧
        List.Forall₂ Answers told (e.lookups [move]) ∧ (e.step move).Pending left := by
    refine ⟨[], pending, ?_, ?_, h.wait reading same⟩
    · rw [quiet reading]
      exact List.append_nil _
    · rw [lookups_cons, looking]
      exact .nil
  by_cases spreading : move = .advance .spreading
  case neg =>
    exact rest (reading?_of_ne spreading) (looking?_of_ne spreading)
      (congrArg _ (spreading_step stop spreading e))
  subst spreading
  obtain ⟨e', hnext, spreads⟩ | ⟨hsame, reading, looking, -⟩ := e.spreads_or_waits
  case inr => exact rest reading looking (by rw [hsame])
  cases spreads with
  | cascade hspreading =>
    refine rest (reading?_of_rest (by simp [hspreading]) _) ?_ ?_
    · rw [looking?, hspreading]
    · rw [hnext, hspreading]
      exact congrArg (fun o : Outbox => o.spreading.telling) (schedules_submit ..).outbox
  | state hspreading _ =>
    refine rest (reading?_of_rest (by simp [hspreading]) _) ?_ ?_
    · rw [looking?, hspreading]
    · rw [hnext, hspreading]
      rfl
  | @lookUp n hspreading =>
    obtain ⟨x, rfl, consults⟩ := h.eq_singleton (congrArg Spreading.telling hspreading)
    refine ⟨[x], [], ?_, ?_, .nothing ?_⟩
    · rw [quiet (reading?_of_rest (by simp [hspreading]) _)]
    · rw [lookups_cons, looking?, hspreading]
      exact .cons consults .nil
    · obtain ⟨lines, hlook⟩ := e.lookUp_eq n
      rw [hnext, hlook]
      rcases e.finding? n with _ | f <;> rfl
  | finding hspreading _ =>
    obtain rfl := h.eq_nil (by rw [hspreading]; rfl)
    refine ⟨[], [], ?_, ?_, .nothing ?_⟩
    · rw [quiet (reading?_of_rest (by simp [hspreading]) _)]
    · rw [lookups_cons, looking?, hspreading]
      exact .nil
    · rw [hnext]
      rfl
  | @read m messages hspreading hpop =>
    obtain rfl := h.eq_nil (by rw [hspreading]; rfl)
    refine ⟨[], _, ?_, ?_, .read m ?_⟩
    · rw [internalReadings, readings_cons, reading?, hspreading, (Flow.pop?_items hpop).1]
      rfl
    · rw [lookups_cons, looking?, hspreading]
      exact .nil
    · obtain ⟨lines, hspread⟩ := spread_eq (e := { e with messages := messages }) m hspreading
      rw [hnext, hspread]
      rfl

theorem run (h : e.Pending pending) {moves : List Move} (running : (e.run moves).isRunning = true) :
    ∃ told left, pending ++ e.internalReadings moves = told ++ left ∧
      List.Forall₂ Answers told (e.lookups moves) ∧ (e.run moves).Pending left := by
  induction moves generalizing e pending with
  | nil => exact ⟨[], pending, List.append_nil _, .nil, h⟩
  | cons move moves ih =>
    obtain ⟨-, stop⟩ := running_of_run running
    obtain ⟨told, left, hfirst, answers, hleft⟩ := h.step stop
    obtain ⟨told', left', hrest, answers', hleft'⟩ := ih hleft running
    refine ⟨told ++ told', left', ?_, ?_, hleft'⟩
    · have split : e.internalReadings (move :: moves)
          = e.internalReadings [move] ++ (e.step move).internalReadings moves := by
        rw [internalReadings, internalReadings, internalReadings, readings_cons, readings_cons,
          ← List.filter_append]
        exact congrArg _ (congrArg (· ++ _) (List.append_nil _).symm)
      rw [split, ← List.append_assoc, hfirst, List.append_assoc, hrest, List.append_assoc]
    · have split : e.lookups (move :: moves)
          = e.lookups [move] ++ (e.step move).lookups moves := by
        rw [lookups_cons, lookups_cons]
        exact congrArg (· ++ _) (List.append_nil _).symm
      rw [split]
      exact List.rel_append answers answers'

end Pending

/-- A stopped engine looks up nothing. -/
theorem Halted.lookups (h : e.Halted) (moves : List Move) : e.lookups moves = [] := by
  induction moves generalizing e with
  | nil => rfl
  | cons move moves ih =>
    rw [lookups_cons, h.looking? move, ih (h.step move)]
    rfl

variable (settings : EngineSettings) (t : Transceiver)

/-- **The messages of internal datasets are looked up one after another**, in the order in which they
were taken in, in every run. -/
theorem lookups_answer (moves : List Move) : ∃ told, told <+: (new settings t).internalReadings moves ∧
    List.Forall₂ Answers told ((new settings t).lookups moves) := by
  have first : (new settings t).Pending [] := .nothing rfl
  obtain running | ⟨before, after, rfl, running⟩ := running_or_stopped moves
    (show (new settings t).isRunning = true from rfl)
  · obtain ⟨told, left, hread, answers, -⟩ := first.run running
    exact ⟨told, ⟨left, hread.symm⟩, answers⟩
  · -- after the first stop nothing is looked up
    obtain ⟨told, left, hread, answers, -⟩ := first.run running
    refine ⟨told, ?_, ?_⟩
    · have earlier : told <+: (new settings t).internalReadings before := ⟨left, hread.symm⟩
      refine earlier.trans ?_
      rw [internalReadings, internalReadings, readings, readings, collect_append, List.filter_append]
      exact List.prefix_append ..
    · have nothing := (halted_stop running).lookups after
      rw [Engine.lookups, collect_append]
      change List.Forall₂ Answers told (_ ++ ([] ++ ((new settings t).run before).stop.lookups after))
      rwa [nothing, List.append_nil, List.append_nil]

/-- **None is left out** once nothing is left to be done for a message. -/
theorem lookups_answer_all {moves : List Move}
    (running : ((new settings t).run moves).isRunning = true)
    (done : ((new settings t).run moves).spreading = {}) :
    List.Forall₂ Answers ((new settings t).internalReadings moves)
      ((new settings t).lookups moves) := by
  have first : (new settings t).Pending [] := .nothing rfl
  obtain ⟨told, left, hread, answers, pending⟩ := first.run running
  obtain rfl := pending.eq_nil (by rw [done]; rfl)
  rw [List.nil_append, List.append_nil] at hread
  rwa [hread]

end Engine

end BusMaster
