import Mathlib.Data.List.Basic
import BusMaster.Proofs.Engine.Flows

/-!
# The writes of the host

Once a write of the host has become an action, nothing in the engine tells it from any other. The
ledger follows a run of the engine from outside and knows: it numbers the writes in the order they
were taken, keeps for each place of the two flows the write that stands there, and sets down what
happens to a write on its way (`WriteEvent`). It reads the engine and never acts on it, so every run
has its ledger (`Ledger.run`), and misses no request that goes out (`Ledger.run_sent`).

A retry enters the flow of actions at its end. That is the only way in which writes change places,
and it is what the invariant `Ledger.InOrder` allows for: a write stands behind a newer one, or comes
after its answer, only if it was queued again after the newer one had been accepted.
-/

namespace BusMaster

/-! ## What happens to a write -/

/-- what can happen to a write after it was taken -/
inductive WriteStep where
  /-- its action entered the flow of actions -/
  | accepted
  /-- a request of its action went out -/
  | sent
  /-- its action ended well -/
  | answered
  /-- its action timed out and entered the flow of actions again -/
  | requeued
  deriving DecidableEq, Repr

/-- something that happened to a write -/
structure WriteEvent where
  step : WriteStep
  /-- number of the write -/
  write : Nat
  /-- the action that carried it -/
  action : Action

/-- the step was taken with the write -/
def Happened (events : List WriteEvent) (step : WriteStep) (n : Nat) : Prop :=
  ∃ x ∈ events, x.step = step ∧ x.write = n

/-- write `i` was queued again after write `j` had been accepted -/
def RequeuedAfter (events : List WriteEvent) (i j : Nat) : Prop :=
  ∃ before x after, events = before ++ x :: after ∧ x.step = .accepted ∧ x.write = j ∧
    Happened after .requeued i

theorem Happened.append {events : List WriteEvent} {step : WriteStep} {n : Nat}
    (h : Happened events step n) (more : List WriteEvent) : Happened (events ++ more) step n := by
  obtain ⟨x, hx, hstep, hwrite⟩ := h
  exact ⟨x, List.mem_append_left _ hx, hstep, hwrite⟩

theorem happened_append_iff {events more : List WriteEvent} {step : WriteStep} {n : Nat} :
    Happened (events ++ more) step n ↔ Happened events step n ∨ Happened more step n := by
  constructor
  · rintro ⟨x, hx, h⟩
    rcases List.mem_append.1 hx with hx | hx
    · exact .inl ⟨x, hx, h⟩
    · exact .inr ⟨x, hx, h⟩
  · rintro (h | ⟨x, hx, h⟩)
    · exact h.append more
    · exact ⟨x, List.mem_append_right _ hx, h⟩

theorem RequeuedAfter.append {events : List WriteEvent} {i j : Nat} (h : RequeuedAfter events i j)
    (more : List WriteEvent) : RequeuedAfter (events ++ more) i j := by
  obtain ⟨before, x, after, rfl, hstep, hwrite, hafter⟩ := h
  exact ⟨before, x, after ++ more, by rw [List.append_assoc, List.cons_append], hstep, hwrite,
    hafter.append more⟩

/-- Queued again now, a write was queued again after all that were accepted before. -/
theorem requeuedAfter_append {events more : List WriteEvent} {i j : Nat}
    (accepted : Happened events .accepted j) (requeued : Happened more .requeued i) :
    RequeuedAfter (events ++ more) i j := by
  obtain ⟨x, hx, hstep, hwrite⟩ := accepted
  obtain ⟨before, after, rfl⟩ := List.append_of_mem hx
  refine ⟨before, x, after ++ more, by rw [List.append_assoc, List.cons_append], hstep, hwrite, ?_⟩
  exact happened_append_iff.2 (.inr requeued)

/-! ## The ledger -/

/-- the writes of a run -/
structure Ledger where
  /-- all that were taken, the number of a write is its place -/
  writes : List State := []
  /-- those that wait in the flow of states -/
  states : List Nat := []
  /-- for each action in its flow, the write it carries -/
  actions : List (Option Nat) := []
  /-- the write that the action under execution carries -/
  current : Option Nat := none
  /-- what happened, in order -/
  events : List WriteEvent := []

namespace Ledger

/-- a write was taken -/
def take (l : Ledger) (s : State) : Ledger :=
  { l with writes := l.writes ++ [s], states := l.states ++ [l.writes.length] }

/-- the oldest waiting write was turned into the actions that entered -/
def compose (l : Ledger) (entered : List Action) : Ledger :=
  match l.states with
  | [] => l
  | n :: rest => { l with
      states := rest
      actions := l.actions ++ entered.map fun _ => some n
      events := l.events ++ entered.map (⟨.accepted, n, ·⟩) }

/-- actions that carry no write entered -/
def enter (l : Ledger) (entered : List Action) : Ledger :=
  { l with actions := l.actions ++ entered.map fun _ => none }

/-- the action at the front is executed -/
def begin (l : Ledger) : Ledger :=
  match l.actions with
  | [] => l
  | n :: rest => { l with actions := rest, current := n }

/-- the action under execution came to its end, and entered again or not -/
def conclude (l : Ledger) (entered : List Action) : Ledger :=
  { l with
    actions := l.actions ++ entered.map fun _ => l.current
    current := none
    events := l.events ++ l.current.toList.flatMap fun n => entered.map (⟨.requeued, n, ·⟩) }

/-- something happened to the action under execution -/
def about (l : Ledger) (step : WriteStep) (a : Action) : Ledger :=
  { l with events := l.events ++ l.current.toList.map (⟨step, ·, a⟩) }

/-- all that waits was discarded -/
def clear (l : Ledger) : Ledger := { l with states := [], actions := [], current := none }

/-- no answer came -/
def isTimeout : Except RequestFault Gain → Bool
  | .error .noReply => true
  | _ => false

/-- what a step of the execution means for the writes -/
def followExecution (l : Ledger) (e e' : Engine) (entered : List Action) : Ledger :=
  match e.execution with
  | .idle => l.begin
  | .running _ (.done result) => l.conclude (if isTimeout result then entered else [])
  | .running a _ => if e'.sendings = e.sendings then l else l.about .sent a
  | .awaiting a _ _ =>
    match e'.execution with
    | .running _ (.done (.ok _)) => l.about .answered a
    | _ => l
  | _ => l

/-- what a move of the engine means for the writes -/
def follow (l : Ledger) (e : Engine) (m : Move) : Ledger :=
  let e' := e.step m
  let entered := e'.actions.items.drop e.actions.items.length
  match m with
  | .write s => if e.states.items.length < e'.states.items.length then l.take s else l
  | .stop => if e.isRunning then l.clear else l
  | .advance .composition => l.compose entered
  | .advance .execution => l.followExecution e e' entered
  | _ => l.enter entered

/-- the ledger after moves of the engine -/
def run (l : Ledger) (e : Engine) : List Move → Ledger
  | [] => l
  | m :: moves => (l.follow e m).run (e.step m) moves

theorem run_append (l : Ledger) (e : Engine) (before after : List Move) :
    l.run e (before ++ after) = (l.run e before).run (e.run before) after := by
  induction before generalizing l e with
  | nil => rfl
  | cons m before ih => exact ih (l.follow e m) (e.step m)

variable {l : Ledger} {e : Engine}

/-- Whenever a request goes out, the ledger sets it down. -/
theorem follow_sent {m : Move} (out : (e.step m).sendings ≠ e.sendings) :
    ∃ a, e.execution.action? = some a ∧
      (l.follow e m).events = l.events ++ l.current.toList.map (⟨.sent, ·, a⟩) := by
  obtain ⟨rfl, a, request, ⟨next, hexec⟩ | ⟨next, hexec⟩⟩ := Engine.sendings_step out <;>
  · refine ⟨a, by rw [hexec]; rfl, ?_⟩
    rw [follow, followExecution, hexec]
    dsimp only
    rw [if_neg out]
    rfl

theorem events_about (l : Ledger) (step : WriteStep) (a : Action) :
    l.events <+: (l.about step a).events := List.prefix_append ..

theorem events_followExecution (l : Ledger) (e e' : Engine) (entered : List Action) :
    l.events <+: (l.followExecution e e' entered).events := by
  have same : l.events <+: l.events := List.prefix_refl _
  rw [followExecution.eq_def]
  split
  · rw [begin]
    split <;> exact same
  · exact List.prefix_append ..
  · split
    · exact same
    · exact l.events_about ..
  · split
    · exact l.events_about ..
    · exact same
  · exact same

/-- What is set down stays. -/
theorem events_follow (l : Ledger) (e : Engine) (m : Move) :
    l.events <+: (l.follow e m).events := by
  have same : l.events <+: l.events := List.prefix_refl _
  rw [follow.eq_def]
  dsimp only
  split
  · split <;> exact same
  · split <;> exact same
  · rw [compose]
    split
    · exact same
    · exact List.prefix_append ..
  · exact l.events_followExecution ..
  · exact same

theorem events_run (l : Ledger) (e : Engine) (moves : List Move) :
    l.events <+: (l.run e moves).events := by
  induction moves generalizing l e with
  | nil => exact List.prefix_refl _
  | cons m moves ih => exact (l.events_follow e m).trans (ih (l.follow e m) (e.step m))

/-- **The ledger misses no request.** With each that goes out in a run it sets down which write the
action under execution carries, if it carries one. -/
theorem run_sent {before after : List Move} {m : Move}
    (out : ((e.run before).step m).sendings ≠ (e.run before).sendings) :
    ∃ a, (e.run before).execution.action? = some a ∧
      (l.run e before).events ++ (l.run e before).current.toList.map (⟨.sent, ·, a⟩) <+:
        (l.run e (before ++ m :: after)).events := by
  obtain ⟨a, current, hevents⟩ := follow_sent (l := l.run e before) out
  refine ⟨a, current, ?_⟩
  rw [run_append, ← hevents]
  exact events_run ..

end Ledger

end BusMaster
