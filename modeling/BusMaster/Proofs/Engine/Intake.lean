import BusMaster.Proofs.Engine.Flows

/-!
# What is handed to the flow of actions

The host, the ticks, the composition of writes, the change bitmaps and the retries all hand their
actions to the same flow, one after another (`Engine.handed`). The flow takes an action if it has
room, and else the action is dropped and counted (`Intake.hand`). Nothing else that a move does
touches the flow or the two counters beside it (`Engine.intake_step`), the steps of the execution
apart: it takes actions out and counts those that it gives up (`Engine.intake_conclude`).
-/

namespace BusMaster

/-- the flow of actions and what is counted beside it -/
structure Intake where
  settings : EngineSettings
  isRunning : Bool
  actions : Flow Action
  dropped : Nat
  failures : Nat

namespace Intake

/-- an action is handed over -/
def hand (i : Intake) (a : Action) : Intake :=
  if i.isRunning then
    match i.actions.push? a with
    | some actions => { i with actions := actions }
    | none => { i with dropped := i.dropped + 1 }
  else i

/-- places that are free -/
def room (i : Intake) : Nat := i.actions.capacity - i.actions.items.length

/-- Of actions handed over one after another the first ones enter, as many as there is room for, and
the others are counted. -/
structure Takes (i : Intake) (actions : List Action) (i' : Intake) : Prop where
  settings : i'.settings = i.settings
  isRunning : i'.isRunning = i.isRunning
  capacity : i'.actions.capacity = i.actions.capacity
  items : i'.actions.items = i.actions.items ++ actions.take i.room
  dropped : i'.dropped = i.dropped + (actions.drop i.room).length
  failures : i'.failures = i.failures

variable {i : Intake}

theorem takes_hand (running : i.isRunning = true) (a : Action) : i.Takes [a] (i.hand a) := by
  rw [hand, if_pos running]
  split
  · rename_i actions hpush
    obtain ⟨hitems, hcapacity⟩ := Flow.push?_items hpush
    have hroom : 0 < i.room := by
      have hbounded := actions.bounded
      rw [hitems, hcapacity, List.length_append, List.length_singleton] at hbounded
      exact Nat.sub_pos_of_lt hbounded
    refine ⟨rfl, rfl, hcapacity, ?_, ?_, rfl⟩
    · rw [List.take_of_length_le hroom]
      exact hitems
    · rw [List.drop_of_length_le hroom]
      rfl
  · rename_i hpush
    have hfull := Flow.push?_eq_none_iff.1 hpush
    rw [Flow.isFull, decide_eq_true_eq] at hfull
    have hroom : i.room = 0 := Nat.sub_eq_zero_of_le hfull
    refine ⟨rfl, rfl, rfl, ?_, ?_, rfl⟩
    · rw [hroom, List.take_zero, List.append_nil]
    · rw [hroom, List.drop_zero]
      rfl

theorem Takes.trans {i' i'' : Intake} {actions actions' : List Action} (first : i.Takes actions i')
    (second : i'.Takes actions' i'') : i.Takes (actions ++ actions') i'' := by
  -- the second ones find the room that the first ones leave
  have hroom : i'.room = i.room - actions.length := by
    rw [room, room, first.capacity, first.items, List.length_append, List.length_take, room]
    omega
  refine ⟨second.settings.trans first.settings, second.isRunning.trans first.isRunning,
    second.capacity.trans first.capacity, ?_, ?_, second.failures.trans first.failures⟩
  · rw [second.items, first.items, hroom, List.take_append, List.append_assoc]
  · rw [second.dropped, first.dropped, hroom, List.drop_append, List.length_append, Nat.add_assoc]

theorem Takes.nil (i : Intake) : i.Takes [] i :=
  ⟨rfl, rfl, rfl, by rw [List.take_nil, List.append_nil], by rw [List.drop_nil]; rfl, rfl⟩

/-- **The flow takes what it has room for.** -/
theorem takes_foldl (running : i.isRunning = true) (actions : List Action) :
    i.Takes actions (actions.foldl hand i) := by
  induction actions generalizing i with
  | nil => exact .nil i
  | cons a actions ih =>
    have first := takes_hand running a
    exact first.trans (ih (first.isRunning.trans running))

/-- A flow that was stopped takes nothing. -/
theorem foldl_hand_stopped (stopped : i.isRunning = false) (actions : List Action) :
    actions.foldl hand i = i := by
  induction actions with
  | nil => rfl
  | cons a actions ih =>
    rw [List.foldl_cons, hand, stopped, if_neg Bool.false_ne_true]
    exact ih

end Intake

/-- what the end of an action hands over again -/
def Execution.retried (maxRetries : UInt8) : Execution → List Action
  | .running a (.done (.error .noReply)) => if a.retries < maxRetries then [a.retry] else []
  | _ => []

namespace Engine

/-- the flow of actions and what is counted beside it -/
def intake (e : Engine) : Intake := ⟨e.settings, e.isRunning, e.actions, e.dropped, e.failures⟩

/-- what the write of a state hands over -/
def composed (e : Engine) (s : State) : List Action :=
  match e.catalog.buildWrite s with
  | .ok a => Agenda.handsOut a
  | .error _ => []

/-- the actions that a move hands to their flow, in order -/
def handed (e : Engine) : Move → List Action
  | .submit a => Agenda.handsOut a
  | .pollDataset id =>
    match e.catalog.readAction id with
    | .ok a => Agenda.handsOut a
    | .error _ => []
  | .pollNode id =>
    if e.nodes.contains id then
      (e.catalog.datasetsOf id).flatMap fun x => Agenda.handsOut (Action.ofDataset x.1 x.2)
    else []
  | .tickSlow => e.agenda.slow
  | .tickFast => e.agenda.fast
  | .advance .composition => e.states.items.head?.elim [] e.composed
  | .advance .spreading => e.spreading.cascades.head?.elim [] Agenda.handsOut
  | .advance .execution => e.execution.retried e.settings.maxRetries
  | _ => []

theorem intake_enqueue (e : Engine) (a : Action) : (e.enqueue a).intake = e.intake.hand a := by
  have handed : e.intake.hand a = if e.isRunning then
      match e.actions.push? a with
      | some actions => { e.intake with actions := actions }
      | none => { e.intake with dropped := e.dropped + 1 }
    else e.intake := rfl
  rw [enqueue, handed]
  split
  · rcases e.actions.push? a with _ | actions <;> rfl
  · rfl

theorem intake_foldl {α : Type} (f : Engine → α → Engine) (handed : α → List Action)
    (h : ∀ e x, (f e x).intake = (handed x).foldl Intake.hand e.intake) (xs : List α) (e : Engine) :
    (xs.foldl f e).intake = (xs.flatMap handed).foldl Intake.hand e.intake := by
  induction xs generalizing e with
  | nil => rfl
  | cons x xs ih => rw [List.foldl_cons, ih, h, List.flatMap_cons, List.foldl_append]

theorem intake_enqueueAll (e : Engine) (actions : List Action) :
    (e.enqueueAll actions).intake = actions.foldl Intake.hand e.intake := by
  rw [enqueueAll, intake_foldl enqueue (fun a => [a]) intake_enqueue, List.flatMap_singleton']

theorem intake_submit (e : Engine) (a : Action) :
    (e.submit a).intake = (Agenda.handsOut a).foldl Intake.hand e.intake :=
  intake_enqueueAll { e with agenda := e.agenda.add a } _

theorem intake_compose (e : Engine) (s : State) :
    (e.compose s).intake = (e.composed s).foldl Intake.hand e.intake := by
  rw [compose, composed]
  rcases e.catalog.buildWrite s with fault | a
  · rfl
  · exact intake_submit _ a

/-- Of what is done for a message only its reads are handed over. -/
theorem Spreads.intake {e e' : Engine} (h : Spreads e e') :
    e'.intake = (e.spreading.cascades.head?.elim [] Agenda.handsOut).foldl Intake.hand e.intake := by
  cases h with
  | cascade hspreading =>
    rw [hspreading]
    exact intake_submit ..
  | state hspreading _ =>
    rw [hspreading]
    rfl
  | @lookUp n hspreading =>
    obtain ⟨lines, h⟩ := e.lookUp_eq n
    rw [h, hspreading]
    rfl
  | finding hspreading _ =>
    rw [hspreading]
    rfl
  | @read m messages hspreading _ =>
    obtain ⟨lines, h⟩ := spread_eq (e := { e with messages := messages }) m hspreading
    rw [h, hspreading]
    rfl

/-- **What a move hands over is all that it does to the flow of actions**, if it is no stop and no step
of the execution. -/
theorem intake_step {m : Move} (stop : m ≠ .stop) (execution : m ≠ .advance .execution)
    (e : Engine) : (e.step m).intake = (e.handed m).foldl Intake.hand e.intake := by
  cases m with
  | stop => exact absurd rfl stop
  | connect =>
    simp only [step]
    split <;> rfl
  | disconnect =>
    simp only [step]
    split <;> rfl
  | submit a => exact intake_submit e a
  | pollDataset id =>
    simp only [step, pollDataset, handed]
    rcases e.catalog.readAction id with fault | a
    · rfl
    · exact intake_submit e a
  | pollNode id =>
    simp only [step, pollNode, handed]
    split
    · exact intake_foldl _ _ (fun e x => intake_submit e (Action.ofDataset x.1 x.2)) _ e
    · rfl
  | tickSlow => exact intake_enqueueAll e _
  | tickFast => exact intake_enqueueAll e _
  | write s =>
    simp only [step, write?]
    split
    · rcases e.states.push? s with _ | states <;> rfl
    · rfl
  | takeReport =>
    simp only [step, takeReport]
    split <;> rfl
  | advance consumer =>
    cases consumer with
    | execution => exact absurd rfl execution
    | composition =>
      simp only [step, advance?, compose?, handed]
      rcases hpop : e.states.pop? with _ | ⟨s, states⟩
      · rw [Flow.pop?_eq_none_iff.1 hpop]
        rfl
      · rw [(Flow.pop?_items hpop).1]
        exact intake_compose { e with states := states } s
    | spreading =>
      obtain ⟨e', hnext, spreads⟩ | ⟨hsame, -, -, hnone⟩ := e.spreads_or_waits
      · rw [hnext]
        exact spreads.intake
      · rw [hsame, handed, hnone]
        rfl
    | announcement =>
      simp only [step, advance?, announce?]
      split
      · rcases e.reports.push? _ with _ | reports <;> rfl
      · rcases e.findings.pop? with _ | ⟨finding, findings⟩ <;> rfl
  | _ => rfl

/-- A stop empties the flow for good and counts nothing. -/
theorem intake_stop {e : Engine} (running : e.isRunning = true) :
    e.stop.intake = { e.intake with isRunning := false, actions := e.actions.clear } := by
  have composed : ∀ (states : List State) (e : Engine), e.isRunning = false →
      (states.foldl compose e).intake = e.intake := by
    intro states
    induction states with
    | nil => exact fun e _ => rfl
    | cons s states ih =>
      intro e stopped
      have hintake : (e.compose s).intake = e.intake :=
        (intake_compose e s).trans (Intake.foldl_hand_stopped stopped _)
      exact (ih _ ((congrArg Intake.isRunning hintake).trans stopped)).trans hintake
  have closed (e : Engine) (lines : List LogLine) : (e.note lines).disconnect.intake = e.intake := rfl
  obtain ⟨lines, hstop⟩ := stop_eq running
  rw [hstop, closed, composed _ e.emptied rfl]
  rfl

/-- The end of an action hands it over again, or counts that it is given up, or neither. -/
theorem intake_conclude (e : Engine) (a : Action) (result : Except RequestFault Gain) :
    (e.conclude a result).intake =
      match result with
      | .error .noReply =>
        if a.retries < e.settings.maxRetries then e.intake.hand a.retry
        else { e.intake with failures := e.failures + 1 }
      | _ => e.intake := by
  cases result with
  | ok gain => cases gain <;> rfl
  | error fault =>
    cases fault with
    | noReply =>
      rw [conclude]
      dsimp only
      split
      · exact intake_submit _ a.retry
      · rfl
    | _ => rfl

end Engine

end BusMaster
