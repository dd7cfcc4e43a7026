import Mathlib.Data.List.Forall2
import BusMaster.Proofs.Engine.Balance
import BusMaster.Proofs.Engine.Jobs

/-!
# How often an action is tried

Nothing in the engine tells a retry from any other action. The docket follows a run of the engine from
outside and keeps together what belongs together: for each action that entered its flow the job that
it began, until the job is closed, or lost to a full flow, or discarded by a stop (`Docket`). Like the
ledger of writes it reads the engine and never acts on it.

The docket stays in step with the flow of actions, the execution and the counters, move by move
(`Docket.Follows.follow`). So whatever the host does and the devices answer, no action is executed
more often than its retries allow, and what is given up or lost is counted once
(`retries_are_bounded`).
-/

namespace BusMaster

/-- the jobs of a run -/
structure Docket where
  /-- those whose action waits in its flow, in order -/
  waiting : List Job := []
  /-- the one whose action is executed -/
  current : Option Job := none
  /-- those that are not tried again -/
  closed : List Job := []
  /-- those whose retry found its flow full -/
  lost : List Job := []
  /-- those that a stop discarded -/
  discarded : List Job := []
  /-- the actions that found their flow full when they were handed over first -/
  refused : List Action := []

namespace Docket

/-- all jobs -/
def jobs (d : Docket) : List Job :=
  d.waiting ++ d.current.toList ++ d.closed ++ d.lost ++ d.discarded

/-- all executions that began -/
def attempts (d : Docket) : List Action := d.jobs.flatMap Job.attempts

/-- all executions that came to their end -/
def trials (d : Docket) : List Trial := d.jobs.flatMap Job.trials

/-- actions entered, and others found no room -/
def enter (d : Docket) (entered refused : List Action) : Docket :=
  { d with waiting := d.waiting ++ entered.map ({ entered := · }), refused := d.refused ++ refused }

/-- the action at the front is executed -/
def begin (d : Docket) (a : Action) : Docket :=
  match d.waiting with
  | [] => d
  | j :: rest => { d with waiting := rest, current := some (j.begin a) }

/-- the execution under way came to its end: another action entered, or one was counted that found no
room, or neither -/
def conclude (d : Docket) (result : Except RequestFault Gain) (i i' : Intake) : Docket :=
  match d.current with
  | none => d
  | some j =>
    let j := j.settle result
    let d := { d with current := none }
    if i.actions.items.length < i'.actions.items.length then { d with waiting := d.waiting ++ [j] }
    else if i.dropped < i'.dropped then { d with lost := d.lost ++ [j] }
    else { d with closed := d.closed ++ [j] }

/-- all that waits was discarded, and what was under way -/
def clear (d : Docket) : Docket :=
  { d with
    waiting := []
    current := none
    discarded := d.discarded ++ d.waiting ++ d.current.toList }

/-- what a move of the engine means for the jobs -/
def follow (d : Docket) (e : Engine) (m : Move) : Docket :=
  let e' := e.step m
  match m with
  | .stop => if e.isRunning then d.clear else d
  | .advance .execution =>
    match e.execution with
    | .idle => e'.execution.action?.elim d d.begin
    | .running _ (.done result) => d.conclude result e.intake e'.intake
    | _ => d
  | _ =>
    let entered := e'.actions.items.drop e.actions.items.length
    d.enter entered (if e.isRunning then (e.handed m).drop entered.length else [])

/-- the docket after moves of the engine -/
def run (d : Docket) (e : Engine) : List Move → Docket
  | [] => d
  | m :: moves => (d.follow e m).run (e.step m) moves

/-- The docket says what is so of the flow, of the action under execution and of all that began. -/
structure Follows (maxRetries : UInt8) (begun : List Action) (d : Docket) (i : Intake)
    (executed : Option Action) : Prop where
  settings : i.settings.maxRetries = maxRetries
  waiting : List.Forall₂ (Job.Waits maxRetries) d.waiting i.actions.items
  current : Option.Rel (Job.Works maxRetries) d.current executed
  closed : ∀ j ∈ d.closed, ∃ x, j.Ended maxRetries x ∧
    (x.result = .error .noReply → maxRetries ≤ x.action.retries)
  lost : ∀ j ∈ d.lost, ∃ x, j.Ended maxRetries x ∧ x.result = .error .noReply ∧
    x.action.retries < maxRetries
  discarded : ∀ j ∈ d.discarded, ∃ a, j.Waits maxRetries a ∨ j.Works maxRetries a
  begun : d.attempts.Perm begun
  failures : d.trials.countP (Trial.isGivenUp maxRetries) = i.failures
  dropped : d.refused.length + d.lost.length = i.dropped
  stopped : i.isRunning = false → i.actions.items = [] ∧ executed = none

variable {maxRetries : UInt8} {begun : List Action} {d : Docket} {i i' : Intake}
  {executed : Option Action} {a : Action}

/-- One job goes on. -/
theorem perm_flatMap_of_replace {α : Type} {f : Job → List α} {d' : Docket} {j j' : Job}
    {others : List Job} {new : List α} (before : d.jobs.Perm (j :: others))
    (after : d'.jobs.Perm (j' :: others)) (h : f j' = f j ++ new) :
    (d'.jobs.flatMap f).Perm (d.jobs.flatMap f ++ new) := by
  refine (after.flatMap_right f).trans (.trans ?_ ((before.flatMap_right f).symm.append_right new))
  rw [List.flatMap_cons, List.flatMap_cons, h, List.append_assoc, List.append_assoc]
  exact List.perm_append_comm.append_left _

theorem perm_enter (d : Docket) (entered refused : List Action) :
    (d.enter entered refused).jobs.Perm (d.jobs ++ entered.map ({ entered := · })) := by
  classical
  refine List.perm_iff_count.2 fun j => ?_
  simp only [enter, jobs, List.count_append]
  omega

theorem perm_clear (d : Docket) : d.clear.jobs.Perm d.jobs := by
  classical
  refine List.perm_iff_count.2 fun j => ?_
  simp only [clear, jobs, List.count_append, Option.toList_none, List.count_nil]
  omega

theorem perm_begin {j : Job} {rest : List Job} (waiting : d.waiting = j :: rest)
    (idle : d.current = none) (a : Action) :
    ∃ others, d.jobs.Perm (j :: others) ∧ (d.begin a).jobs.Perm (j.begin a :: others) := by
  refine ⟨rest ++ d.closed ++ d.lost ++ d.discarded, ?_, ?_⟩
  · simp [jobs, waiting, idle]
  · simp [jobs, begin, waiting]

theorem perm_conclude {j : Job} (current : d.current = some j)
    (result : Except RequestFault Gain) (i i' : Intake) :
    ∃ others, d.jobs.Perm (j :: others) ∧
      (d.conclude result i i').jobs.Perm (j.settle result :: others) := by
  classical
  refine ⟨d.waiting ++ d.closed ++ d.lost ++ d.discarded, ?_, ?_⟩
  · rw [jobs, current]
    simp
  · rw [conclude, current, ← List.singleton_append]
    refine List.perm_iff_count.2 fun x => ?_
    dsimp only
    split_ifs <;>
    · simp only [jobs, List.count_append, Option.toList_none, List.count_nil]
      omega

theorem Follows.waits (h : d.Follows maxRetries begun i executed) :
    ∀ j ∈ d.waiting, ∃ a, j.Waits maxRetries a := by
  have waiting : List.Forall₂ (fun j a => (∃ a, Job.Waits maxRetries j a) ∧ j.Waits maxRetries a)
      d.waiting i.actions.items := h.waiting.imp fun j a hj => ⟨⟨a, hj⟩, hj⟩
  exact ((List.forall₂_and_left _ _).1 waiting).1

theorem Follows.works (h : d.Follows maxRetries begun i executed) :
    ∀ j ∈ d.current.toList, ∃ a, j.Works maxRetries a := by
  intro j hj
  have current := h.current
  rw [Option.mem_toList.1 hj] at current
  rcases current with works | _
  exact ⟨_, works⟩

/-- **No job is executed too often.** -/
theorem Follows.bounded (h : d.Follows maxRetries begun i executed) :
    ∀ j ∈ d.jobs, j.Bounded maxRetries := by
  intro j hj
  simp only [jobs, List.mem_append, or_assoc] at hj
  rcases hj with hj | hj | hj | hj | hj
  · obtain ⟨a, waits⟩ := h.waits j hj
    exact waits.bounded
  · obtain ⟨a, works⟩ := h.works j hj
    exact works.bounded
  · obtain ⟨x, ended, -⟩ := h.closed j hj
    exact ended.bounded
  · obtain ⟨x, ended, -⟩ := h.lost j hj
    exact ended.bounded
  · obtain ⟨a, waits | works⟩ := h.discarded j hj
    · exact waits.bounded
    · exact works.bounded

/-- Actions are handed over. -/
theorem Follows.enter (h : d.Follows maxRetries begun i executed) (running : i.isRunning = true)
    {actions : List Action} (takes : i.Takes actions i') :
    (d.enter (actions.take i.room) (actions.drop i.room)).Follows maxRetries begun i' executed := by
  have jobs := d.perm_enter (actions.take i.room) (actions.drop i.room)
  refine ⟨takes.settings ▸ h.settings, ?_, h.current, h.closed, h.lost, h.discarded, ?_, ?_, ?_, ?_⟩
  · rw [takes.items]
    refine List.rel_append h.waiting (List.forall₂_map_left_iff.2 (List.forall₂_same.2 ?_))
    exact fun a _ => ⟨rfl, .entered⟩
  · refine (jobs.flatMap_right _).trans (.trans (.of_eq ?_) h.begun)
    rw [List.flatMap_append, attempts, List.flatMap_map]
    simp [Job.attempts]
  · rw [takes.failures, ← h.failures, trials, (jobs.flatMap_right _).countP_eq, List.flatMap_append,
      List.flatMap_map]
    simp [trials]
  · rw [takes.dropped, ← h.dropped, Docket.enter, List.length_append, Nat.add_right_comm]
  · intro stopped
    cases (takes.isRunning.trans running).symm.trans stopped

/-- The action at the front is executed. -/
theorem Follows.begin (h : d.Follows maxRetries begun i none) {rest : Flow Action}
    (hpop : i.actions.pop? = some (a, rest)) :
    (d.begin a).Follows maxRetries (begun ++ [a]) { i with actions := rest } (some a) := by
  obtain ⟨hitems, -⟩ := Flow.pop?_items hpop
  have idle : d.current = none := by
    rcases hcurrent : d.current with _ | j
    · rfl
    · cases hcurrent ▸ h.current
  -- the job in front is that of the action in front
  have waiting := h.waiting
  rw [hitems] at waiting
  obtain ⟨j, others, front, behind, hwaiting⟩ := List.forall₂_cons_right_iff.1 waiting
  obtain ⟨_, before, after⟩ := perm_begin hwaiting idle a
  have attempts : (d.begin a).attempts.Perm (d.attempts ++ [a]) := by
    refine perm_flatMap_of_replace before after ?_
    rw [Job.attempts, Job.attempts, front.underway]
    exact congrArg (· ++ [a]) (List.append_nil _).symm
  have trials : (d.begin a).trials.Perm (d.trials ++ []) :=
    perm_flatMap_of_replace before after (List.append_nil _).symm
  have hbegin : d.begin a = { d with waiting := others, current := some (j.begin a) } := by
    rw [Docket.begin, hwaiting]
  refine ⟨h.settings, ?_, ?_, ?_, ?_, ?_, attempts.trans (h.begun.append_right [a]), ?_, ?_, ?_⟩
  · exact hbegin ▸ behind
  · exact hbegin ▸ .some front.begin
  · exact hbegin ▸ h.closed
  · exact hbegin ▸ h.lost
  · exact hbegin ▸ h.discarded
  · rw [trials.countP_eq, List.append_nil]
    exact h.failures
  · exact hbegin ▸ h.dropped
  · intro stopped
    cases hitems.symm.trans (h.stopped stopped).1

/-- All that waits is discarded. -/
theorem Follows.clear (h : d.Follows maxRetries begun i executed) :
    d.clear.Follows maxRetries begun { i with isRunning := false, actions := i.actions.clear }
      none := by
  refine ⟨h.settings, .nil, .none, h.closed, h.lost, fun j hj => ?_,
    (d.perm_clear.flatMap_right _).trans h.begun, ?_, h.dropped, fun _ => ⟨rfl, rfl⟩⟩
  · rcases List.mem_append.1 hj with hj | hj
    · rcases List.mem_append.1 hj with hj | hj
      · exact h.discarded j hj
      · obtain ⟨a, waits⟩ := h.waits j hj
        exact ⟨a, .inl waits⟩
    · obtain ⟨a, works⟩ := h.works j hj
      exact ⟨a, .inr works⟩
  · exact ((d.perm_clear.flatMap_right _).countP_eq _).trans h.failures

/-- An engine that was stopped has no action any more. -/
theorem Follows.running (h : d.Follows maxRetries begun i (some a)) : i.isRunning = true := by
  rcases hrunning : i.isRunning with _ | _
  · cases (h.stopped hrunning).2
  · rfl

/-- The action under execution has a job. -/
theorem Follows.exists_current (h : d.Follows maxRetries begun i (some a)) :
    ∃ j, d.current = some j ∧ j.Works maxRetries a := by
  have current := h.current
  rcases hcurrent : d.current with _ | j
  · rw [hcurrent] at current
    cases current
  · rw [hcurrent] at current
    rcases current with works | _
    exact ⟨j, rfl, works⟩

/-- The end of an execution is set down, whatever becomes of its job. -/
theorem Follows.settled (h : d.Follows maxRetries begun i (some a))
    (result : Except RequestFault Gain) (i' : Intake) :
    (d.conclude result i i').attempts.Perm begun ∧
      (d.conclude result i i').trials.countP (Trial.isGivenUp maxRetries) =
        i.failures + [⟨a, result⟩].countP (Trial.isGivenUp maxRetries) := by
  obtain ⟨j, current, works⟩ := h.exists_current
  obtain ⟨_, before, after⟩ := perm_conclude current result i i'
  have attempts : (d.conclude result i i').attempts.Perm (d.attempts ++ []) := by
    refine perm_flatMap_of_replace before after ?_
    rw [Job.attempts, Job.attempts, Job.settle, works.underway]
    simp
  have trials : (d.conclude result i i').trials.Perm (d.trials ++ [⟨a, result⟩]) := by
    refine perm_flatMap_of_replace before after ?_
    rw [Job.settle, works.underway]
    rfl
  rw [List.append_nil] at attempts
  refine ⟨attempts.trans h.begun, ?_⟩
  rw [trials.countP_eq, List.countP_append]
  exact congrArg (· + _) h.failures

/-- The job of an action that is not handed over again is closed. -/
theorem Follows.finish (h : d.Follows maxRetries begun i (some a))
    {result : Except RequestFault Gain}
    (final : result = .error .noReply → maxRetries ≤ a.retries) {n : Nat}
    (counted : n = i.failures + [⟨a, result⟩].countP (Trial.isGivenUp maxRetries)) :
    (d.conclude result i { i with failures := n }).Follows maxRetries begun
      { i with failures := n } none := by
  obtain ⟨j, current, works⟩ := h.exists_current
  obtain ⟨attempts, failures⟩ := h.settled result { i with failures := n }
  have hconclude : d.conclude result i { i with failures := n } =
      { d with current := none, closed := d.closed ++ [j.settle result] } := by
    simp only [Docket.conclude, current, Nat.lt_irrefl, if_false]
  rw [hconclude] at attempts failures ⊢
  refine ⟨h.settings, h.waiting, .none, fun k hk => ?_, h.lost, h.discarded, attempts,
    failures.trans counted.symm, h.dropped, fun stopped => nomatch h.running.symm.trans stopped⟩
  rcases List.mem_append.1 hk with hk | hk
  · exact h.closed k hk
  · rw [List.mem_singleton.1 hk]
    exact ⟨⟨a, result⟩, works.settle result, final⟩

/-- An action that is tried again waits for it, or is lost when the flow is full. -/
theorem Follows.retry (h : d.Follows maxRetries begun i (some a))
    (left : a.retries < maxRetries) :
    (d.conclude (.error .noReply) i (i.hand a.retry)).Follows maxRetries begun (i.hand a.retry)
      none := by
  obtain ⟨j, current, works⟩ := h.exists_current
  obtain ⟨attempts, failures⟩ := h.settled (.error .noReply) (i.hand a.retry)
  obtain ⟨settings, isRunning, -, items, dropped, counted⟩ := Intake.takes_hand h.running a.retry
  have uncounted : [⟨a, .error .noReply⟩].countP (Trial.isGivenUp maxRetries) = 0 := by
    rw [List.countP_singleton]
    exact if_neg (mt Trial.isGivenUp_iff.1 (not_and_of_not_right _ (UInt8.not_le.2 left)))
  rw [uncounted, Nat.add_zero, ← counted] at failures
  -- where the job goes is told by what the flow took and by the counter beside it
  rcases Nat.eq_zero_or_pos i.room with full | room
  · rw [full, List.take_zero, List.append_nil] at items
    rw [full, List.drop_zero, List.length_singleton] at dropped
    have hconclude : d.conclude (.error .noReply) i (i.hand a.retry) =
        { d with current := none, lost := d.lost ++ [j.settle (.error .noReply)] } := by
      simp only [Docket.conclude, current, items, dropped, Nat.lt_irrefl, if_false, Nat.lt_succ_self,
        if_true]
    rw [hconclude] at attempts failures ⊢
    refine ⟨settings ▸ h.settings, items ▸ h.waiting, .none, h.closed, fun k hk => ?_, h.discarded,
      attempts, failures, ?_, fun stopped => nomatch (isRunning.trans h.running).symm.trans stopped⟩
    · rcases List.mem_append.1 hk with hk | hk
      · exact h.lost k hk
      · rw [List.mem_singleton.1 hk]
        exact ⟨_, works.settle _, rfl, left⟩
    · rw [dropped, ← h.dropped, List.length_append, List.length_singleton, Nat.add_assoc]
  · rw [List.take_of_length_le room] at items
    rw [List.drop_of_length_le room] at dropped
    have hconclude : d.conclude (.error .noReply) i (i.hand a.retry) =
        { d with current := none, waiting := d.waiting ++ [j.settle (.error .noReply)] } := by
      simp only [Docket.conclude, current, items, List.length_append, List.length_singleton,
        Nat.lt_succ_self, if_true]
    rw [hconclude] at attempts failures ⊢
    refine ⟨settings ▸ h.settings, ?_, .none, h.closed, h.lost, h.discarded, attempts, failures,
      h.dropped.trans dropped.symm,
      fun stopped => nomatch (isRunning.trans h.running).symm.trans stopped⟩
    rw [items]
    exact List.rel_append h.waiting (.cons (works.again left) .nil)

/-- What becomes of an action is what its last execution came to. -/
theorem Follows.conclude (h : d.Follows maxRetries begun i (some a))
    {result : Except RequestFault Gain} (hi' : i' =
      match result with
      | .error .noReply =>
        if a.retries < i.settings.maxRetries then i.hand a.retry
        else { i with failures := i.failures + 1 }
      | _ => i) :
    (d.conclude result i i').Follows maxRetries begun i' none := by
  rw [h.settings] at hi'
  by_cases timedOut : result = .error .noReply
  · rw [timedOut] at hi' ⊢
    by_cases left : a.retries < maxRetries
    · rw [hi', if_pos left]
      exact h.retry left
    · have exhausted : maxRetries ≤ a.retries := UInt8.not_lt.1 left
      rw [hi', if_neg left]
      refine h.finish (fun _ => exhausted) ?_
      rw [List.countP_singleton]
      exact congrArg (i.failures + ·) (if_pos (decide_eq_true exhausted)).symm
  · -- all other ends are alike
    have hsame : i' = i := by
      rw [hi']
      split
      · exact absurd rfl timedOut
      · rfl
    have counted : i.failures = i.failures + [⟨a, result⟩].countP (Trial.isGivenUp maxRetries) := by
      rw [List.countP_singleton, if_neg (mt Trial.isGivenUp_iff.1 (not_and_of_not_left _ timedOut))]
      rfl
    rw [hsame]
    exact h.finish (absurd · timedOut) counted

variable {e : Engine}

/-- Actions are handed over to the flow. -/
theorem Follows.handed (h : d.Follows maxRetries begun e.intake executed) {m : Move}
    (stop : m ≠ .stop) (execution : m ≠ .advance .execution) :
    (d.follow e m).Follows maxRetries begun (e.step m).intake executed := by
  have hfollow : d.follow e m =
      let entered := (e.step m).actions.items.drop e.actions.items.length
      d.enter entered (if e.isRunning then (e.handed m).drop entered.length else []) := by
    cases m with
    | stop => exact absurd rfl stop
    | advance consumer =>
      cases consumer with
      | execution => exact absurd rfl execution
      | _ => rfl
    | _ => rfl
  have hintake := Engine.intake_step stop execution e
  -- a flow that was stopped takes nothing, and then nothing is counted either
  rcases hrunning : e.isRunning with _ | _
  · rw [Intake.foldl_hand_stopped hrunning] at hintake
    have hactions : (e.step m).actions = e.actions := congrArg Intake.actions hintake
    have hsame : d.follow e m = d := by
      rw [hfollow, hrunning, hactions]
      simp [Docket.enter]
    rw [hsame, hintake]
    exact h
  · have running : e.intake.isRunning = true := hrunning
    have takes := Intake.takes_foldl running (e.handed m)
    rw [← hintake] at takes
    have hentered : (e.step m).actions.items.drop e.actions.items.length =
        (e.handed m).take e.intake.room := by
      rw [show (e.step m).actions.items = _ from takes.items]
      exact List.drop_left
    have hrefused : (e.handed m).drop ((e.handed m).take e.intake.room).length =
        (e.handed m).drop e.intake.room := by
      rw [List.length_take]
      rcases Nat.le_total e.intake.room (e.handed m).length with hle | hle
      · rw [Nat.min_eq_left hle]
      · rw [Nat.min_eq_right hle, List.drop_length, List.drop_of_length_le hle]
    rw [hfollow, hrunning, hentered]
    dsimp only
    rw [if_pos rfl, hrefused]
    exact h.enter running takes

theorem Follows.stop (h : d.Follows maxRetries begun e.intake e.execution.action?) :
    (d.follow e .stop).Follows maxRetries begun e.stop.intake e.stop.execution.action? := by
  rw [Docket.follow]
  rcases hrunning : e.isRunning with _ | _
  · have hstop : e.stop = e.disconnect := by rw [Engine.stop, hrunning]; rfl
    rw [hstop]
    exact h
  · rw [Engine.intake_stop hrunning, Engine.execution_stop hrunning]
    exact h.clear

/-- An execution that goes on, or waits, is no matter of the docket. -/
theorem Follows.goOn (h : d.Follows maxRetries begun e.intake e.execution.action?)
    (busy : e.execution ≠ .idle) (unfinished : ∀ a result, e.execution ≠ .running a (.done result))
    (intake : (e.step (.advance .execution)).intake = e.intake)
    (action : (e.step (.advance .execution)).execution.action? = e.execution.action?) :
    (d.follow e (.advance .execution)).Follows maxRetries
      (begun ++ e.begun (.advance .execution)) (e.step (.advance .execution)).intake
      (e.step (.advance .execution)).execution.action? := by
  have hfollow : d.follow e (.advance .execution) = d := by
    rw [Docket.follow]
    split
    · exact absurd ‹_› busy
    · exact absurd ‹_› (unfinished _ _)
    · rfl
  rw [hfollow, (Engine.passages_eq_hand (.inr busy)).2, List.append_nil, intake, action]
  exact h

theorem Follows.execution (h : d.Follows maxRetries begun e.intake e.execution.action?) :
    (d.follow e (.advance .execution)).Follows maxRetries
      (begun ++ e.begun (.advance .execution)) (e.step (.advance .execution)).intake
      (e.step (.advance .execution)).execution.action? := by
  obtain ⟨e', hnext, executes⟩ | ⟨hsame, waits⟩ := e.executes_or_waits
  case inr =>
    rcases waits with ⟨hexec, -⟩ | ⟨m, hexec⟩ | ⟨node, units, hexec⟩
    · have hbegun : e.begun (.advance .execution) = [] := by
        rw [Engine.begun, hexec, hsame]
        dsimp only
        rw [hexec]
        rfl
      have hfollow : d.follow e (.advance .execution) = d := by
        rw [Docket.follow, hsame, hexec]
        rfl
      rw [hfollow, hbegun, List.append_nil, hsame]
      exact h
    · exact h.goOn (by simp [hexec]) (by simp [hexec]) (by rw [hsame]) (by rw [hsame])
    · exact h.goOn (by simp [hexec]) (by simp [hexec]) (by rw [hsame]) (by rw [hsame])
  · cases executes with
    | @begin a rest hexec hpop =>
      have hbegun : e.begun (.advance .execution) = [a] := by
        rw [Engine.begun, hexec, hnext]
        rfl
      rw [hexec] at h
      rw [Docket.follow, hexec, hbegun, hnext]
      exact h.begin hpop
    | @conclude a result hexec =>
      have hbegun : e.begun (.advance .execution) = [] := by rw [Engine.begun, hexec]
      rw [hexec] at h
      rw [Docket.follow, hexec, hbegun, List.append_nil, hnext, (e.conclude_flows a result).2.2]
      exact h.conclude (e.intake_conclude a result)
    | _ hexec =>
      exact h.goOn (by simp [hexec]) (by simp [hexec]) (by rw [hnext]; rfl)
        (by rw [hnext, hexec]; rfl)

/-- **The docket follows every move.** -/
theorem Follows.follow (h : d.Follows maxRetries begun e.intake e.execution.action?) (m : Move) :
    (d.follow e m).Follows maxRetries (begun ++ e.begun m) (e.step m).intake
      (e.step m).execution.action? := by
  by_cases execution : m = .advance .execution
  · rw [execution]
    exact h.execution
  · rw [(Engine.passages_eq_hand (.inl execution)).2, List.append_nil]
    by_cases stop : m = .stop
    · rw [stop]
      exact h.stop
    · rw [Engine.execution_step stop execution]
      exact h.handed stop execution

theorem Follows.run (h : d.Follows maxRetries begun e.intake e.execution.action?)
    (moves : List Move) :
    (d.run e moves).Follows maxRetries (begun ++ e.begunAll moves) (e.run moves).intake
      (e.run moves).execution.action? := by
  induction moves generalizing d e begun with
  | nil =>
    rw [Engine.begunAll, List.append_nil]
    exact h
  | cons m moves ih =>
    rw [Engine.begunAll, ← List.append_assoc]
    exact ih (h.follow m)

/-- The docket of an engine that did nothing yet. -/
theorem Follows.empty (settings : EngineSettings) (t : Transceiver) :
    Follows settings.maxRetries [] {}
      (Engine.intake { settings := settings, transceiver := t }) none :=
  ⟨rfl, .nil, .none, List.forall_mem_nil _, List.forall_mem_nil _, List.forall_mem_nil _, .nil, rfl,
    rfl, fun _ => ⟨rfl, rfl⟩⟩

/-- What is closed stays so, and what is lost. -/
theorem kept_follow (d : Docket) (e : Engine) (m : Move) :
    d.closed <+: (d.follow e m).closed ∧ d.lost <+: (d.follow e m).lost := by
  have same : d.closed <+: d.closed ∧ d.lost <+: d.lost := ⟨List.prefix_refl _, List.prefix_refl _⟩
  have begin (a : Action) : d.closed <+: (d.begin a).closed ∧ d.lost <+: (d.begin a).lost := by
    rw [Docket.begin]
    split <;> exact same
  have conclude (result : Except RequestFault Gain) (i i' : Intake) :
      d.closed <+: (d.conclude result i i').closed ∧ d.lost <+: (d.conclude result i i').lost := by
    rw [Docket.conclude]
    split
    · exact same
    · dsimp only
      split_ifs
      · exact same
      · exact ⟨same.1, List.prefix_append ..⟩
      · exact ⟨List.prefix_append .., same.2⟩
  cases m with
  | stop =>
    rw [follow]
    split <;> exact same
  | advance consumer =>
    cases consumer with
    | execution =>
      rw [follow]
      split
      · rcases (e.step (.advance .execution)).execution.action? with _ | a
        · exact same
        · exact begin a
      · exact conclude ..
      · exact same
    | _ => exact same
  | _ => exact same

theorem kept_run (d : Docket) (e : Engine) (moves : List Move) :
    d.closed <+: (d.run e moves).closed ∧ d.lost <+: (d.run e moves).lost := by
  induction moves generalizing d e with
  | nil => exact ⟨List.prefix_refl _, List.prefix_refl _⟩
  | cons m moves ih =>
    obtain ⟨closed, lost⟩ := d.kept_follow e m
    obtain ⟨closed', lost'⟩ := ih (d.follow e m) (e.step m)
    exact ⟨closed.trans closed', lost.trans lost'⟩

end Docket

/-- **An action is tried as often as its retries allow, and no more.** The docket has every execution
that began, in the job of the action that entered, and what waits and what is under way is as it says.
In each job the executions are bounded in number, do the same work and follow one another only when
no answer came. A job is closed for good when its last execution got no answer with no retry left, or
ended in any other way, and it is lost when its retry found the flow full. `failures` counts the
executions that got no answer with no retry left, and `dropped` what found the flow full, when it was
handed over first or as a retry. -/
theorem retries_are_bounded (settings : EngineSettings) (t : Transceiver) (moves : List Move) :
    let e₀ : Engine := { settings := settings, transceiver := t }
    let e := e₀.run moves
    let d := Docket.run {} e₀ moves
    let maxRetries := settings.maxRetries
    (∀ j ∈ d.jobs, j.Bounded maxRetries) ∧
    (d.attempts.Perm (e₀.begunAll moves) ∧
      List.Forall₂ (Job.Waits maxRetries) d.waiting e.actions.items ∧
      Option.Rel (Job.Works maxRetries) d.current e.execution.action?) ∧
    (∀ j ∈ d.closed, ∃ x, j.Ended maxRetries x ∧
      (x.result = .error .noReply → maxRetries ≤ x.action.retries)) ∧
    (∀ j ∈ d.lost, ∃ x, j.Ended maxRetries x ∧ x.result = .error .noReply ∧
      x.action.retries < maxRetries) ∧
    d.trials.countP (Trial.isGivenUp maxRetries) = e.failures ∧
    d.refused.length + d.lost.length = e.dropped ∧
    ∀ more, d.closed <+: (d.run e more).closed ∧ d.lost <+: (d.run e more).lost := by
  intro e₀ e d maxRetries
  have follows := (Docket.Follows.empty settings t).run moves
  exact ⟨follows.bounded, ⟨follows.begun, follows.waiting, follows.current⟩, follows.closed,
    follows.lost, follows.failures, follows.dropped, d.kept_run e⟩

/-! ## The end of the count

A read that enters with all retries but one used up, over a link whose other side never answers.
-/

namespace Silent

def poll : Action where
  dataset := 1
  node := 1
  cls := .holdingRegister
  action := .read
  address := 40
  length := 1
  retries := 254

def transceiver : Transceiver where
  settings := { framing := .bridge, endpoint := .tcp "bus" 502 }
  line := some { writes := [.taken [], .taken []] }
  state := .connected

def engine : Engine := { settings := { maxRetries := 255 }, transceiver := transceiver }

def moves : List Move :=
  [.addNode 1 ⟨⟨17⟩, .standard⟩, .submit poll] ++ List.replicate 8 (.advance .execution)

example : (Docket.run {} engine moves).attempts.map Action.retries = [254, 255] ∧
    (engine.run moves).failures = 1 := by decide +kernel

end Silent

end BusMaster
