import BusMaster.Engine.Execution

/-!
# Jobs

An action that got no answer is handed over again as an action of its own (`Action.retry`), and only
its count of retries tells how often it was tried before. A job is an action together with all its
executions. An execution leads to another one only if it got no answer and had a retry left (`Leads`),
and each one counts up by one, so there are only so many (`Job.Bounded`). That is so at both ends of
the count: what comes with all retries used up is tried once, and no count runs over.
-/

namespace BusMaster

/-! ## Actions that are tried again -/

namespace Action

/-- The count goes up by one, if there was a retry left. -/
theorem retry_retries {maxRetries : UInt8} {a : Action} (h : a.retries < maxRetries) :
    a.retry.retries.toNat = a.retries.toNat + 1 := by
  have hlt := UInt8.lt_iff_toNat_lt.1 h
  have hmax := maxRetries.toNat_lt
  have hne : a.retries ≠ 255 := by
    intro heq
    rw [heq] at hlt
    change 255 < maxRetries.toNat at hlt
    omega
  rw [retry, if_neg hne, UInt8.toNat_add]
  change (a.retries.toNat + 1) % 256 = _
  omega

/-- the action with another count of retries, and repeated by the policy only if it was never tried -/
def again (a : Action) (n : Nat) (retries : UInt8) : Action :=
  { a with repeats := if n = 0 then a.repeats else .once, retries := retries }

end Action

/-- an execution that came to its end -/
structure Trial where
  action : Action
  result : Except RequestFault Gain

/-- no answer came, and no retry was left -/
def Trial.isGivenUp (maxRetries : UInt8) : Trial → Bool
  | ⟨a, .error .noReply⟩ => decide (maxRetries ≤ a.retries)
  | _ => false

theorem Trial.isGivenUp_iff {maxRetries : UInt8} {x : Trial} :
    x.isGivenUp maxRetries = true ↔
      x.result = .error .noReply ∧ maxRetries ≤ x.action.retries := by
  rcases x with ⟨a, fault | gain⟩
  · cases fault <;> simp [isGivenUp]
  · simp [isGivenUp]

/-- The executions so far of an action that entered, all without an answer, lead to this one. -/
inductive Leads (maxRetries : UInt8) (entered : Action) : List Trial → Action → Prop where
  | entered : Leads maxRetries entered [] entered
  | again {past : List Trial} {a : Action} : Leads maxRetries entered past a →
      a.retries < maxRetries →
      Leads maxRetries entered (past ++ [⟨a, .error .noReply⟩]) a.retry

namespace Leads

variable {maxRetries : UInt8} {first a : Action} {past : List Trial}

theorem retries (h : Leads maxRetries first past a) :
    a.retries.toNat = first.retries.toNat + past.length := by
  induction h with
  | entered => rfl
  | again _ left ih =>
    rw [Action.retry_retries left, ih, List.length_append, List.length_singleton, Nat.add_assoc]

/-- The execution before this one had a retry left. -/
theorem bound (h : Leads maxRetries first past a) (later : 0 < past.length) :
    first.retries.toNat + past.length ≤ maxRetries.toNat := by
  cases h with
  | entered => cases later
  | again earlier left =>
    -- its count was below the limit, and it says how many there had been
    have hlt := UInt8.lt_iff_toNat_lt.1 left
    rw [earlier.retries] at hlt
    rw [List.length_append, List.length_singleton]
    exact hlt

/-- It is the same work, but that it does not repeat. -/
theorem eq_again (h : Leads maxRetries first past a) : a = first.again past.length a.retries := by
  induction h with
  | entered => rfl
  | @again past a _ _ ih =>
    rw [List.length_append, List.length_singleton, Action.again, if_neg (Nat.succ_ne_zero _)]
    exact congrArg (fun b : Action =>
      { b with repeats := .once, retries := a.retry.retries }) ih

theorem timedOut (h : Leads maxRetries first past a) :
    ∀ x ∈ past, x.result = .error .noReply ∧ x.action.retries < maxRetries := by
  induction h with
  | entered => exact List.forall_mem_nil _
  | again _ left ih =>
    intro x hx
    rcases List.mem_append.1 hx with hx | hx
    · exact ih x hx
    · rw [List.mem_singleton.1 hx]
      exact ⟨rfl, left⟩

/-- Each execution was led to by those before it. -/
theorem getElem? (h : Leads maxRetries first past a) {i : Nat} {b : Action}
    (hb : (past.map Trial.action ++ [a])[i]? = some b) :
    Leads maxRetries first (past.take i) b := by
  induction h with
  | entered =>
    cases i with
    | zero =>
      obtain rfl := Option.some.inj hb
      exact .entered
    | succ i => cases hb
  | @again past a earlier left ih =>
    rw [List.map_append] at hb
    have hlast : (past.map Trial.action ++ [a]).length = past.length + 1 := by
      rw [List.length_append, List.length_map, List.length_singleton]
    -- all but the last one are executions that led to `a`
    rcases Nat.lt_or_ge i (past.length + 1) with hi | hi
    · rw [List.take_append_of_le_length (Nat.le_of_lt_succ hi)]
      exact ih ((List.getElem?_append_left (hlast ▸ hi)).symm.trans hb)
    · have hwhole : (past ++ [(⟨a, .error .noReply⟩ : Trial)]).length ≤ i := by
        rw [List.length_append, List.length_singleton]
        exact hi
      rw [List.take_of_length_le hwhole]
      have hend : (past.map Trial.action ++ [a] ++ [a.retry])[i]? = some b := hb
      rw [List.getElem?_append_right (hlast ▸ hi), hlast] at hend
      obtain ⟨_, heq⟩ := List.getElem?_eq_some_iff.1 hend
      rw [List.getElem_singleton] at heq
      exact heq ▸ .again earlier left

end Leads

/-! ## Jobs -/

/-- what became of an action that entered its flow -/
structure Job where
  entered : Action
  /-- the executions that came to their end, in order -/
  trials : List Trial := []
  /-- the one that is under way -/
  underway : Option Action := none

namespace Job

/-- the actions that were executed for it, in order -/
def attempts (j : Job) : List Action := j.trials.map Trial.action ++ j.underway.toList

/-- an execution begins -/
def begin (j : Job) (a : Action) : Job := { j with underway := some a }

/-- the execution under way came to its end -/
def settle (j : Job) (result : Except RequestFault Gain) : Job :=
  { j with trials := j.trials ++ j.underway.toList.map (⟨·, result⟩), underway := none }

/-- The executions of a job are as many as its retries allow. They are the same work from the second
one on, do not repeat, and each one followed an execution that got no answer. -/
structure Bounded (maxRetries : UInt8) (j : Job) : Prop where
  length : j.attempts.length ≤ max 1 (maxRetries.toNat + 1 - j.entered.retries.toNat)
  same : ∀ i a, j.attempts[i]? = some a → a = j.entered.again i a.retries
  retries : ∀ i a, j.attempts[i]? = some a → a.retries.toNat = j.entered.retries.toNat + i
  timedOut : ∀ i, i + 1 < j.attempts.length →
    ∃ x, j.trials[i]? = some x ∧ x.result = .error .noReply ∧ x.action.retries < maxRetries

/-- an execution waits -/
structure Waits (maxRetries : UInt8) (j : Job) (a : Action) : Prop where
  underway : j.underway = none
  leads : Leads maxRetries j.entered j.trials a

/-- an execution is under way -/
structure Works (maxRetries : UInt8) (j : Job) (a : Action) : Prop where
  underway : j.underway = some a
  leads : Leads maxRetries j.entered j.trials a

/-- the last execution came to its end -/
structure Ended (maxRetries : UInt8) (j : Job) (x : Trial) : Prop where
  underway : j.underway = none
  leads : ∃ past, j.trials = past ++ [x] ∧ Leads maxRetries j.entered past x.action

variable {maxRetries : UInt8} {j : Job} {a : Action}

theorem bounded_of_leads {past : List Trial} (h : Leads maxRetries j.entered past a)
    (trials : past <+: j.trials) (attempts : j.attempts <+: past.map Trial.action ++ [a]) :
    j.Bounded maxRetries := by
  have hlength := attempts.length_le
  rw [List.length_append, List.length_map, List.length_singleton] at hlength
  have led {i : Nat} {b : Action} (hb : j.attempts[i]? = some b) :
      Leads maxRetries j.entered (past.take i) b ∧ (past.take i).length = i := by
    obtain ⟨hi, rfl⟩ := List.getElem?_eq_some_iff.1 hb
    refine ⟨h.getElem? (List.prefix_iff_getElem?.1 attempts i hi), ?_⟩
    rw [List.length_take]
    omega
  refine ⟨?_, fun i b hb => ?_, fun i b hb => ?_, fun i hi => ?_⟩
  · rcases Nat.eq_zero_or_pos past.length with hpast | hpast
    · -- the first one is never too many, even with all retries used up
      omega
    · have hbound := h.bound hpast
      omega
  · obtain ⟨leads, htake⟩ := led hb
    exact htake ▸ leads.eq_again
  · obtain ⟨leads, htake⟩ := led hb
    exact htake ▸ leads.retries
  · have hlt : i < past.length := by omega
    exact ⟨past[i], List.prefix_iff_getElem?.1 trials i hlt, h.timedOut _ (List.getElem_mem hlt)⟩

theorem Waits.bounded (h : j.Waits maxRetries a) : j.Bounded maxRetries := by
  refine bounded_of_leads h.leads (List.prefix_refl _) ?_
  rw [attempts, h.underway, Option.toList_none, List.append_nil]
  exact List.prefix_append ..

theorem Works.bounded (h : j.Works maxRetries a) : j.Bounded maxRetries := by
  refine bounded_of_leads h.leads (List.prefix_refl _) ?_
  rw [attempts, h.underway]
  exact List.prefix_refl _

theorem Ended.bounded {x : Trial} (h : j.Ended maxRetries x) : j.Bounded maxRetries := by
  obtain ⟨past, htrials, leads⟩ := h.leads
  refine bounded_of_leads leads (htrials ▸ List.prefix_append ..) ?_
  rw [attempts, htrials, h.underway, List.map_append]
  exact (List.append_nil _) ▸ List.prefix_refl _

/-- An execution waits to begin. -/
theorem Waits.begin (h : j.Waits maxRetries a) : (j.begin a).Works maxRetries a := ⟨rfl, h.leads⟩

/-- An execution under way comes to its end. -/
theorem Works.settle (h : j.Works maxRetries a) (result : Except RequestFault Gain) :
    (j.settle result).Ended maxRetries ⟨a, result⟩ := by
  refine ⟨rfl, j.trials, ?_, h.leads⟩
  rw [Job.settle, h.underway]
  rfl

/-- An execution that got no answer leads to another one. -/
theorem Works.again (h : j.Works maxRetries a) (left : a.retries < maxRetries) :
    (j.settle (.error .noReply)).Waits maxRetries a.retry := by
  refine ⟨rfl, ?_⟩
  rw [Job.settle, h.underway]
  exact .again h.leads left

end Job

end BusMaster
