import BusMaster.Proofs.Engine.Ledger

/-!
# The order of writes

Writes wait in the order they were taken, their actions enter their flow in that order, and the flow
is worked off from its front. Only a retry leaves its place, and goes behind everything that was
accepted meanwhile. `Ledger.InOrder` says this of a ledger, each thing the ledger sets down keeps it,
and so it holds after every run (`Ledger.InOrder.run`).
-/

namespace BusMaster

namespace Ledger

/-- the write under execution and those that wait for it -/
def line (l : Ledger) : List (Option Nat) := l.current :: l.actions

/-- write `j` stands before write `i` -/
def Before (line : List (Option Nat)) (j i : Nat) : Prop := [some j, some i].Sublist line

theorem Before.right_mem {line : List (Option Nat)} {i j : Nat} (h : Before line j i) :
    some i ∈ line :=
  h.subset (by simp)

/-- A write that was put behind others is behind them. -/
theorem before_append {line more : List (Option Nat)} {i j : Nat} (h : Before (line ++ more) j i) :
    Before line j i ∨ some i ∈ more := by
  obtain ⟨first, second, hsplit, hfirst, hsecond⟩ := List.sublist_append_iff.1 h
  match first, hsplit with
  | [], hsplit =>
    obtain rfl : second = [some j, some i] := hsplit.symm
    exact .inr (hsecond.subset (by simp))
  | [x], hsplit =>
    obtain ⟨-, rfl⟩ := List.cons.inj hsplit
    exact .inr (hsecond.subset (List.mem_singleton_self _))
  | [x, y], hsplit =>
    obtain ⟨rfl, hrest⟩ := List.cons.inj hsplit
    obtain ⟨rfl, -⟩ := List.cons.inj hrest
    exact .inl hfirst
  | x :: y :: z :: rest, hsplit => simp at hsplit

theorem Before.left_mem {line : List (Option Nat)} {i j : Nat} (h : Before line j i) :
    some j ∈ line :=
  h.subset (by simp)

/-- An event is one of the events before, or one of those that were added. -/
theorem split_append {events more before after : List WriteEvent} {x : WriteEvent}
    (h : events ++ more = before ++ x :: after) :
    (∃ after', events = before ++ x :: after') ∨
      ∃ between, before = events ++ between ∧ more = between ++ x :: after := by
  rcases List.append_eq_append_iff.1 h with ⟨between, hbefore, hmore⟩ | ⟨rest, hevents, hrest⟩
  · exact .inr ⟨between, hbefore, hmore⟩
  · cases rest with
    | nil => exact .inr ⟨[], by simpa using hevents.symm, by simpa using hrest.symm⟩
    | cons y rest =>
      obtain ⟨rfl, -⟩ := List.cons.inj hrest
      exact .inl ⟨rest, hevents⟩

/-- Events of one step leave the others as they were. -/
theorem happened_of_append {events more : List WriteEvent} {step added : WriteStep} {n : Nat}
    (hmore : ∀ x ∈ more, x.step = added) (other : step ≠ added)
    (h : Happened (events ++ more) step n) : Happened events step n := by
  refine (happened_append_iff.1 h).resolve_right ?_
  rintro ⟨x, hx, hstep, -⟩
  exact other (hstep.symm.trans (hmore x hx))

/-- the writes that were not looked at yet, the next one to be taken among them -/
def coming (l : Ledger) : List Nat := l.states ++ [l.writes.length]

/-- What the ledger knows of the order of writes. -/
structure InOrder (l : Ledger) : Prop where
  /-- those that are to come are in the order they are taken -/
  waiting : l.coming.Pairwise (· < ·)
  /-- those that were accepted are older than those to come -/
  older : ∀ n, Happened l.events .accepted n → ∀ k ∈ l.coming, n < k
  /-- an action that carries a write was accepted -/
  known : ∀ n, some n ∈ l.line → Happened l.events .accepted n
  answered : ∀ n, Happened l.events .answered n → Happened l.events .accepted n
  /-- a write stands behind a newer one only after a retry -/
  stands : ∀ i j, i < j → Before l.line j i → RequeuedAfter l.events i j
  /-- a write waits on after the answer to a newer one only after a retry -/
  waits : ∀ i j, i < j → Happened l.events .answered j → some i ∈ l.line →
    RequeuedAfter l.events i j
  /-- a write goes out, or is answered, after the answer to a newer one only after a retry -/
  history : ∀ i j, i < j → ∀ before x after, l.events = before ++ x :: after →
    x.write = i → x.step = .sent ∨ x.step = .answered → Happened before .answered j →
      RequeuedAfter before i j

theorem InOrder.empty : InOrder {} where
  waiting := by simp [coming]
  older n h := by
    obtain ⟨x, hx, -⟩ := h
    cases hx
  known n h := by
    rw [line, List.mem_singleton] at h
    cases h
  answered n h := by
    obtain ⟨x, hx, -⟩ := h
    cases hx
  stands i j _ h := by
    have hlength := h.length_le
    simp [line] at hlength
  waits i j _ h := by
    obtain ⟨x, hx, -⟩ := h
    cases hx
  history i j _ before x after h := by
    cases before <;> cases h

variable {l : Ledger}

/-- The order in which requests went out and were answered does not change by other events. -/
theorem InOrder.history_append (h : l.InOrder) {more : List WriteEvent} {added : WriteStep}
    (hmore : ∀ x ∈ more, x.step = added) (other : added ≠ .sent ∧ added ≠ .answered) :
    ∀ i j, i < j → ∀ before x after, l.events ++ more = before ++ x :: after →
      x.write = i → x.step = .sent ∨ x.step = .answered → Happened before .answered j →
        RequeuedAfter before i j := by
  intro i j hij before x after hsplit hi hx ha
  rcases split_append hsplit with ⟨after', hold⟩ | ⟨between, -, hnew⟩
  · exact h.history i j hij before x after' hold hi hx ha
  · have hx' := hmore x (hnew ▸ List.mem_append_right _ (List.mem_cons_self ..))
    rw [hx'] at hx
    rcases hx with hx | hx
    · exact absurd hx other.1
    · exact absurd hx other.2

theorem InOrder.take (h : l.InOrder) (s : State) : (l.take s).InOrder := by
  have hlast : ∀ k ∈ l.coming, k ≤ l.writes.length := by
    intro k hk
    rcases List.mem_append.1 hk with hk | hk
    · exact Nat.le_of_lt ((List.pairwise_append.1 h.waiting).2.2 k hk _ (List.mem_singleton_self _))
    · exact Nat.le_of_eq (List.mem_singleton.1 hk)
  have hcoming : (l.take s).coming = l.coming ++ [l.writes.length + 1] := by
    simp [coming, Ledger.take]
  refine ⟨?_, fun n hn k hk => ?_, h.known, h.answered, h.stands, h.waits, h.history⟩
  · rw [hcoming]
    refine List.pairwise_append.2 ⟨h.waiting, List.pairwise_singleton .., fun k hk k' hk' => ?_⟩
    rw [List.mem_singleton.1 hk']
    exact Nat.lt_succ_of_le (hlast k hk)
  · -- the number that was to come next is the newest so far
    have hn' : n < l.writes.length :=
      h.older n hn _ (List.mem_append_right _ (List.mem_singleton_self _))
    rw [hcoming] at hk
    rcases List.mem_append.1 hk with hk | hk
    · exact h.older n hn k hk
    · rw [List.mem_singleton.1 hk]
      exact Nat.lt_succ_of_lt hn'

theorem InOrder.clear (h : l.InOrder) : l.clear.InOrder := by
  have hline : ∀ {n : Nat}, some n ∉ l.clear.line := by simp [line, Ledger.clear]
  refine ⟨List.pairwise_singleton .., fun n hn k hk => ?_, fun n hn => absurd hn hline, h.answered,
    fun i j _ hb => absurd hb.right_mem hline, fun i j _ _ hi => absurd hi hline, h.history⟩
  exact h.older n hn k (List.mem_append_right _ hk)

/-- What enters with no write changes nothing. -/
theorem InOrder.enter (h : l.InOrder) (entered : List Action) : (l.enter entered).InOrder := by
  have hline : (l.enter entered).line = l.line ++ entered.map fun _ => none := rfl
  have hold : ∀ {n : Nat}, some n ∈ (l.enter entered).line → some n ∈ l.line := by
    intro n hn
    rw [hline, List.mem_append] at hn
    exact hn.resolve_right (by simp)
  refine ⟨h.waiting, h.older, fun n hn => h.known n (hold hn), h.answered, fun i j hij hb => ?_,
    fun i j hij ha hi => h.waits i j hij ha (hold hi), h.history⟩
  rw [hline] at hb
  exact h.stands i j hij ((before_append hb).resolve_right (by simp))

/-- An action leaves its flow at the front. -/
theorem InOrder.begin (h : l.InOrder) : l.begin.InOrder := by
  rw [Ledger.begin]
  split
  · exact h
  rename_i n rest hactions
  have hline : ({ l with actions := rest, current := n } : Ledger).line.Sublist l.line := by
    rw [line, line, hactions]
    exact List.sublist_cons_self ..
  exact ⟨h.waiting, h.older, fun n hn => h.known n (hline.subset hn), h.answered,
    fun i j hij hb => h.stands i j hij (List.Sublist.trans hb hline),
    fun i j hij ha hi => h.waits i j hij ha (hline.subset hi), h.history⟩

/-- A request of the action under execution goes out, or the action ends well. -/
theorem InOrder.about (h : l.InOrder) {step : WriteStep} (a : Action)
    (hstep : step = .sent ∨ step = .answered) : (l.about step a).InOrder := by
  rcases hcurrent : l.current with _ | n
  · have hsame : l.about step a = l := by
      rw [Ledger.about, hcurrent, Option.toList_none, List.map_nil, List.append_nil, ← hcurrent]
    rw [hsame]
    exact h
  have hevents : (l.about step a).events = l.events ++ [⟨step, n, a⟩] := by
    simp [Ledger.about, hcurrent]
  have hfront : some n ∈ l.line := by
    rw [line, hcurrent]
    exact List.mem_cons_self ..
  -- the new event tells of no acceptance
  have haccepted : ∀ {k : Nat}, Happened (l.about step a).events .accepted k →
      Happened l.events .accepted k := by
    intro k hk
    rw [hevents] at hk
    have hadded : ∀ x ∈ [WriteEvent.mk step n a], x.step = step := fun x hx =>
      congrArg WriteEvent.step (List.mem_singleton.1 hx)
    refine happened_of_append hadded ?_ hk
    rcases hstep with rfl | rfl <;> decide
  refine ⟨h.waiting, fun k hk => h.older k (haccepted hk), fun k hk => ?_, fun k hk => ?_,
    fun i j hij hb => ?_, fun i j hij ha hi => ?_, fun i j hij before x after hsplit hi hx ha => ?_⟩
  · rw [hevents]
    exact (h.known k hk).append _
  · rw [hevents] at hk ⊢
    rcases happened_append_iff.1 hk with hk | ⟨x, hx, -, rfl⟩
    · exact (h.answered k hk).append _
    · obtain rfl := List.mem_singleton.1 hx
      exact (h.known n hfront).append _
  · rw [hevents]
    exact (h.stands i j hij hb).append _
  · rw [hevents] at ha ⊢
    rcases happened_append_iff.1 ha with ha | ⟨x, hx, -, rfl⟩
    · exact (h.waits i j hij ha hi).append _
    · -- the write just answered is at the front, so the older one stands behind it
      obtain rfl := List.mem_singleton.1 hx
      change i < n at hij
      refine (h.stands i n hij ?_).append _
      have hi' : some i ∈ l.actions := by
        change some i ∈ l.line at hi
        rw [line, hcurrent, List.mem_cons] at hi
        exact hi.resolve_left fun heq => Nat.ne_of_lt hij (Option.some.inj heq)
      rw [Before, line, hcurrent]
      exact (List.singleton_sublist.2 hi').cons_cons _
  · rw [hevents] at hsplit
    rcases split_append hsplit with ⟨after', hold⟩ | ⟨between, rfl, hnew⟩
    · exact h.history i j hij before x after' hold hi hx ha
    · cases between with
      | cons y rest => simp at hnew
      | nil =>
        obtain ⟨rfl, -⟩ := List.cons.inj hnew
        rw [List.append_nil] at ha ⊢
        exact h.waits i j hij ha (hi ▸ hfront)

/-- The action under execution comes to its end. When it enters its flow again, it stands behind all
that were accepted before. -/
theorem InOrder.conclude (h : l.InOrder) (entered : List Action) : (l.conclude entered).InOrder := by
  set more := l.current.toList.flatMap fun n => entered.map (WriteEvent.mk .requeued n ·) with hmore
  have hevents : (l.conclude entered).events = l.events ++ more := rfl
  have hline : (l.conclude entered).line
      = none :: (l.actions ++ entered.map fun _ => l.current) := rfl
  have hrequeued : ∀ x ∈ more, x.step = .requeued := by
    intro x hx
    obtain ⟨n, -, hx⟩ := List.mem_flatMap.1 hx
    obtain ⟨a, -, rfl⟩ := List.mem_map.1 hx
    rfl
  have hold : ∀ {step : WriteStep} {n : Nat}, step ≠ .requeued →
      Happened (l.conclude entered).events step n → Happened l.events step n := by
    intro step n hstep hn
    rw [hevents] at hn
    exact happened_of_append hrequeued hstep hn
  have hin : ∀ {n : Nat}, some n ∈ (l.conclude entered).line → some n ∈ l.line := by
    intro n hn
    rw [hline, List.mem_cons, List.mem_append] at hn
    rcases hn with hn | hn | hn
    · cases hn
    · exact List.mem_cons_of_mem _ hn
    · obtain ⟨a, -, ha⟩ := List.mem_map.1 hn
      rw [line, ha]
      exact List.mem_cons_self ..
  refine ⟨h.waiting, fun n hn => h.older n (hold (by decide) hn), fun n hn => ?_, fun n hn => ?_,
    fun i j hij hb => ?_, fun i j hij ha hi => ?_, h.history_append hrequeued (by decide)⟩
  · rw [hevents]
    exact (h.known n (hin hn)).append _
  · rw [hevents]
    exact (h.answered n (hold (by decide) hn)).append _
  · have hj := h.known j (hin hb.left_mem)
    rw [Before, hline, List.sublist_cons_iff] at hb
    rw [hevents]
    rcases hb with hb | ⟨rest, hrest, -⟩
    · rcases before_append hb with hb | hi
      · exact (h.stands i j hij (hb.cons _)).append _
      · -- only the action under execution enters
        obtain ⟨a, ha, hi⟩ := List.mem_map.1 hi
        refine requeuedAfter_append hj ⟨⟨.requeued, i, a⟩, ?_, rfl, rfl⟩
        rw [hmore, hi]
        simpa using ha
    · cases (List.cons.inj hrest).1
  · rw [hevents]
    exact (h.waits i j hij (hold (by decide) ha) (hin hi)).append _

/-- A write becomes an action. -/
theorem InOrder.compose (h : l.InOrder) (entered : List Action) : (l.compose entered).InOrder := by
  rw [Ledger.compose]
  split
  · exact h
  rename_i n rest hstates
  set composed : Ledger := { l with
    states := rest
    actions := l.actions ++ entered.map fun _ => some n
    events := l.events ++ entered.map (⟨.accepted, n, ·⟩) }
  have hevents : composed.events = l.events ++ entered.map (WriteEvent.mk .accepted n ·) := rfl
  have hline : composed.line = l.line ++ entered.map fun _ => some n := rfl
  have hcoming : l.coming = n :: composed.coming := by
    rw [coming, hstates]
    rfl
  have hnewest : ∀ k ∈ composed.coming, n < k := by
    have hw := h.waiting
    rw [hcoming] at hw
    exact (List.pairwise_cons.1 hw).1
  have hbefore : ∀ {k : Nat}, Happened l.events .accepted k → k < n := fun hk =>
    h.older _ hk n (hcoming ▸ List.mem_cons_self ..)
  have haccepted : ∀ x ∈ entered.map (WriteEvent.mk .accepted n ·), x.step = .accepted := by
    intro x hx
    obtain ⟨a, -, rfl⟩ := List.mem_map.1 hx
    rfl
  have hold : ∀ {step : WriteStep} {k : Nat}, step ≠ .accepted →
      Happened composed.events step k → Happened l.events step k := by
    intro step k hstep hk
    rw [hevents] at hk
    exact happened_of_append haccepted hstep hk
  have hnew : ∀ {k : Nat}, some k ∈ (entered.map fun _ => some n) → k = n := by
    intro k hk
    obtain ⟨a, -, ha⟩ := List.mem_map.1 hk
    exact (Option.some.inj ha).symm
  refine ⟨?_, fun k hk k' hk' => ?_, fun k hk => ?_, fun k hk => ?_, fun i j hij hb => ?_,
    fun i j hij ha hi => ?_, h.history_append haccepted (by decide)⟩
  · have hw := h.waiting
    rw [hcoming] at hw
    exact (List.pairwise_cons.1 hw).2
  · rw [hevents] at hk
    rcases happened_append_iff.1 hk with hk | ⟨x, hx, -, rfl⟩
    · exact h.older k hk k' (hcoming ▸ List.mem_cons_of_mem _ hk')
    · obtain ⟨a, -, rfl⟩ := List.mem_map.1 hx
      exact hnewest k' hk'
  · rw [hline, List.mem_append] at hk
    rw [hevents]
    rcases hk with hk | hk
    · exact (h.known k hk).append _
    · obtain ⟨a, ha, hk⟩ := List.mem_map.1 hk
      refine happened_append_iff.2 (.inr ⟨⟨.accepted, n, a⟩, ?_, rfl, Option.some.inj hk⟩)
      exact List.mem_map_of_mem ha
  · rw [hevents]
    exact (h.answered k (hold (by decide) hk)).append _
  · rw [hevents]
    rcases before_append (hline ▸ hb) with hb' | hi
    · exact (h.stands i j hij hb').append _
    · -- the write accepted now is the newest
      obtain rfl := hnew hi
      have hj := hb.left_mem
      rw [hline, List.mem_append] at hj
      rcases hj with hj | hj
      · exact absurd (hbefore (h.known j hj)) (Nat.lt_asymm hij)
      · exact absurd (hnew hj) (Nat.ne_of_gt hij)
  · rw [hevents]
    have ha' := hold (by decide) ha
    rw [hline, List.mem_append] at hi
    rcases hi with hi | hi
    · exact (h.waits i j hij ha' hi).append _
    · obtain rfl := hnew hi
      exact absurd (hbefore (h.answered j ha')) (Nat.lt_asymm hij)

/-- A move of the engine keeps the order. -/
theorem InOrder.follow (h : l.InOrder) (e : Engine) (m : Move) : (l.follow e m).InOrder := by
  unfold Ledger.follow
  dsimp only
  split
  · split
    · exact h.take _
    · exact h
  · split
    · exact h.clear
    · exact h
  · exact h.compose _
  · rw [followExecution]
    split
    · exact h.begin
    · exact h.conclude _
    · split
      · exact h
      · exact h.about _ (.inl rfl)
    · split
      · exact h.about _ (.inr rfl)
      · exact h
    · exact h
  · exact h.enter _

/-- **Writes keep their order, but for retries, in every run.** -/
theorem InOrder.run (h : l.InOrder) (e : Engine) (moves : List Move) : (l.run e moves).InOrder := by
  induction moves generalizing l e with
  | nil => exact h
  | cons m moves ih => exact ih (h.follow e m) (e.step m)

end Ledger

end BusMaster
