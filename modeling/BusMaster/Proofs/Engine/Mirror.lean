import Mathlib.Data.List.Forall2
import BusMaster.Proofs.Engine.Flows
import BusMaster.Proofs.Engine.Ledger
import BusMaster.Proofs.Plant.Placement

/-!
# What the ledger says is so

The ledger of a run mirrors the engine (`Ledger.Mirrors`): what waits in the flow of states are the
writes it has numbered, and an action that it says carries a write is the action the catalog gave for
that write, tried again a few times at most (`Action.Carries`). So an event of the ledger is about
the request it seems to be about.
-/

namespace BusMaster

/-! ## Actions that carry a write -/

/-- the action is the one that a catalog gave for the state, but for its retries -/
def Action.Carries (a : Action) (s : State) : Prop :=
  ∃ c : Catalog, c.buildWrite s = .ok { a with retries := 0 }

theorem Catalog.buildWrite_once {c : Catalog} {s : State} {a : Action}
    (h : c.buildWrite s = .ok a) : a.retries = 0 ∧ a.repeats = .once := by
  obtain ⟨e, entry, field, -, -, -, -, placed⟩ := buildWrite_eq_ok h
  cases placed <;> exact ⟨rfl, rfl⟩

theorem Action.carries_of_buildWrite {c : Catalog} {s : State} {a : Action}
    (h : c.buildWrite s = .ok a) : a.Carries s := by
  obtain ⟨hretries, -⟩ := Catalog.buildWrite_once h
  refine ⟨c, h.trans (congrArg Except.ok ?_)⟩
  cases a
  cases hretries
  rfl

/-- A retry carries what was tried before. -/
theorem Action.Carries.retry {a : Action} {s : State} (h : a.Carries s) : a.retry.Carries s := by
  obtain ⟨c, hc⟩ := h
  have honce : a.repeats = .once := (Catalog.buildWrite_once hc).2
  refine ⟨c, hc.trans (congrArg Except.ok ?_)⟩
  cases a
  cases honce
  rfl

/-! ## The mirror -/

namespace Ledger

/-- the action carries write `n` -/
def Carried (l : Ledger) (n : Nat) (a : Action) : Prop := ∃ s, l.writes[n]? = some s ∧ a.Carries s

/-- The ledger says what is so. -/
structure Mirrors (l : Ledger) (e : Engine) : Prop where
  states : l.states.map (l.writes[·]?) = e.states.items.map some
  actions : List.Forall₂ (fun o a => ∀ n, o = some n → l.Carried n a) l.actions e.actions.items
  current : ∀ n a, l.current = some n → e.execution.action? = some a → l.Carried n a
  events : ∀ x ∈ l.events, l.Carried x.write x.action

variable {l : Ledger} {e e' : Engine}

/-- what entered the flow of actions in a step that took nothing out of it -/
theorem drop_items {new : List Action} (h : e'.actions.items = e.actions.items ++ new) :
    e'.actions.items.drop e.actions.items.length = new := by
  rw [h, List.drop_left]

/-- Actions that enter at the end are told apart like those before. -/
theorem Mirrors.append (h : l.Mirrors e) {new : List Action} {o : Option Nat}
    (hnew : ∀ a ∈ new, ∀ n, o = some n → l.Carried n a) :
    List.Forall₂ (fun o a => ∀ n, o = some n → l.Carried n a) (l.actions ++ new.map fun _ => o)
      (e.actions.items ++ new) :=
  List.rel_append h.actions (List.forall₂_map_left_iff.2 (List.forall₂_same.2 hnew))

theorem Mirrors.enter (h : l.Mirrors e) (appends : Engine.Appends e e') :
    (l.enter (e'.actions.items.drop e.actions.items.length)).Mirrors e' := by
  obtain ⟨new, hnew⟩ := appends.actions
  rw [drop_items hnew]
  refine ⟨?_, ?_, fun n a hn ha => ?_, h.events⟩
  · rw [appends.states]
    exact h.states
  · rw [hnew]
    exact h.append fun a _ n hn => nomatch hn
  · rw [appends.execution] at ha
    exact h.current n a hn ha

/-- A write keeps its state when more are taken. -/
theorem Carried.take {n : Nat} {a : Action} (h : l.Carried n a) (s : State) :
    (l.take s).Carried n a := by
  obtain ⟨t, ht, ha⟩ := h
  refine ⟨t, ?_, ha⟩
  rw [← ht]
  exact List.getElem?_append_left (List.getElem?_eq_some_iff.1 ht).1

theorem Mirrors.take (h : l.Mirrors e) {s : State} (states : e'.states.items = e.states.items ++ [s])
    (actions : e'.actions = e.actions) (execution : e'.execution = e.execution) :
    (l.take s).Mirrors e' := by
  refine ⟨?_, ?_, fun n a hn ha => ?_, fun x hx => (h.events x hx).take s⟩
  · have hold : l.states.map ((l.writes ++ [s])[·]?) = l.states.map (l.writes[·]?) := by
      refine List.map_congr_left fun n hn => ?_
      have hmem : l.writes[n]? ∈ e.states.items.map some :=
        h.states ▸ List.mem_map_of_mem hn
      obtain ⟨t, -, ht⟩ := List.mem_map.1 hmem
      exact List.getElem?_append_left (List.getElem?_eq_some_iff.1 ht.symm).1
    change (l.states ++ [l.writes.length]).map ((l.writes ++ [s])[·]?) = _
    rw [List.map_append, hold, h.states, states, List.map_append]
    simp
  · rw [actions]
    exact h.actions.imp fun o a ho n hn => (ho n hn).take s
  · rw [execution] at ha
    exact (h.current n a hn ha).take s

theorem Mirrors.clear (h : l.Mirrors e) (states : e'.states.items = [])
    (actions : e'.actions.items = []) : l.clear.Mirrors e' := by
  refine ⟨?_, ?_, fun n a hn => (nomatch hn), h.events⟩
  · rw [states]
    rfl
  · rw [actions]
    exact .nil

/-- The oldest waiting state becomes an action. -/
theorem Mirrors.compose (h : l.Mirrors e) :
    (l.compose ((e.step (.advance .composition)).actions.items.drop e.actions.items.length)).Mirrors
      (e.step (.advance .composition)) := by
  have hstates := h.states
  rcases hpop : e.states.pop? with _ | ⟨s, states⟩
  · have hnone : l.states = [] := by
      rw [Flow.pop?_eq_none_iff.1 hpop] at hstates
      exact List.map_eq_nil_iff.1 hstates
    have hstep : e.step (.advance .composition) = e := by
      simp [Engine.step, Engine.advance?, Engine.compose?, hpop]
    rw [Ledger.compose, hnone, hstep]
    exact h
  have hstep : e.step (.advance .composition) = Engine.compose { e with states := states } s := by
    simp [Engine.step, Engine.advance?, Engine.compose?, hpop]
  obtain ⟨hitems, -⟩ := Flow.pop?_items hpop
  rw [hitems] at hstates
  rcases hl : l.states with _ | ⟨n, rest⟩
  · rw [hl] at hstates
    cases hstates
  rw [hl] at hstates
  obtain ⟨hn, hrest⟩ := List.cons.inj hstates
  obtain ⟨offered, offers, built⟩ := Engine.offers_compose { e with states := states } s
  obtain ⟨new, hsub, hnew⟩ := offers.actions
  have hcarried : ∀ a ∈ new, l.Carried n a := fun a ha =>
    ⟨s, hn, Action.carries_of_buildWrite (built a (hsub.subset ha))⟩
  rw [hstep, show e.actions = ({ e with states := states } : Engine).actions from rfl,
    drop_items hnew, Ledger.compose, hl]
  refine ⟨?_, ?_, fun k a hk ha => ?_, fun x hx => ?_⟩
  · rw [offers.states]
    exact hrest
  · rw [hnew]
    exact h.append fun a ha k hk => Option.some.inj hk ▸ hcarried a ha
  · rw [offers.execution] at ha
    exact h.current k a hk ha
  · rcases List.mem_append.1 hx with hx | hx
    · exact h.events x hx
    · obtain ⟨a, ha, rfl⟩ := List.mem_map.1 hx
      exact hcarried a ha

/-- What concerns writes is as before, but that the action under execution may be gone. -/
theorem Mirrors.of_eq (h : l.Mirrors e) (states : e'.states = e.states)
    (actions : e'.actions = e.actions)
    (execution : ∀ a, e'.execution.action? = some a → e.execution.action? = some a) :
    l.Mirrors e' :=
  ⟨by rw [states, h.states], by rw [actions]; exact h.actions,
    fun n a hn ha => h.current n a hn (execution a ha), h.events⟩

/-- Something happened to the action under execution. -/
theorem Mirrors.about (h : l.Mirrors e) {a : Action} (ha : e.execution.action? = some a)
    (step : WriteStep) : (l.about step a).Mirrors e := by
  refine ⟨h.states, h.actions, h.current, fun x hx => ?_⟩
  rcases List.mem_append.1 hx with hx | hx
  · exact h.events x hx
  · obtain ⟨n, hn, rfl⟩ := List.mem_map.1 hx
    exact h.current n a (Option.mem_toList.1 hn) ha

/-- The action at the front is executed. -/
theorem Mirrors.begin (h : l.Mirrors e) {a : Action} {rest : Flow Action}
    (hpop : e.actions.pop? = some (a, rest)) (states : e'.states = e.states)
    (actions : e'.actions = rest) (execution : e'.execution.action? = some a) :
    l.begin.Mirrors e' := by
  obtain ⟨hitems, -⟩ := Flow.pop?_items hpop
  have hactions := h.actions
  rw [hitems] at hactions
  rcases hl : l.actions with _ | ⟨o, others⟩
  · rw [hl] at hactions
    cases hactions
  rw [hl] at hactions
  obtain ⟨hfront, hrest⟩ := List.forall₂_cons.1 hactions
  rw [Ledger.begin, hl]
  refine ⟨by rw [states]; exact h.states, by rw [actions]; exact hrest, fun n b hn hb => ?_,
    h.events⟩
  obtain rfl := Option.some.inj (execution.symm.trans hb)
  exact hfront n hn

/-- The action under execution comes to its end. -/
theorem Mirrors.conclude (h : l.Mirrors e) {a : Action} (ha : e.execution.action? = some a)
    (result : Except RequestFault Gain) :
    (l.conclude ((e.conclude a result).actions.items.drop e.actions.items.length)).Mirrors
      (e.conclude a result) := by
  obtain ⟨⟨new, hsub, hnew⟩, hstates, hexecution⟩ := e.conclude_flows a result
  have hcarried : ∀ b ∈ new, ∀ n, l.current = some n → l.Carried n b := by
    intro b hb n hn
    obtain rfl := List.mem_singleton.1 (hsub.subset hb)
    obtain ⟨s, hs, hcarries⟩ := h.current n a hn ha
    exact ⟨s, hs, hcarries.retry⟩
  rw [drop_items hnew]
  refine ⟨by rw [hstates]; exact h.states, by rw [hnew]; exact h.append hcarried,
    fun n b hn => (nomatch hn), fun x hx => ?_⟩
  rcases List.mem_append.1 hx with hx | hx
  · exact h.events x hx
  · obtain ⟨n, hn, hx⟩ := List.mem_flatMap.1 hx
    obtain ⟨b, hb, rfl⟩ := List.mem_map.1 hx
    exact hcarried b hb n (Option.mem_toList.1 hn)

theorem Mirrors.executes (h : l.Mirrors e) (step : Engine.Executes e e') :
    (l.followExecution e e' (e'.actions.items.drop e.actions.items.length)).Mirrors e' := by
  -- an action that goes on working stays the one under execution
  have works : ∀ {a : Action} {t : Transceiver} {x : Execution}, e.execution.action? = some a →
      x.action? = some a → l.Mirrors { e with transceiver := t, execution := x } := by
    intro a t x ha hx
    exact h.of_eq rfl rfl fun b hb => (ha.trans (hx.symm.trans hb))
  cases step with
  | begin hexec hpop =>
    rw [Ledger.followExecution, hexec]
    exact h.begin hpop rfl rfl rfl
  | @conclude a result hexec =>
    rw [Ledger.followExecution, hexec]
    dsimp only
    have concluded := h.conclude (congrArg Execution.action? hexec)
    split
    · exact concluded _
    · rename_i hanswered
      have hresult : result ≠ .error .noReply := by
        rintro rfl
        exact hanswered rfl
      have hnone : (e.conclude a result).actions.items.drop e.actions.items.length = [] := by
        rw [e.conclude_actions a hresult, List.drop_length]
      rw [← hnone]
      exact concluded _
  | note hexec =>
    rw [Ledger.followExecution, hexec]
    dsimp only
    have ha := congrArg Execution.action? hexec
    split
    · exact works ha rfl
    · exact (works ha rfl).about rfl _
  | tell hexec hsend =>
    rw [Ledger.followExecution, hexec]
    dsimp only
    have ha := congrArg Execution.action? hexec
    split
    · exact works ha rfl
    · exact (works ha rfl).about rfl _
  | ask hexec hbegin =>
    rw [Ledger.followExecution, hexec]
    dsimp only
    have ha := congrArg Execution.action? hexec
    split
    · exact works ha rfl
    · exact (works ha rfl).about rfl _
  | await hexec hbegin =>
    rw [Ledger.followExecution, hexec]
    dsimp only
    have ha := congrArg Execution.action? hexec
    split
    · exact works ha rfl
    · exact (works ha rfl).about rfl _
  | finish hexec hfinish =>
    rw [Ledger.followExecution, hexec]
    dsimp only
    have ha := congrArg Execution.action? hexec
    split
    · exact (works ha rfl).about rfl _
    · exact works ha rfl
  | deliver hexec hpush =>
    rw [Ledger.followExecution, hexec]
    refine h.of_eq rfl rfl fun b hb => ?_
    cases hb
  | announced hexec =>
    rw [Ledger.followExecution, hexec]
    refine h.of_eq rfl rfl fun b hb => ?_
    cases hb
  | announce hexec hpush =>
    rw [Ledger.followExecution, hexec]
    refine h.of_eq rfl rfl fun b hb => ?_
    cases hb

theorem Mirrors.execution (h : l.Mirrors e) : (l.follow e (.advance .execution)).Mirrors
    (e.step (.advance .execution)) := by
  obtain ⟨e', hnext, executes⟩ | ⟨hsame, waits⟩ := e.executes_or_waits
  · rw [Ledger.follow, hnext]
    exact h.executes executes
  · rw [Ledger.follow, hsame, Ledger.followExecution]
    rcases waits with ⟨hexec, hempty⟩ | ⟨m, hexec⟩ | ⟨node, units, hexec⟩
    · have hactions := h.actions
      rw [hempty, List.forall₂_nil_right_iff] at hactions
      rw [hexec, Ledger.begin, hactions]
      exact h
    · rw [hexec]
      exact h
    · rw [hexec]
      exact h

theorem Mirrors.write (h : l.Mirrors e) (s : State) :
    (l.follow e (.write s)).Mirrors (e.step (.write s)) := by
  rcases hwrite : e.write? s with _ | e'
  · have hsame : e.step (.write s) = e := by simp only [Engine.step, hwrite, Option.getD_none]
    rw [Ledger.follow, hsame]
    simpa using h
  · have hnext : e.step (.write s) = e' := by simp only [Engine.step, hwrite, Option.getD_some]
    rw [Engine.write?] at hwrite
    split at hwrite
    · obtain ⟨states, hpush, rfl⟩ := Option.map_eq_some_iff.1 hwrite
      obtain ⟨hitems, -⟩ := Flow.push?_items hpush
      have hgrown : e.states.items.length < states.items.length := by simp [hitems]
      rw [Ledger.follow, hnext]
      simp only [hgrown, if_true]
      exact h.take hitems rfl rfl
    · cases hwrite

theorem Mirrors.stop (h : l.Mirrors e) : (l.follow e .stop).Mirrors (e.step .stop) := by
  rw [Ledger.follow, Engine.step]
  split
  · rename_i hrunning
    have stopped := Engine.stopped_stop hrunning
    exact h.clear stopped.states stopped.actions
  · rename_i hrunning
    rw [Engine.stop, if_neg hrunning]
    exact h.of_eq rfl rfl fun a ha => ha

/-- A move of the engine and what the ledger makes of it. -/
theorem Mirrors.follow (h : l.Mirrors e) (m : Move) : (l.follow e m).Mirrors (e.step m) := by
  rcases hm : m.isOrdinary with _ | _
  · cases m with
    | write s => exact h.write s
    | stop => exact h.stop
    | advance consumer =>
      cases consumer with
      | execution => exact h.execution
      | composition => exact h.compose
      | spreading => cases hm
      | announcement => cases hm
    | _ => cases hm
  · have hfollow : l.follow e m
        = l.enter ((e.step m).actions.items.drop e.actions.items.length) := by
      cases m with
      | advance consumer => cases consumer <;> first | rfl | cases hm
      | write s => cases hm
      | stop => cases hm
      | _ => rfl
    rw [hfollow]
    exact h.enter (Engine.appends_step hm e)

/-- The ledger of an engine that did nothing yet. -/
theorem Mirrors.empty (settings : EngineSettings) (t : Transceiver) :
    ({} : Ledger).Mirrors { settings := settings, transceiver := t } where
  states := rfl
  actions := .nil
  current _ _ h := nomatch h
  events _ h := nomatch h

/-- **After every run the ledger says what is so.** -/
theorem Mirrors.run (h : l.Mirrors e) (moves : List Move) : (l.run e moves).Mirrors (e.run moves) := by
  induction moves generalizing l e with
  | nil => exact h
  | cons m moves ih => exact ih (h.follow m)

end Ledger

end BusMaster
