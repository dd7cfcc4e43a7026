import BusMaster.Proofs.Engine.Intake

/-!
# The balance of the flow of actions

Five producers hand actions to one flow, none of them waits, and one consumer takes them out. The day
book of the flow sets down each action handed over, with the number that waited just then, and each
one taken (`DayBook`). It balances after every passage, in whatever order the passages of the
producers and of the consumer come (`DayBook.Balanced.enterAll`): what found room was taken since, in
its order, or still waits, and what found none was counted. A run of the engine is such a sequence of
passages, as long as nobody stops it (`handed_actions_balance`).
-/

namespace BusMaster

/-- what can happen at the flow of actions -/
inductive Passage where
  /-- an action is handed over -/
  | hand (a : Action)
  /-- the consumer takes the oldest action, if one waits -/
  | take

/-- the flow after a passage -/
def Intake.pass (i : Intake) : Passage → Intake
  | .hand a => i.hand a
  | .take =>
    match i.actions.pop? with
    | some (_, rest) => { i with actions := rest }
    | none => i

/-- the flow after passages -/
def Intake.passAll (i : Intake) (ps : List Passage) : Intake := ps.foldl pass i

/-- an action that was handed over, and the number of those that waited then -/
structure Handing where
  action : Action
  waiting : Nat

/-- the passages of a flow of actions -/
structure DayBook where
  handings : List Handing := []
  taken : List Action := []

namespace DayBook

/-- the actions that found room, in order -/
def accepted (b : DayBook) (capacity : Nat) : List Action :=
  (b.handings.filter (·.waiting < capacity)).map Handing.action

/-- the actions that found none -/
def refused (b : DayBook) (capacity : Nat) : List Action :=
  (b.handings.filter (¬·.waiting < capacity)).map Handing.action

/-- set down a passage -/
def enter (b : DayBook) (i : Intake) : Passage → DayBook
  | .hand a => { b with handings := b.handings ++ [⟨a, i.actions.items.length⟩] }
  | .take => { b with taken := b.taken ++ i.actions.items.head?.toList }

/-- set down passages -/
def enterAll (b : DayBook) (i : Intake) : List Passage → DayBook
  | [] => b
  | p :: ps => (b.enter i p).enterAll (i.pass p) ps

/-- The actions that found room are those taken and those that wait, in this order, and the others
are counted. None was refused while there was room. -/
structure Balanced (n : Nat) (b : DayBook) (i : Intake) : Prop where
  running : i.isRunning = true
  capacity : i.actions.capacity = n
  accepted : b.accepted n = b.taken ++ i.actions.items
  refused : (b.refused n).length = i.dropped
  full : ∀ h ∈ b.handings, h.waiting ≤ n

variable {n : Nat} {b : DayBook} {i : Intake}

theorem Balanced.hand (h : Balanced n b i) (a : Action) :
    Balanced n (b.enter i (.hand a)) (i.hand a) := by
  have hcapacity := h.capacity
  have accepted := h.accepted
  have refused := h.refused
  have waiting : i.actions.items.length ≤ n := hcapacity ▸ i.actions.bounded
  have full : ∀ x ∈ b.handings ++ [⟨a, i.actions.items.length⟩], x.waiting ≤ n := by
    intro x hx
    rcases List.mem_append.1 hx with hx | hx
    · exact h.full x hx
    · rw [List.mem_singleton.1 hx]
      exact waiting
  simp only [DayBook.accepted, DayBook.refused, List.length_map] at accepted refused
  rw [Intake.hand, if_pos h.running, enter]
  by_cases room : i.actions.items.length < n
  · have hpush : i.actions.push? a = some ⟨i.actions.capacity, i.actions.items ++ [a], by
        rw [List.length_append, hcapacity]
        exact room⟩ := dif_pos (hcapacity.symm ▸ room)
    rw [hpush]
    refine ⟨h.running, hcapacity, ?_, ?_, full⟩
    · rw [DayBook.accepted, List.filter_append, List.map_append, accepted, List.append_assoc]
      simp [room]
    · rw [DayBook.refused, List.length_map, List.filter_append, List.length_append, refused]
      simp [room]
  · have hpush : i.actions.push? a = none := dif_neg (hcapacity.symm ▸ room)
    rw [hpush]
    refine ⟨h.running, hcapacity, ?_, ?_, full⟩
    · rw [DayBook.accepted, List.filter_append, List.map_append, accepted]
      simp [room]
    · rw [DayBook.refused, List.length_map, List.filter_append, List.length_append, refused]
      simp [Nat.not_lt.1 room]

theorem Balanced.take (h : Balanced n b i) : Balanced n (b.enter i .take) (i.pass .take) := by
  have accepted := h.accepted
  rw [Intake.pass, enter]
  rcases hpop : i.actions.pop? with _ | ⟨a, rest⟩
  · refine ⟨h.running, h.capacity, ?_, h.refused, h.full⟩
    rw [Flow.pop?_eq_none_iff.1 hpop] at accepted ⊢
    rw [List.head?_nil, Option.toList_none, List.append_nil]
    exact accepted
  · obtain ⟨hitems, hcapacity⟩ := Flow.pop?_items hpop
    refine ⟨h.running, hcapacity.trans h.capacity, ?_, h.refused, h.full⟩
    rw [hitems] at accepted ⊢
    change b.accepted n = b.taken ++ [a] ++ rest.items
    rw [accepted, List.append_assoc]
    rfl

/-- **The book balances after every sequence of passages.** -/
theorem Balanced.enterAll (h : Balanced n b i) (ps : List Passage) :
    Balanced n (b.enterAll i ps) (i.passAll ps) := by
  induction ps generalizing b i with
  | nil => exact h
  | cons p ps ih =>
    cases p with
    | hand a => exact ih (h.hand a)
    | take => exact ih h.take

/-- Actions handed over one after another are set down in their order. -/
theorem enterAll_hand (b : DayBook) (i : Intake) (actions : List Action) :
    (b.enterAll i (actions.map .hand)).handings.map Handing.action
        = b.handings.map Handing.action ++ actions ∧
      (b.enterAll i (actions.map .hand)).taken = b.taken := by
  induction actions generalizing b i with
  | nil => exact ⟨(List.append_nil _).symm, rfl⟩
  | cons a actions ih =>
    obtain ⟨hhandings, htaken⟩ := ih (b.enter i (.hand a)) (i.hand a)
    refine ⟨hhandings.trans ?_, htaken⟩
    rw [enter, List.map_append, List.append_assoc]
    rfl

end DayBook

/-- the passages of a step of the execution: it takes an action when it is idle, and hands over one
that is tried again -/
def Execution.passages (maxRetries : UInt8) : Execution → List Passage
  | .idle => [.take]
  | x => (x.retried maxRetries).map .hand

namespace Engine

/-- the passages of a move -/
def passages (e : Engine) : Move → List Passage
  | .advance .execution => e.execution.passages e.settings.maxRetries
  | m => (e.handed m).map .hand

/-- the action whose execution a move begins -/
def begun (e : Engine) : Move → List Action
  | .advance .execution =>
    match e.execution with
    | .idle => (e.step (.advance .execution)).execution.action?.toList
    | _ => []
  | _ => []

/-- all actions that moves hand over -/
def handedAll (e : Engine) : List Move → List Action
  | [] => []
  | m :: moves => e.handed m ++ (e.step m).handedAll moves

/-- all actions whose execution moves begin -/
def begunAll (e : Engine) : List Move → List Action
  | [] => []
  | m :: moves => e.begun m ++ (e.step m).begunAll moves

variable {e : Engine}

/-- A move takes no action unless it is a step of the idle execution. -/
theorem passages_eq_hand {m : Move} (h : m ≠ .advance .execution ∨ e.execution ≠ .idle) :
    e.passages m = (e.handed m).map .hand ∧ e.begun m = [] := by
  cases m with
  | advance consumer =>
    cases consumer with
    | execution =>
      have busy := h.resolve_left (not_not_intro rfl)
      rw [passages, handed, begun]
      rcases hexec : e.execution
      case idle => exact absurd hexec busy
      all_goals exact ⟨rfl, rfl⟩
    | _ => exact ⟨rfl, rfl⟩
  | _ => exact ⟨rfl, rfl⟩

theorem passAll_hand (i : Intake) (actions : List Action) :
    i.passAll (actions.map .hand) = actions.foldl Intake.hand i := by
  rw [Intake.passAll, List.foldl_map]
  rfl

/-- **A step of the execution takes an action or hands one over**, if it does anything at the flow. -/
theorem intake_execution (e : Engine) : ∃ failures,
    (e.step (.advance .execution)).intake =
      { e.intake.passAll (e.passages (.advance .execution)) with failures := failures } := by
  have kept (x : Execution) (hx : x.passages e.settings.maxRetries = []) :
      e.intake = { e.intake.passAll (x.passages e.settings.maxRetries) with
        failures := e.failures } := by
    rw [hx]
    rfl
  rw [passages]
  obtain ⟨e', hnext, executes⟩ | ⟨hsame, waits⟩ := e.executes_or_waits
  case inr =>
    rw [hsame]
    rcases waits with ⟨hexec, hitems⟩ | ⟨m, hexec⟩ | ⟨node, units, hexec⟩ <;> rw [hexec]
    · have hpop : e.intake.actions.pop? = none := Flow.pop?_eq_none_iff.2 hitems
      refine ⟨e.failures, ?_⟩
      change e.intake = { e.intake.pass .take with failures := e.failures }
      rw [Intake.pass, hpop]
      rfl
    · exact ⟨e.failures, kept (.delivering m) rfl⟩
    · exact ⟨e.failures, kept (.announcing node units) rfl⟩
  · rw [hnext]
    cases executes with
    | @begin a rest hexec hpop =>
      have hpop' : e.intake.actions.pop? = some (a, rest) := hpop
      refine ⟨e.failures, ?_⟩
      rw [hexec]
      change _ = { e.intake.pass .take with failures := e.failures }
      rw [Intake.pass, hpop']
      rfl
    | @conclude a result hexec =>
      rw [hexec, intake_conclude]
      cases result with
      | ok gain => exact ⟨e.failures, rfl⟩
      | error fault =>
        cases fault with
        | noReply =>
          have again : Execution.passages e.settings.maxRetries
              (.running a (.done (.error .noReply))) =
                (if a.retries < e.settings.maxRetries then [a.retry] else []).map .hand := rfl
          rw [again]
          dsimp only
          split
          · exact ⟨(e.intake.hand a.retry).failures, rfl⟩
          · exact ⟨e.failures + 1, rfl⟩
        | _ => exact ⟨e.failures, rfl⟩
    | @note a line rest hexec => exact ⟨e.failures, hexec ▸ kept (.running a (.note line rest)) rfl⟩
    | @tell a request next _ _ hexec _ =>
      exact ⟨e.failures, hexec ▸ kept (.running a (.tell request next)) rfl⟩
    | @ask a request next _ _ hexec _ =>
      exact ⟨e.failures, hexec ▸ kept (.running a (.ask request next)) rfl⟩
    | @await a request next _ _ hexec _ =>
      exact ⟨e.failures, hexec ▸ kept (.running a (.ask request next)) rfl⟩
    | @finish a p next _ _ hexec _ => exact ⟨e.failures, hexec ▸ kept (.awaiting a p next) rfl⟩
    | @deliver m _ hexec _ => exact ⟨e.failures, hexec ▸ kept (.delivering m) rfl⟩
    | @announced node hexec => exact ⟨e.failures, hexec ▸ kept (.announcing node []) rfl⟩
    | @announce node unit units _ hexec _ =>
      exact ⟨e.failures, hexec ▸ kept (.announcing node (unit :: units)) rfl⟩

/-- A move that is no stop is its passages. -/
theorem intake_passages {m : Move} (stop : m ≠ .stop) (e : Engine) : ∃ failures,
    (e.step m).intake = { e.intake.passAll (e.passages m) with failures := failures } := by
  by_cases execution : m = .advance .execution
  · rw [execution]
    exact intake_execution e
  · refine ⟨(e.step m).failures, ?_⟩
    rw [(passages_eq_hand (.inl execution)).1, passAll_hand, ← intake_step stop execution e]
    rfl

end Engine

namespace DayBook

/-- set down the passages of a move -/
def follow (b : DayBook) (e : Engine) (m : Move) : DayBook := b.enterAll e.intake (e.passages m)

/-- the day book after moves of the engine -/
def run (b : DayBook) (e : Engine) : List Move → DayBook
  | [] => b
  | m :: moves => (b.follow e m).run (e.step m) moves

variable {n : Nat} {b : DayBook} {e : Engine}

theorem Balanced.follow (h : Balanced n b e.intake) {m : Move} (stop : m ≠ .stop) :
    Balanced n (b.follow e m) (e.step m).intake := by
  obtain ⟨failures, hintake⟩ := Engine.intake_passages stop e
  obtain ⟨running, capacity, accepted, refused, full⟩ := h.enterAll (e.passages m)
  rw [hintake]
  exact ⟨running, capacity, accepted, refused, full⟩

/-- The book has what the move handed over and the action whose execution it began. -/
theorem entries_follow (b : DayBook) (e : Engine) (m : Move) :
    (b.follow e m).handings.map Handing.action
        = b.handings.map Handing.action ++ e.handed m ∧
      (b.follow e m).taken = b.taken ++ e.begun m := by
  rw [follow]
  by_cases idle : m = .advance .execution ∧ e.execution = .idle
  · obtain ⟨rfl, idle⟩ := idle
    simp only [Engine.passages, Engine.handed, Engine.begun, Engine.step, Engine.advance?,
      Engine.execute?, idle]
    refine ⟨(List.append_nil _).symm, ?_⟩
    change b.taken ++ e.actions.items.head?.toList = _
    rcases hpop : e.actions.pop? with _ | ⟨a, rest⟩
    · rw [Flow.pop?_eq_none_iff.1 hpop]
      change _ = b.taken ++ e.execution.action?.toList
      rw [idle]
      rfl
    · rw [(Flow.pop?_items hpop).1]
      rfl
  · obtain ⟨hpassages, hbegun⟩ := Engine.passages_eq_hand (not_and_or.1 idle)
    obtain ⟨hhandings, htaken⟩ := b.enterAll_hand e.intake (e.handed m)
    rw [hpassages, hbegun, List.append_nil]
    exact ⟨hhandings, htaken⟩

theorem entries_run (b : DayBook) (e : Engine) (moves : List Move) :
    (b.run e moves).handings.map Handing.action
        = b.handings.map Handing.action ++ e.handedAll moves ∧
      (b.run e moves).taken = b.taken ++ e.begunAll moves := by
  induction moves generalizing b e with
  | nil => exact ⟨(List.append_nil _).symm, (List.append_nil _).symm⟩
  | cons m moves ih =>
    obtain ⟨hhandings, htaken⟩ := ih (b.follow e m) (e.step m)
    obtain ⟨first, begun⟩ := b.entries_follow e m
    rw [run, hhandings, htaken, first, begun, List.append_assoc, List.append_assoc]
    exact ⟨rfl, rfl⟩

/-- **The book balances after every run.** -/
theorem Balanced.run (h : Balanced n b e.intake) {moves : List Move}
    (unstopped : Move.stop ∉ moves) : Balanced n (b.run e moves) (e.run moves).intake := by
  induction moves generalizing b e with
  | nil => exact h
  | cons m moves ih =>
    obtain ⟨stop, unstopped⟩ := not_or.1 (mt List.mem_cons.2 unstopped)
    exact ih (h.follow (Ne.symm stop)) unstopped

/-- The book of an engine that did nothing yet. -/
theorem Balanced.empty (settings : EngineSettings) (t : Transceiver) :
    Balanced (max 1 settings.queueSize) {}
      (Engine.intake { settings := settings, transceiver := t }) :=
  ⟨rfl, Nat.max_comm .., rfl, rfl, List.forall_mem_nil _⟩

end DayBook

/-- **No action is lost or taken twice.** Until the engine is stopped, the actions handed over are
those that found room and those that did not. The first ones are the actions whose execution began,
in the order in which they were handed over, and behind them the actions that wait. The others came
when the flow was full, and `dropped` counts them. The book balances just as well when the passages
of the producers and of the consumer come in any other order. -/
theorem handed_actions_balance (settings : EngineSettings) (t : Transceiver) (moves : List Move)
    (unstopped : Move.stop ∉ moves) :
    let e₀ : Engine := { settings := settings, transceiver := t }
    let e := e₀.run moves
    let b := DayBook.run {} e₀ moves
    let capacity := max 1 settings.queueSize
    (b.handings.map Handing.action = e₀.handedAll moves ∧ b.taken = e₀.begunAll moves) ∧
    b.accepted capacity = b.taken ++ e.actions.items ∧ e.actions.items.length ≤ capacity ∧
    (b.refused capacity).length = e.dropped ∧ (∀ h ∈ b.handings, h.waiting ≤ capacity) ∧
    ∀ ps : List Passage,
      DayBook.Balanced capacity (DayBook.enterAll {} e₀.intake ps) (e₀.intake.passAll ps) := by
  intro e₀ e b capacity
  obtain ⟨hhandings, htaken⟩ := DayBook.entries_run {} e₀ moves
  have empty := DayBook.Balanced.empty settings t
  have balanced := empty.run unstopped
  have bounded : e.actions.items.length ≤ capacity :=
    Nat.le_trans e.actions.bounded (Nat.le_of_eq balanced.capacity)
  exact ⟨⟨hhandings, htaken⟩, balanced.accepted, bounded, balanced.refused, balanced.full,
    fun ps => empty.enterAll ps⟩

/-! ## A flow with room for one

Two reads are handed over before the consumer takes one, and a third one after that.
-/

namespace Narrow

/-- a read of one register -/
def poll : Action where
  dataset := 1
  node := 1
  cls := .holdingRegister
  action := .read
  address := 40
  length := 1

def transceiver : Transceiver where
  settings := { framing := .bridge, endpoint := .tcp "bus" 502 }

def moves : List Move := [.submit poll, .submit poll, .advance .execution, .submit poll]

def engine : Engine := Engine.run { settings := { queueSize := 1 }, transceiver := transceiver } moves

def book : DayBook :=
  DayBook.run {} { settings := { queueSize := 1 }, transceiver := transceiver } moves

/-- The second read is refused, the first one is taken, and the third one waits. -/
theorem second_read_is_refused :
    Move.stop ∉ moves ∧ book.handings.map Handing.waiting = [0, 1, 0] ∧
      (book.refused 1).length = 1 ∧ book.taken.length = 1 ∧ engine.actions.items.length = 1 := by
  have unstopped : Move.stop ∉ moves := by simp [moves]
  obtain ⟨-, accepted, -, refused, -⟩ :=
    handed_actions_balance { queueSize := 1 } transceiver moves unstopped
  have dropped : engine.dropped = 1 := by decide +kernel
  have two : (book.accepted 1).length = 2 := by decide +kernel
  have one : engine.actions.items.length = 1 := by decide +kernel
  have taken := congrArg List.length accepted
  rw [List.length_append] at taken
  change (book.accepted 1).length = book.taken.length + engine.actions.items.length at taken
  exact ⟨unstopped, by decide +kernel, refused.trans dropped, by omega, one⟩

end Narrow

end BusMaster
