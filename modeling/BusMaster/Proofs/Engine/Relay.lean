import BusMaster.Proofs.Engine.Census
import BusMaster.Proofs.Engine.History

/-!
# From messages to reports

A message that is taken in sets out its states and, when its dataset is internal, a notice for
discovery. The states go into the reports one by one, before the next message is taken in. The notice
becomes a finding when its node is looked up, unless the node is not known then. The finding goes
through the flow of findings and is taken apart into devices, which go into the reports one by one,
before the next finding is looked at. So nothing overtakes anything: the states among the reports are
those of the messages, one message after another, and the devices are those of the findings, one
finding after another (`Outbox.Conveys`). What is missing is under way, and can be moved on without a
message being taken in (`Engine.exists_relay`), or was discarded by a stop, after which nothing is
taken in any more (`Engine.Halted`).
-/

namespace BusMaster

/-- the state a report tells -/
def Report.state? : Report → Option State
  | .state s => some s
  | .device _ => none

/-- the device a report tells -/
def Report.device? : Report → Option Device
  | .device d => some d
  | .state _ => none

/-- how much there is to tell discovery of a message, before its node is looked up the most that
may come of it -/
def Telling.weight : Telling → Nat
  | .nothing => 0
  | .notice _ => 3 + 2 * 17
  | .finding f => 2 + 2 * f.devices.1.length

/-- Discovery makes seventeen devices of a finding at most, a thermostat and sixteen actuators. -/
theorem Finding.length_devices_le (f : Finding) : f.devices.1.length ≤ 17 := by
  have few (node : NodeId) (unit : UnitId) (element : UInt8) (bitmap : UInt16) :
      (devicesAt node unit element (channelsOf bitmap)).length ≤ 17 := by
    have channels : (channelsOf bitmap).length ≤ 16 := by
      rw [channelsOf, List.length_map]
      exact List.length_filter_le ..
    have lowest : (channelsOf bitmap).head?.toList.length ≤ 1 := by
      rcases (channelsOf bitmap).head? with _ | channel
      · exact Nat.zero_le 1
      · exact Nat.le_refl 1
    rw [devicesAt, List.length_append, List.length_map, List.length_map]
    omega
  cases f with
  | assignment node a => exact Nat.le_add_left 1 16
  | announcement node unit address payload =>
    rw [devices.eq_def]
    dsimp only
    split
    · split
      · exact Nat.zero_le _
      · exact few ..
    · exact Nat.zero_le _

/-- how much there is to do for a message -/
def Spreading.weight (s : Spreading) : Nat :=
  s.cascades.length + 2 * s.states.length + s.telling.weight

/-- the finding comes from a message -/
def Finding.isAnnouncement : Finding → Bool
  | .announcement .. => true
  | .assignment .. => false

namespace Outbox

/-- the states on their way to the host, the oldest first -/
def states (o : Outbox) : List State :=
  o.reports.items.filterMap Report.state? ++ o.spreading.states

/-- the devices on their way to the host, the oldest first -/
def devices (o : Outbox) : List Device :=
  o.reports.items.filterMap Report.device? ++ (o.found ++ o.findings.items.flatMap (·.devices.1))

/-- the announcement that is not passed on yet -/
def announcements (o : Outbox) : List Finding :=
  o.spreading.telling.finding?.toList.filter Finding.isAnnouncement

/-- New states and announcements enter, reports are taken, and nothing else enters, leaves or
overtakes, but for the devices of assignments: those of all findings that are passed on stay together. -/
structure Conveys (o : Outbox) (states : List State) (announcements : List Finding)
    (taken : List Report) (o' : Outbox) : Prop where
  states : o.states ++ states = taken.filterMap Report.state? ++ o'.states
  devices : ∃ passed : List Finding,
    o.devices ++ passed.flatMap (·.devices.1) = taken.filterMap Report.device? ++ o'.devices ∧
      o.announcements ++ announcements =
        passed.filter Finding.isAnnouncement ++ o'.announcements

namespace Conveys

variable {o o' o'' : Outbox} {states states' : List State} {announcements : List Finding}
  {announcements' : List Finding} {taken taken' : List Report}

theorem refl (o : Outbox) : o.Conveys [] [] [] o :=
  ⟨List.append_nil _, [], List.append_nil _, List.append_nil _⟩

theorem trans (first : o.Conveys states announcements taken o')
    (second : o'.Conveys states' announcements' taken' o'') :
    o.Conveys (states ++ states') (announcements ++ announcements') (taken ++ taken') o'' := by
  obtain ⟨passed, devices, announced⟩ := first.devices
  obtain ⟨passed', devices', announced'⟩ := second.devices
  refine ⟨?_, passed ++ passed', ?_, ?_⟩
  · rw [← List.append_assoc, first.states, List.append_assoc, second.states, List.filterMap_append,
      List.append_assoc]
  · rw [List.flatMap_append, ← List.append_assoc, devices, List.append_assoc, devices',
      List.filterMap_append, List.append_assoc]
  · rw [← List.append_assoc, announced, List.append_assoc, announced', List.filter_append,
      List.append_assoc]

/-! What is conveyed by each of the moves that convey something. -/

variable {spreading : Spreading} {findings findings' : Flow Finding} {found : List Device}
  {reports reports' : Flow Report}

/-- The host takes the oldest report. -/
theorem take {r : Report} (hitems : reports.items = r :: reports'.items) :
    Conveys ⟨spreading, findings, found, reports⟩ [] [] [r] ⟨spreading, findings, found, reports'⟩ := by
  refine ⟨?_, [], ?_, List.append_nil _⟩
  · rw [Outbox.states, Outbox.states, hitems, ← List.singleton_append, List.filterMap_append,
      List.append_nil, List.append_assoc]
  · rw [Outbox.devices, Outbox.devices, hitems, ← List.singleton_append, List.filterMap_append,
      List.flatMap_nil, List.append_nil, List.append_assoc]

/-- A message is taken in. -/
theorem read (cascades : List Action) (states : List State) (notice : Option Notice) :
    Conveys ⟨{}, findings, found, reports⟩ states [] []
      ⟨⟨cascades, states, notice.elim .nothing .notice⟩, findings, found, reports⟩ := by
  refine ⟨?_, [], List.append_nil _, ?_⟩
  · simp [Outbox.states]
  · cases notice <;> rfl

/-- A read is submitted. -/
theorem cascade {a : Action} {cascades : List Action} {states : List State} {telling : Telling} :
    Conveys ⟨⟨a :: cascades, states, telling⟩, findings, found, reports⟩ [] [] []
      ⟨⟨cascades, states, telling⟩, findings, found, reports⟩ :=
  ⟨List.append_nil _, [], List.append_nil _, List.append_nil _⟩

/-- A state goes into the reports. -/
theorem state {s : State} {states : List State} {telling : Telling}
    (hitems : reports'.items = reports.items ++ [.state s]) :
    Conveys ⟨⟨[], s :: states, telling⟩, findings, found, reports⟩ [] [] []
      ⟨⟨[], states, telling⟩, findings, found, reports'⟩ := by
  refine ⟨?_, [], ?_, List.append_nil _⟩
  · simp [Outbox.states, Report.state?, hitems]
  · simp [Outbox.devices, Report.device?, hitems]

/-- A node is looked up. -/
theorem lookUp {n : Notice} (finding : Option Finding)
    (announcement : ∀ f, finding = some f → f.isAnnouncement = true) :
    Conveys ⟨⟨[], [], .notice n⟩, findings, found, reports⟩ [] finding.toList []
      ⟨{ telling := finding.elim .nothing .finding }, findings, found, reports⟩ := by
  refine ⟨List.append_nil _, [], List.append_nil _, ?_⟩
  cases finding with
  | none => rfl
  | some f => simp [Outbox.announcements, Telling.finding?, announcement f rfl]

/-- A finding is passed on. -/
theorem pass {f : Finding} (hitems : findings'.items = findings.items ++ [f]) :
    Conveys ⟨⟨[], [], .finding f⟩, findings, found, reports⟩ [] [] []
      ⟨{}, findings', found, reports⟩ := by
  refine ⟨?_, [f], ?_, ?_⟩
  · simp [Outbox.states]
  · simp [Outbox.devices, hitems]
  · simp [Outbox.announcements, Telling.finding?]

/-- An assignment is handed on. -/
theorem assign {f : Finding} (assignment : f.isAnnouncement = false)
    (hitems : findings'.items = findings.items ++ [f]) :
    Conveys ⟨spreading, findings, found, reports⟩ [] [] []
      ⟨spreading, findings', found, reports⟩ := by
  refine ⟨List.append_nil _, [f], ?_, ?_⟩
  · simp [Outbox.devices, hitems]
  · simp [Outbox.announcements, assignment]

/-- A finding is taken apart into devices. -/
theorem resolve {f : Finding} (hitems : findings.items = f :: findings'.items) :
    Conveys ⟨spreading, findings, [], reports⟩ [] [] []
      ⟨spreading, findings', f.devices.1, reports⟩ := by
  refine ⟨List.append_nil _, [], ?_, List.append_nil _⟩
  simp [Outbox.devices, hitems]

/-- A device goes into the reports. -/
theorem report {d : Device} (hitems : reports'.items = reports.items ++ [.device d]) :
    Conveys ⟨spreading, findings, d :: found, reports⟩ [] [] []
      ⟨spreading, findings, found, reports'⟩ := by
  refine ⟨?_, [], ?_, List.append_nil _⟩
  · simp [Outbox.states, Report.state?, hitems]
  · simp [Outbox.devices, Report.device?, hitems]

end Conveys

end Outbox

namespace Engine

variable {e e' : Engine}

/-! ## Steps -/

/-- the states that are set out with a move -/
def newStates (e : Engine) (m : Move) : List State :=
  (e.catalog.answers (e.operations m)).flatMap Catalog.Answer.states

/-- the announcement that comes about with a move -/
def newAnnouncements (e : Engine) (m : Move) : List Finding :=
  (e.looking? m).toList.filterMap e.finding?

theorem conveys_takeReport (e : Engine) :
    e.outbox.Conveys [] [] (e.takes .takeReport) (e.step .takeReport).outbox := by
  simp only [step, takes, takeReport]
  rcases hpop : e.reports.pop? with _ | ⟨r, reports⟩
  · exact .refl _
  · exact .take (Flow.pop?_items hpop).1

theorem conveys_spreading (e : Engine) :
    e.outbox.Conveys (e.newStates (.advance .spreading)) (e.newAnnouncements (.advance .spreading)) []
      (e.step (.advance .spreading)).outbox := by
  rw [newStates, newAnnouncements, operations]
  obtain ⟨e', hnext, spreads⟩ | ⟨hsame, hread, hlook, -⟩ := e.spreads_or_waits
  case inr =>
    rw [hsame, hread, hlook]
    exact .refl _
  rw [hnext, reading?, looking?]
  cases spreads with
  | cascade hspreading =>
    rw [(schedules_submit ..).outbox, outbox, hspreading]
    exact .cascade
  | state hspreading hpush =>
    rw [outbox, hspreading]
    exact .state (Flow.push?_items hpush).1
  | @lookUp n hspreading =>
    obtain ⟨lines, h⟩ := e.lookUp_eq n
    rw [h, outbox, hspreading]
    have told : [n].filterMap e.finding? = (e.finding? n).toList := by
      cases h : e.finding? n <;> simp [h]
    have announcement (f : Finding) (hf : e.finding? n = some f) : f.isAnnouncement = true := by
      obtain ⟨node, rfl⟩ := exists_of_finding? hf
      rfl
    exact told ▸ .lookUp _ announcement
  | finding hspreading hpush =>
    rw [outbox, hspreading]
    exact .pass (Flow.push?_items hpush).1
  | @read m messages hspreading hpop =>
    obtain ⟨lines, h⟩ := spread_eq (e := { e with messages := messages }) m hspreading
    rw [h, outbox, hspreading, (Flow.pop?_items hpop).1]
    have states : (e.catalog.answers [.apply m]).flatMap Catalog.Answer.states =
      (e.catalog.perform (.apply m)).1.states := List.append_nil _
    exact states ▸ .read _ _ _

theorem conveys_announcement (e : Engine) :
    e.outbox.Conveys [] [] [] (e.step (.advance .announcement)).outbox := by
  simp only [step, advance?, announce?]
  split
  · rename_i d found hfound
    rcases hpush : e.reports.push? (.device d) with _ | reports
    · exact .refl _
    · rw [outbox, hfound]
      exact .report (Flow.push?_items hpush).1
  · rename_i hfound
    rcases hpop : e.findings.pop? with _ | ⟨finding, findings⟩
    · exact .refl _
    · rw [outbox, hfound]
      exact .resolve (Flow.pop?_items hpop).1

theorem conveys_execution (e : Engine) :
    e.outbox.Conveys [] [] [] (e.step (.advance .execution)).outbox := by
  obtain ⟨e', hnext, executes⟩ | ⟨hsame, -⟩ := e.executes_or_waits
  · rw [hnext]
    cases executes with
    | conclude hexec =>
      rw [outbox_conclude]
      exact .refl _
    | announce hexec hpush => exact .assign rfl (Flow.push?_items hpush).1
    | _ => exact .refl _
  · rw [hsame]
    exact .refl _

/-- **A move conveys what it sets out and what the host takes**, and nothing else, if it stops
nothing. -/
theorem conveys_step {m : Move} (running : m = .stop → e.isRunning = false) :
    e.outbox.Conveys (e.newStates m) (e.newAnnouncements m) (e.takes m) (e.step m).outbox := by
  by_cases other : m = .takeReport ∨ m = .stop ∨ ∃ c, m = .advance c ∧ c ≠ .composition
  · obtain rfl | rfl | ⟨c, rfl, hc⟩ := other
    · exact e.conveys_takeReport
    · have stopped : e.step .stop = e.disconnect := by
        rw [step, stop, running rfl, if_neg Bool.false_ne_true]
      rw [stopped]
      exact .refl _
    · cases c with
      | execution => exact e.conveys_execution
      | spreading => exact e.conveys_spreading
      | announcement => exact e.conveys_announcement
      | composition => exact absurd rfl hc
  · rw [not_or, not_or] at other
    obtain ⟨take, stop, consumer⟩ := other
    rw [outbox_step take stop fun c hc => by_contra fun h => consumer ⟨c, hc, h⟩]
    cases m with
    | takeReport => exact absurd rfl take
    | stop => exact absurd rfl stop
    | advance c =>
      cases c with
      | composition => exact .refl _
      | _ => exact absurd ⟨_, rfl, by decide⟩ consumer
    | _ => exact .refl _

/-! ## Runs -/

/-- the reports made in a run: those that the host took, and those that wait for it -/
def reported (e : Engine) (moves : List Move) : List Report :=
  e.collect takes moves ++ (e.run moves).reports.items

/-- The states that are set out in a run are those of the answers to its operations. -/
theorem collect_newStates (e : Engine) (moves : List Move) :
    e.collect newStates moves =
      (e.catalog.answers (e.collect operations moves)).flatMap Catalog.Answer.states := by
  induction moves generalizing e with
  | nil => rfl
  | cons m moves ih =>
    rw [collect, collect, ih, catalog_step, Catalog.answers_append, List.flatMap_append]
    rfl

theorem conveys_run {moves : List Move} (running : (e.run moves).isRunning = true) :
    e.outbox.Conveys (e.collect newStates moves) (e.collect newAnnouncements moves)
      (e.collect takes moves) (e.run moves).outbox := by
  induction moves generalizing e with
  | nil => exact .refl _
  | cons m moves ih =>
    obtain ⟨-, stop⟩ := running_of_run running
    exact (conveys_step fun h => absurd h stop).trans (ih running)

/-- What takes in no message sets out nothing. -/
theorem newStates_of_not_reading {m : Move} (h : e.reading? m = none) : e.newStates m = [] := by
  rw [newStates]
  cases m with
  | advance c =>
    rw [operations, h]
    rfl
  | _ => rfl

/-- A stopped engine sets out nothing, and its reports are only taken. -/
theorem Halted.collect (h : e.Halted) (moves : List Move) :
    e.collect newStates moves = [] ∧ e.collect newAnnouncements moves = [] ∧
      e.reported moves = e.reports.items := by
  induction moves generalizing e with
  | nil => exact ⟨rfl, rfl, rfl⟩
  | cons m moves ih =>
    obtain ⟨states, announcements, reports⟩ := ih (h.step m)
    refine ⟨?_, ?_, ?_⟩
    · rw [Engine.collect, states, newStates_of_not_reading (h.reading? m)]
      rfl
    · rw [Engine.collect, announcements, newAnnouncements, h.looking? m]
      rfl
    · rw [reported, Engine.collect, List.append_assoc]
      exact (congrArg _ reports).trans (h.reports m).symm

/-- What follows a stop adds nothing. -/
theorem collect_stop {before : List Move} (running : (e.run before).isRunning = true)
    (after : List Move) :
    e.collect newStates (before ++ .stop :: after) = e.collect newStates before ∧
      e.collect newAnnouncements (before ++ .stop :: after) = e.collect newAnnouncements before ∧
      e.reported (before ++ .stop :: after) = e.reported before := by
  obtain ⟨states, announcements, reports⟩ := (halted_stop running).collect after
  have left : (e.run before).stop.reports = (e.run before).reports :=
    congrArg Outbox.reports (outbox_stop running).1
  refine ⟨?_, ?_, ?_⟩
  · rw [collect_append]
    exact (congrArg _ states).trans (List.append_nil _)
  · rw [collect_append]
    exact (congrArg _ announcements).trans (List.append_nil _)
  · rw [reported, collect_append, List.append_assoc, run_append]
    exact congrArg _ (reports.trans (congrArg Flow.items left))

/-- the messages that are taken in during a run, each with the engine that takes it in -/
def readings (e : Engine) (moves : List Move) : List (Engine × Message) :=
  e.collect (fun e m => (e.reading? m).toList.map (e, ·)) moves

theorem readings_cons (e : Engine) (m : Move) (moves : List Move) :
    e.readings (m :: moves) = (e.reading? m).toList.map (e, ·) ++ (e.step m).readings moves := rfl

theorem newStates_eq (e : Engine) (m : Move) : e.newStates m =
    ((e.reading? m).toList.map (e, ·)).flatMap fun x : Engine × Message =>
      (x.1.catalog.perform (.apply x.2)).1.states := by
  rcases h : e.reading? m with _ | message
  · exact newStates_of_not_reading h
  · rw [newStates]
    cases m with
    | advance c =>
      rw [operations, h]
      rfl
    | _ => cases h

theorem collect_newStates_eq (e : Engine) (moves : List Move) : e.collect newStates moves =
    (e.readings moves).flatMap fun x => (x.1.catalog.perform (.apply x.2)).1.states := by
  induction moves generalizing e with
  | nil => rfl
  | cons m moves ih => rw [collect, ih, newStates_eq, readings_cons, List.flatMap_append]

/-- the messages whose nodes are looked up during a run, each with the engine that looks it up -/
def lookups (e : Engine) (moves : List Move) : List (Engine × Notice) :=
  e.collect (fun e m => (e.looking? m).toList.map (e, ·)) moves

theorem lookups_cons (e : Engine) (m : Move) (moves : List Move) :
    e.lookups (m :: moves) = (e.looking? m).toList.map (e, ·) ++ (e.step m).lookups moves := rfl

theorem collect_newAnnouncements_eq (e : Engine) (moves : List Move) :
    e.collect newAnnouncements moves = (e.lookups moves).filterMap fun x => x.1.finding? x.2 := by
  induction moves generalizing e with
  | nil => rfl
  | cons m moves ih =>
    rw [collect, ih, lookups_cons, List.filterMap_append, List.filterMap_map]
    rfl

/-! ## Nothing is held up -/

variable {e : Engine}

/-- how much there is to move on, what is set out included -/
def load (e : Engine) : Nat := e.weight + e.spreading.weight

/-- **What is done for a message makes it less**, unless it is the message itself that is taken in. -/
theorem Spreads.load (h : Spreads e e') (rest : e.spreading ≠ {}) : e'.load < e.load := by
  cases h with
  | @cascade a cascades states telling hspreading =>
    obtain ⟨flow, dropped, journal, h⟩ := schedules_submit
      (({ e with spreading := ⟨cascades, states, telling⟩ } : Engine).say .debug .fanout
        ("change bitmap requests " ++ a.toText)) a
    rw [h, Engine.load, Engine.load, weight_eq, weight_eq e, hspreading, Spreading.weight,
      Spreading.weight, List.length_cons]
    change e.reports.items.length + 2 * e.found.length + e.findings.items.length +
      2 * (e.findings.items.flatMap _).length + e.execution.weight +
        (cascades.length + 2 * states.length + telling.weight) < _
    dsimp only
    omega
  | @state s states telling reports hspreading hpush =>
    obtain ⟨hitems, -⟩ := Flow.push?_items hpush
    rw [Engine.load, Engine.load, weight_eq, weight_eq e, hspreading]
    change reports.items.length + 2 * e.found.length + e.findings.items.length +
      2 * (e.findings.items.flatMap _).length + e.execution.weight +
        (0 + 2 * states.length + telling.weight) < _
    rw [hitems, List.length_append, List.length_singleton, Spreading.weight, List.length_cons]
    dsimp only
    omega
  | @lookUp n hspreading =>
    obtain ⟨lines, h⟩ := e.lookUp_eq n
    have less : ((e.finding? n).elim Telling.nothing .finding).weight < (Telling.notice n).weight := by
      rcases e.finding? n with _ | f
      · exact Nat.zero_lt_succ _
      · have few := f.length_devices_le
        change 2 + 2 * f.devices.1.length < 3 + 2 * 17
        omega
    rw [h, Engine.load, Engine.load, weight_eq, weight_eq e, hspreading]
    change e.reports.items.length + 2 * e.found.length + e.findings.items.length +
      2 * (e.findings.items.flatMap _).length + e.execution.weight +
        (0 + 2 * 0 + ((e.finding? n).elim Telling.nothing .finding).weight) < _ +
          (0 + 2 * 0 + (Telling.notice n).weight)
    omega
  | @finding f findings hspreading hpush =>
    obtain ⟨hitems, -⟩ := Flow.push?_items hpush
    rw [Engine.load, Engine.load, weight_eq, weight_eq e, hspreading]
    change e.reports.items.length + 2 * e.found.length + findings.items.length +
      2 * (findings.items.flatMap _).length + e.execution.weight + 0 < _
    rw [hitems, List.length_append, List.flatMap_append, List.flatMap_singleton, List.length_append,
      List.length_singleton, Spreading.weight, Telling.weight]
    omega
  | read hspreading _ => exact absurd hspreading rest

/-- Where the reports and the findings have room, the spreading goes on. -/
theorem exists_spreads (sound : e.outbox.Sound) (rest : e.spreading ≠ {})
    (noReport : e.reports.items = []) (noFinding : e.findings.items = []) :
    ∃ e', e.spread? = some e' := by
  rcases hspreading : e.spreading with ⟨_ | ⟨a, cascades⟩, states, telling⟩
  case cons =>
    simp only [spread?, hspreading]
    exact ⟨_, rfl⟩
  rcases states with _ | ⟨s, states⟩
  case cons =>
    obtain ⟨reports, hpush⟩ := Flow.exists_push? noReport sound.reports (.state s)
    simp only [spread?, hspreading, hpush, Option.map_some]
    exact ⟨_, rfl⟩
  cases telling with
  | nothing => exact absurd hspreading rest
  | notice n =>
    simp only [spread?, hspreading]
    exact ⟨_, rfl⟩
  | finding f =>
    obtain ⟨findings, hpush⟩ := Flow.exists_push? noFinding sound.findings f
    simp only [spread?, hspreading, hpush, Option.map_some]
    exact ⟨_, rfl⟩

/-- **Whatever is under way can be moved on** without a message being taken in. -/
theorem exists_relay (sound : e.outbox.Sound)
    (waiting : e.reports.items ≠ [] ∨ e.found ≠ [] ∨ e.findings.items ≠ [] ∨ e.spreading ≠ {}) :
    ∃ m : Move, (m = .takeReport ∨ m = .advance .announcement ∨ m = .advance .spreading) ∧
      e.reading? m = none ∧ (e.step m).load < e.load := by
  have less {m : Move} (hm : m = .takeReport ∨ m = .advance .announcement)
      (weight : (e.step m).weight < e.weight) : (e.step m).load < e.load := by
    have same : (e.step m).spreading = e.spreading :=
      spreading_step (by rcases hm with rfl | rfl <;> nofun) (by rcases hm with rfl | rfl <;> nofun) e
    rw [load, load, same]
    exact Nat.add_lt_add_right weight _
  -- what is nearest to the host has room, so the search begins there
  rcases hreports : e.reports.pop? with _ | ⟨r, reports⟩
  case some => exact ⟨_, .inl rfl, rfl, less (.inl rfl) (weight_takeReport hreports)⟩
  have noReport := Flow.pop?_eq_none_iff.1 hreports
  rcases hfound : e.found with _ | ⟨d, found⟩
  case cons =>
    obtain ⟨reports, hpush⟩ := Flow.exists_push? noReport sound.reports (.device d)
    exact ⟨_, .inr (.inl rfl), rfl, less (.inr rfl) (weight_report hfound hpush)⟩
  rcases hfindings : e.findings.pop? with _ | ⟨f, findings⟩
  case some => exact ⟨_, .inr (.inl rfl), rfl, less (.inr rfl) (weight_found hfound hfindings)⟩
  have noFinding := Flow.pop?_eq_none_iff.1 hfindings
  have rest : e.spreading ≠ {} := by simpa [noReport, hfound, noFinding] using waiting
  obtain ⟨e', hspread⟩ := exists_spreads sound rest noReport noFinding
  refine ⟨_, .inr (.inr rfl), reading?_of_rest rest _, ?_⟩
  have hnext : e.step (.advance .spreading) = e' := by
    rw [step, advance?, hspread, Option.getD_some]
  exact hnext ▸ (spread?_eq_some hspread).load rest

/-- Nothing of what was set out is held up for ever. -/
theorem exists_relays (sound : e.outbox.Sound) : ∃ more : List Move,
    (∀ m ∈ more, m = .takeReport ∨ m = .advance .announcement ∨ m = .advance .spreading) ∧
      e.readings more = [] ∧ (e.run more).isRunning = e.isRunning ∧
      (e.run more).reports.items = [] ∧ (e.run more).found = [] ∧
      (e.run more).findings.items = [] ∧ (e.run more).spreading = {} := by
  induction hload : e.load using Nat.strong_induction_on generalizing e with
  | h n ih =>
    by_cases waiting : e.reports.items ≠ [] ∨ e.found ≠ [] ∨ e.findings.items ≠ [] ∨
      e.spreading ≠ {}
    · obtain ⟨m, hm, reading, less⟩ := exists_relay sound waiting
      have stop : m ≠ .stop := by
        rintro rfl
        rcases hm with h | h | h <;> cases h
      have kept : (e.step m).outbox.Sound := by
        rcases hm with rfl | rfl | rfl
        · exact (underway_takeReport sound).1
        · exact (underway_step (m := .advance .announcement) nofun nofun nofun sound).1
        · exact (underway_step (m := .advance .spreading) nofun nofun nofun sound).1
      obtain ⟨more, hmore, readings, running, rest⟩ := ih _ (hload ▸ less) kept rfl
      refine ⟨m :: more, List.forall_mem_cons.2 ⟨hm, hmore⟩, ?_,
        running.trans (isRunning_step stop e), rest⟩
      rw [readings_cons, reading]
      exact readings
    · simp only [not_or, not_not] at waiting
      exact ⟨[], List.forall_mem_nil _, rfl, rfl, waiting⟩

/-! ## The reports of a run -/

/-- the devices that wait to be reported -/
def undelivered (e : Engine) : List Device := e.found ++ e.findings.items.flatMap (·.devices.1)

/-- The reports of a run of a new engine come from the messages that were taken in: the states, one
message after another, and the devices, one finding after another, the announcements among the
findings being those of the messages. -/
structure Relayed (e : Engine) (moves : List Move) : Prop where
  states : (e.reported moves).filterMap Report.state? ++ (e.run moves).spreading.states =
    e.collect newStates moves
  devices : ∃ passed : List Finding,
    (e.reported moves).filterMap Report.device? ++ (e.run moves).undelivered =
        passed.flatMap (·.devices.1) ∧
      passed.filter Finding.isAnnouncement ++ (e.run moves).outbox.announcements =
        e.collect newAnnouncements moves

/-- an engine that did nothing yet -/
def new (settings : EngineSettings) (t : Transceiver) : Engine :=
  { settings := settings, transceiver := t }

variable (settings : EngineSettings) (t : Transceiver)

theorem relayed_run {moves : List Move} (running : ((new settings t).run moves).isRunning = true) :
    (new settings t).Relayed moves := by
  have conveys := conveys_run running
  obtain ⟨passed, devices, announcements⟩ := conveys.devices
  refine ⟨?_, passed, ?_, announcements.symm⟩
  · rw [reported, List.filterMap_append, List.append_assoc]
    exact conveys.states.symm
  · rw [reported, List.filterMap_append, List.append_assoc]
    exact devices.symm

/-- **Nothing is reported that was not set out before, and all of it in order**, in every run. -/
theorem reported_isPrefix (moves : List Move) :
    ((new settings t).reported moves).filterMap Report.state? <+:
        (new settings t).collect newStates moves ∧
      ∃ passed : List Finding,
        ((new settings t).reported moves).filterMap Report.device? <+:
            passed.flatMap (·.devices.1) ∧
          passed.filter Finding.isAnnouncement <+:
            (new settings t).collect newAnnouncements moves := by
  have ofRelayed {moves : List Move} (h : (new settings t).Relayed moves) := And.intro
    (⟨_, h.states⟩ : _ <+: _)
    (h.devices.imp fun passed hpassed => And.intro (⟨_, hpassed.1⟩ : _ <+: _)
      (⟨_, hpassed.2⟩ : _ <+: _))
  obtain running | ⟨before, after, rfl, running⟩ := running_or_stopped moves
    (show (new settings t).isRunning = true from rfl)
  · exact ofRelayed (relayed_run settings t running)
  · -- nothing is added after the first stop, so the run may as well end before it
    obtain ⟨states, announcements, reports⟩ := collect_stop running after
    rw [states, announcements, reports]
    exact ofRelayed (relayed_run settings t running)

/-- **All that was set out is reported in the end**: an engine that is running can report it without
taking in a message. -/
theorem exists_reported (moves : List Move)
    (running : ((new settings t).run moves).isRunning = true) : ∃ more : List Move,
      (∀ m ∈ more, m = .takeReport ∨ m = .advance .announcement ∨ m = .advance .spreading) ∧
      (new settings t).readings (moves ++ more) = (new settings t).readings moves ∧
      ((new settings t).run (moves ++ more)).isRunning = true ∧
      ((new settings t).run (moves ++ more)).spreading = {} ∧
      ((new settings t).reported (moves ++ more)).filterMap Report.state? =
        (new settings t).collect newStates moves ∧
      ∃ passed : List Finding,
        ((new settings t).reported (moves ++ more)).filterMap Report.device? =
            passed.flatMap (·.devices.1) ∧
          passed.filter Finding.isAnnouncement =
            (new settings t).collect newAnnouncements (moves ++ more) := by
  have sound : ((new settings t).run moves).outbox.Sound :=
    ((Census.Counts.empty settings t).run moves).sound
  obtain ⟨more, hmore, readings, same, -, found, findings, spreading⟩ := exists_relays sound
  have still : ((new settings t).run (moves ++ more)).isRunning = true := by
    rw [run_append, same]
    exact running
  obtain ⟨states, passed, devices, announcements⟩ := relayed_run settings t still
  have nothing : (new settings t).readings (moves ++ more) = (new settings t).readings moves := by
    rw [Engine.readings, collect_append]
    exact (congrArg _ readings).trans (List.append_nil _)
  refine ⟨more, hmore, nothing, still, by rw [run_append, spreading], ?_, passed, ?_, ?_⟩
  · rw [run_append, spreading, collect_newStates_eq, nothing, ← collect_newStates_eq] at states
    rw [← states]
    exact (List.append_nil _).symm
  · rw [← devices, undelivered, run_append, found, findings]
    exact (List.append_nil _).symm
  · rw [← announcements, run_append, Outbox.announcements, outbox, spreading]
    exact (List.append_nil _).symm

/-- What is taken in during a run is taken in by the engine at that point of the run. -/
theorem exists_of_mem_readings {e e' : Engine} {m : Message} {moves : List Move}
    (h : (e', m) ∈ e.readings moves) : ∃ before move after, moves = before ++ move :: after ∧
      e' = e.run before ∧ e'.reading? move = some m := by
  induction moves generalizing e with
  | nil => cases h
  | cons move moves ih =>
    rw [readings_cons, List.mem_append, List.mem_map] at h
    rcases h with ⟨m', hm', heq⟩ | later
    · cases heq
      exact ⟨[], move, moves, rfl, rfl, Option.mem_toList.1 hm'⟩
    · obtain ⟨before, move', after, rfl, he', hreading⟩ := ih later
      exact ⟨move :: before, move', after, rfl, he', hreading⟩

end Engine

end BusMaster
