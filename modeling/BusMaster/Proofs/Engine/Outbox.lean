import BusMaster.Proofs.Engine.Scheduling

/-!
# On the way to the host

What an action brought goes through the spreading of messages, the flow of findings and the list of
devices found into the flow of reports (`Outbox`). A controller that was given an address enters
with its action's end and leaves when the host takes the report. In between it is moved on and never
lost, doubled or overtaken: what is under way stays the same, in its order, under every move but
those of the execution, the taking of a report and a stop (`Engine.underway_step`). Nor is it ever
stuck: whatever waits can be moved on by a consumer or the host (`Engine.exists_delivery`).
-/

namespace BusMaster

/-! ## Controllers -/

/-- the device that a unit with a new address is -/
def Assignment.device (node : NodeId) (a : Assignment) : Device :=
  ⟨.controller, node, a.unit, 0, 0, some a.serial⟩

/-- the device was given a logical address -/
def Device.isController (d : Device) : Bool := decide (d.kind = .controller)

/-- the controllers among the devices of a finding -/
def Finding.controllers (f : Finding) : List Device := f.devices.1.filter Device.isController

/-- the controller a report is about -/
def Report.controller? : Report → Option Device
  | .device d => if d.isController then some d else none
  | .state _ => none

@[simp] theorem Finding.controllers_assignment (node : NodeId) (a : Assignment) :
    (Finding.assignment node a).controllers = [a.device node] := rfl

/-- What a node announces are thermostats and actuators. -/
@[simp] theorem Finding.controllers_announcement (node : NodeId) (unit : UnitId) (address : UInt16)
    (payload : Payload) : (Finding.announcement node unit address payload).controllers = [] := by
  have none (element : UInt8) (channels : List UInt8) :
      (devicesAt node unit element channels).filter Device.isController = [] := by
    rw [List.filter_eq_nil_iff]
    intro d hd
    rw [devicesAt, List.mem_append, List.mem_map, List.mem_map] at hd
    obtain ⟨_, -, rfl⟩ | ⟨_, -, rfl⟩ := hd <;> exact Bool.false_ne_true
  rw [controllers, devices.eq_def]
  dsimp only
  split
  · split
    · rfl
    · exact none ..
  · rfl

/-! ## The outbox -/

/-- what was brought and has not reached the host -/
structure Outbox where
  spreading : Spreading
  findings : Flow Finding
  found : List Device
  reports : Flow Report

namespace Outbox

/-- the controllers that are not among the reports yet, the oldest first -/
def unreported (o : Outbox) : List Device :=
  o.found.filter Device.isController ++ o.findings.items.flatMap Finding.controllers

/-- the controllers that wait, the oldest first -/
def controllers (o : Outbox) : List Device :=
  o.reports.items.filterMap Report.controller? ++ o.unreported

/-- The flows have room for something, and no controller comes with a message. -/
structure Sound (o : Outbox) : Prop where
  telling : ∀ f, o.spreading.telling = .finding f → f.controllers = []
  findings : 0 < o.findings.capacity
  reports : 0 < o.reports.capacity

/-- how much there is to move on -/
def weight (o : Outbox) : Nat :=
  o.reports.items.length + 2 * o.found.length + o.findings.items.length +
    2 * (o.findings.items.flatMap fun f => f.devices.1).length

end Outbox

/-- the controllers that were not handed on yet -/
def Execution.controllers : Execution → List Device
  | .announcing node units => units.map (Assignment.device node)
  | _ => []

/-- how much there is to hand on -/
def Execution.weight : Execution → Nat
  | .announcing _ units => 4 * units.length
  | _ => 0

theorem Flow.exists_push? {α : Type} {f : Flow α} (empty : f.items = []) (room : 0 < f.capacity)
    (a : α) : ∃ g, f.push? a = some g := by
  rw [push?, dif_pos (by rwa [empty])]
  exact ⟨_, rfl⟩

namespace Engine

/-- what was brought and has not reached the host -/
def outbox (e : Engine) : Outbox := ⟨e.spreading, e.findings, e.found, e.reports⟩

/-- the controllers on their way to the host, the oldest first -/
def underway (e : Engine) : List Device := e.outbox.controllers ++ e.execution.controllers

/-- those that are not among the reports yet -/
def unreported (e : Engine) : List Device := e.outbox.unreported ++ e.execution.controllers

variable {e e' : Engine}

/-! ## Moves that do not touch it -/

theorem Schedules.outbox {actions : List Action} (h : Schedules e actions e') :
    e'.outbox = e.outbox := by
  obtain ⟨flow, dropped, journal, rfl⟩ := h
  rfl

theorem outbox_conclude (e : Engine) (a : Action) (result : Except RequestFault Gain) :
    (e.conclude a result).outbox = e.outbox := by
  obtain ⟨execution, failures, transceiver, actions, -, schedules⟩ := schedules_conclude e a result
  exact schedules.outbox

/-- The calls of the host and the composition of writes leave it as it is. -/
theorem outbox_step {m : Move} (take : m ≠ .takeReport) (stop : m ≠ .stop)
    (consumer : ∀ c, m = .advance c → c = .composition) (e : Engine) :
    (e.step m).outbox = e.outbox := by
  rcases planning : m.isPlanning with _ | _
  · cases m with
    | takeReport => exact absurd rfl take
    | stop => exact absurd rfl stop
    | connect =>
      simp only [step]
      split <;> rfl
    | disconnect =>
      simp only [step]
      split <;> rfl
    | write s =>
      simp only [step, write?]
      split
      · rcases e.states.push? s with _ | states <;> rfl
      · rfl
    | pass length => rfl
    | advance c =>
      obtain rfl := consumer c rfl
      obtain ⟨states, actions, -, schedules⟩ := e.schedules_composition
      exact schedules.outbox
    | _ => cases planning
  · have edits : (e.edited m).outbox = e.outbox := by cases m <;> rfl
    exact (schedules_step planning e).outbox.trans edits

/-! ## Moves that move it on -/

/-- What is done for a message moves no controller. -/
theorem Spreads.outbox (sound : e.outbox.Sound) (h : Spreads e e') :
    e'.outbox.Sound ∧ e'.outbox.controllers = e.outbox.controllers := by
  cases h with
  | @cascade a cascades states telling hspreading =>
    have set := (schedules_note ({ e with spreading := ⟨cascades, states, telling⟩ } : Engine)
      [⟨.debug, .fanout, "change bitmap requests " ++ a.toText⟩]).trans (schedules_submit _ a)
    rw [say, set.outbox]
    exact ⟨⟨fun f hf => sound.telling f ((congrArg Spreading.telling hspreading).trans hf),
      sound.findings, sound.reports⟩, rfl⟩
  | @state s states telling reports hspreading hpush =>
    obtain ⟨hitems, hcapacity⟩ := Flow.push?_items hpush
    refine ⟨⟨fun f hf => sound.telling f ((congrArg Spreading.telling hspreading).trans hf),
      sound.findings, hcapacity ▸ sound.reports⟩, ?_⟩
    change Outbox.controllers ⟨_, e.findings, e.found, reports⟩ = _
    simp [Outbox.controllers, Outbox.unreported, hitems, Engine.outbox, Report.controller?]
  | @lookUp n _ =>
    obtain ⟨lines, h⟩ := e.lookUp_eq n
    rw [h]
    refine ⟨⟨fun f hf => ?_, sound.findings, sound.reports⟩, rfl⟩
    rcases hfinding : e.finding? n with _ | finding
    · rw [Engine.outbox, note, hfinding] at hf
      cases hf
    · rw [Engine.outbox, note, hfinding] at hf
      obtain rfl := Telling.finding.inj hf
      obtain ⟨node, rfl⟩ := exists_of_finding? hfinding
      exact Finding.controllers_announcement ..
  | @finding finding findings hspreading hpush =>
    obtain ⟨hitems, hcapacity⟩ := Flow.push?_items hpush
    refine ⟨⟨fun f hf => (by cases hf), hcapacity ▸ sound.findings, sound.reports⟩, ?_⟩
    have hnone : finding.controllers = [] :=
      sound.telling finding (congrArg Spreading.telling hspreading)
    change Outbox.controllers ⟨_, findings, e.found, e.reports⟩ = _
    simp [Outbox.controllers, Outbox.unreported, hitems, Engine.outbox, hnone]
  | @read m messages hspreading _ =>
    obtain ⟨lines, h⟩ := spread_eq (e := { e with messages := messages }) m hspreading
    rw [h]
    refine ⟨⟨fun f hf => ?_, sound.findings, sound.reports⟩, rfl⟩
    rw [Engine.outbox, note] at hf
    rcases hnotice : ({ e with messages := messages } : Engine).notice? m with _ | n
    · rw [hnotice] at hf
      cases hf
    · rw [hnotice] at hf
      cases hf

theorem outbox_announce? (sound : e.outbox.Sound) (h : e.announce? = some e') :
    e'.outbox.Sound ∧ e'.outbox.controllers = e.outbox.controllers := by
  rw [announce?] at h
  split at h
  · rename_i d found hfound
    obtain ⟨reports, hpush, rfl⟩ := Option.map_eq_some_iff.1 h
    obtain ⟨hitems, hcapacity⟩ := Flow.push?_items hpush
    refine ⟨⟨sound.telling, sound.findings, hcapacity ▸ sound.reports⟩, ?_⟩
    change Outbox.controllers ⟨_, e.findings, found, reports⟩ = _
    by_cases hd : d.isController = true <;>
      simp [Outbox.controllers, Outbox.unreported, hitems, outbox, hfound, Report.controller?, hd]
  · rename_i hfound
    obtain ⟨⟨finding, findings⟩, hpop, rfl⟩ := Option.map_eq_some_iff.1 h
    obtain ⟨hitems, hcapacity⟩ := Flow.pop?_items hpop
    refine ⟨⟨sound.telling, hcapacity ▸ sound.findings, sound.reports⟩, ?_⟩
    change Outbox.controllers ⟨_, findings, finding.devices.1, e.reports⟩ = _
    simp [Outbox.controllers, Outbox.unreported, hitems, outbox, hfound, Finding.controllers]

/-- A unit is handed on. -/
theorem underway_announcing {node : NodeId} {unit : Assignment} {units : List Assignment}
    {findings : Flow Finding} (hexec : e.execution = .announcing node (unit :: units))
    (hpush : e.findings.push? (.assignment node unit) = some findings) :
    ({ e with findings := findings, execution := .announcing node units } : Engine).underway =
      e.underway := by
  obtain ⟨hitems, -⟩ := Flow.push?_items hpush
  simp [underway, outbox, Outbox.controllers, Outbox.unreported, Execution.controllers, hexec,
    hitems]

/-- **What is under way stays under way**, until the host takes it. -/
theorem underway_step {m : Move} (take : m ≠ .takeReport) (stop : m ≠ .stop)
    (execution : m ≠ .advance .execution) (sound : e.outbox.Sound) :
    (e.step m).outbox.Sound ∧ (e.step m).underway = e.underway ∧
      (e.step m).execution = e.execution := by
  have same := execution_step stop execution e
  suffices (e.step m).outbox.Sound ∧ (e.step m).outbox.controllers = e.outbox.controllers by
    refine ⟨this.1, ?_, same⟩
    rw [underway, this.2, same, underway]
  by_cases hmoved : m = .advance .spreading ∨ m = .advance .announcement
  · rcases hmoved with rfl | rfl
    · obtain ⟨e', hnext, spreads⟩ | ⟨hsame, -⟩ := e.spreads_or_waits
      · rw [hnext]
        exact spreads.outbox sound
      · rw [hsame]
        exact ⟨sound, rfl⟩
    · simp only [step, advance?]
      rcases h : e.announce? with _ | e'
      · exact ⟨sound, rfl⟩
      · exact outbox_announce? sound h
  · rw [outbox_step take stop (fun c hc => ?_) e]
    · exact ⟨sound, rfl⟩
    · subst hc
      cases c with
      | execution => exact absurd rfl execution
      | spreading => exact absurd (.inl rfl) hmoved
      | announcement => exact absurd (.inr rfl) hmoved
      | composition => rfl

/-- A controller leaves when its report is taken. -/
theorem underway_takeReport (sound : e.outbox.Sound) :
    (e.step .takeReport).outbox.Sound ∧ e.underway =
      e.takeReport.1.toList.filterMap Report.controller? ++ (e.step .takeReport).underway := by
  simp only [step, takeReport]
  rcases hpop : e.reports.pop? with _ | ⟨r, reports⟩
  · exact ⟨sound, rfl⟩
  · obtain ⟨hitems, hcapacity⟩ := Flow.pop?_items hpop
    refine ⟨⟨sound.telling, sound.findings, hcapacity ▸ sound.reports⟩, ?_⟩
    change e.reports.items.filterMap _ ++ _ ++ _ = [r].filterMap _ ++
      (reports.items.filterMap _ ++ _ ++ _)
    rw [hitems, ← List.singleton_append, List.filterMap_append, List.append_assoc,
      List.append_assoc, List.append_assoc]
    rfl

theorem outbox_stop (running : e.isRunning = true) :
    e.stop.outbox = ⟨{}, e.findings.clear, [], e.reports⟩ ∧ e.stop.execution = .idle := by
  have closed (e : Engine) (lines : List LogLine) :
      (e.note lines).disconnect.outbox = e.outbox := rfl
  refine ⟨?_, execution_stop running⟩
  obtain ⟨lines, hstop⟩ := stop_eq running
  obtain ⟨actions, -, schedules⟩ := schedules_foldl_compose e.states.items e.emptied
  rw [hstop, closed, schedules.outbox]
  rfl

/-- A stop discards what is not among the reports yet. -/
theorem underway_stop (running : e.isRunning = true) :
    e.underway = e.stop.underway ++ e.unreported := by
  rw [underway, underway, (outbox_stop running).1, (outbox_stop running).2]
  simp [Outbox.controllers, Outbox.unreported, unreported, outbox, Flow.clear,
    Execution.controllers]

theorem sound_stop (sound : e.outbox.Sound) : e.stop.outbox.Sound := by
  by_cases running : e.isRunning = true
  · rw [(outbox_stop running).1]
    exact ⟨nofun, sound.findings, sound.reports⟩
  · rw [Engine.stop, if_neg running]
    exact sound

/-! ## Nothing is stuck -/

/-- how much there is to move on -/
def weight (e : Engine) : Nat := e.outbox.weight + e.execution.weight

theorem weight_eq (e : Engine) : e.weight = e.reports.items.length + 2 * e.found.length +
    e.findings.items.length + 2 * (e.findings.items.flatMap fun f => f.devices.1).length +
    e.execution.weight := rfl

/-- Where nothing waits, nothing is under way. -/
theorem underway_of_weight (h : e.weight = 0) : e.underway = [] := by
  rw [weight_eq] at h
  have hreports : e.reports.items = [] := List.length_eq_zero_iff.1 (by omega)
  have hfound : e.found = [] := List.length_eq_zero_iff.1 (by omega)
  have hfindings : e.findings.items = [] := List.length_eq_zero_iff.1 (by omega)
  have hexecution : e.execution.controllers = [] := by
    cases hexec : e.execution with
    | announcing node units =>
      have hunits : units = [] := by
        rw [hexec, Execution.weight] at h
        exact List.length_eq_zero_iff.1 (by omega)
      rw [hunits]
      rfl
    | _ => rfl
  rw [underway, hexecution, List.append_nil]
  change e.reports.items.filterMap _ ++ (e.found.filter _ ++ e.findings.items.flatMap _) = []
  rw [hreports, hfound, hfindings]
  rfl

/-! Each of the four ways makes it less. -/

theorem weight_takeReport {r : Report} {reports : Flow Report}
    (hpop : e.reports.pop? = some (r, reports)) : (e.step .takeReport).weight < e.weight := by
  obtain ⟨hitems, -⟩ := Flow.pop?_items hpop
  have hstep : e.step .takeReport = { e with reports := reports } := by
    simp only [step, takeReport, hpop]
  rw [hstep, weight_eq, weight_eq e, hitems, List.length_cons]
  dsimp only
  omega

theorem weight_report {d : Device} {found : List Device} {reports : Flow Report}
    (hfound : e.found = d :: found) (hpush : e.reports.push? (.device d) = some reports) :
    (e.step (.advance .announcement)).weight < e.weight := by
  obtain ⟨hitems, -⟩ := Flow.push?_items hpush
  have hstep : e.step (.advance .announcement) =
      ({ e with reports := reports, found := found } : Engine).note [d.line] := by
    simp only [step, advance?, announce?, hfound, hpush, Option.map_some, Option.getD_some]
  rw [hstep, weight_eq, weight_eq e, hfound, List.length_cons]
  change reports.items.length + 2 * found.length + e.findings.items.length +
    2 * (e.findings.items.flatMap _).length + e.execution.weight < _
  rw [hitems, List.length_append, List.length_singleton]
  omega

theorem weight_found {f : Finding} {findings : Flow Finding} (hfound : e.found = [])
    (hpop : e.findings.pop? = some (f, findings)) :
    (e.step (.advance .announcement)).weight < e.weight := by
  obtain ⟨hitems, -⟩ := Flow.pop?_items hpop
  have hstep : e.step (.advance .announcement) =
      ({ e with findings := findings, found := f.devices.1 } : Engine).note f.devices.2 := by
    simp only [step, advance?, announce?, hfound, hpop, Option.map_some, Option.getD_some]
  rw [hstep, weight_eq, weight_eq e, hfound, hitems, List.flatMap_cons, List.length_append]
  change e.reports.items.length + 2 * f.devices.1.length + findings.items.length +
    2 * (findings.items.flatMap _).length + e.execution.weight < _
  rw [List.length_nil, List.length_cons]
  omega

theorem weight_announcing {node : NodeId} {unit : Assignment} {units : List Assignment}
    {findings : Flow Finding} (hexec : e.execution = .announcing node (unit :: units))
    (hpush : e.findings.push? (.assignment node unit) = some findings) :
    (e.step (.advance .execution)).weight < e.weight := by
  obtain ⟨hitems, -⟩ := Flow.push?_items hpush
  have hstep : e.step (.advance .execution) =
      { e with findings := findings, execution := .announcing node units } := by
    simp only [step, advance?, execute?, hexec, hpush, Option.map_some, Option.getD_some]
  rw [hstep, weight_eq, weight_eq e, hexec]
  change e.reports.items.length + 2 * e.found.length + findings.items.length +
    2 * (findings.items.flatMap _).length + 4 * units.length < _ + 4 * (units.length + 1)
  rw [hitems, List.length_append, List.flatMap_append, List.length_append]
  change _ + _ + (_ + 1) + 2 * (_ + 1) + _ < _
  omega

/-- **Whatever waits can be moved on**, by a consumer or by the host. -/
theorem exists_delivery (sound : e.outbox.Sound) (waiting : 0 < e.weight) :
    ∃ m : Move, (m = .takeReport ∨ m = .advance .announcement ∨
      m = .advance .execution ∧ ∃ node units, e.execution = .announcing node units) ∧
      (e.step m).weight < e.weight := by
  rcases hreports : e.reports.pop? with _ | ⟨r, reports⟩
  · have noReport := Flow.pop?_eq_none_iff.1 hreports
    rcases hfound : e.found with _ | ⟨d, found⟩
    · rcases hfindings : e.findings.pop? with _ | ⟨f, findings⟩
      · have noFinding := Flow.pop?_eq_none_iff.1 hfindings
        rw [weight_eq, noReport, hfound, noFinding] at waiting
        cases hexec : e.execution with
        | announcing node units =>
          cases units with
          | nil =>
            rw [hexec] at waiting
            exact absurd waiting (Nat.lt_irrefl 0)
          | cons unit units =>
            obtain ⟨findings, hpush⟩ :=
              Flow.exists_push? noFinding sound.findings (.assignment node unit)
            exact ⟨_, .inr (.inr ⟨rfl, _, _, rfl⟩), weight_announcing hexec hpush⟩
        | _ =>
          rw [hexec] at waiting
          exact absurd waiting (Nat.lt_irrefl 0)
      · exact ⟨_, .inr (.inl rfl), weight_found hfound hfindings⟩
    · obtain ⟨reports, hpush⟩ := Flow.exists_push? noReport sound.reports (.device d)
      exact ⟨_, .inr (.inl rfl), weight_report hfound hpush⟩
  · exact ⟨_, .inl rfl, weight_takeReport hreports⟩

end Engine

end BusMaster
