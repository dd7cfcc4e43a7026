import BusMaster.Proofs.Engine.Outbox
import BusMaster.Proofs.Query.Enumeration

/-!
# The census

The host learns of a unit that was given an address when the enumeration is over and has ended well.
The census follows a run of the engine from outside and knows more: it hears every exchange, so it
counts the units that confirm their address when they do, and it sets down with what fault an action
ended (`Census.follow`). Like the ledger of writes it reads the engine and never acts on it.

What the host was told, what is under way to it and what a stop discarded are at all times the units
that confirmed to the actions that ended well (`Census.Counts`). So a unit that confirmed goes
unreported when its enumeration fails afterwards, over a later unit. But for a stop this is the only
way (`confirmed_units_told_iff`), and it happens (`Stray.confirmed_unit_goes_untold`).
-/

namespace BusMaster

/-- an action that came to its end -/
structure Undertaking where
  action : Action
  /-- the units that confirmed meanwhile -/
  confirmed : List Assignment
  /-- what it failed by, if it failed -/
  fault : Option RequestFault

namespace Undertaking

/-- the devices that the host is to be told about -/
def devices (x : Undertaking) : List Device := x.confirmed.map (Assignment.device x.action.node)

/-- the units that confirmed to what ended well -/
def kept (xs : List Undertaking) : List Device :=
  (xs.filter fun x => x.fault.isNone).flatMap devices

/-- the units that confirmed to what failed -/
def lost (xs : List Undertaking) : List Device :=
  (xs.filter fun x => !x.fault.isNone).flatMap devices

@[simp] theorem kept_append (xs ys : List Undertaking) : kept (xs ++ ys) = kept xs ++ kept ys := by
  simp [kept]

/-- Each unit that confirmed was kept or lost. -/
theorem perm_devices (xs : List Undertaking) :
    (kept xs ++ lost xs).Perm (xs.flatMap devices) := by
  rw [kept, lost, ← List.flatMap_append]
  exact (List.filter_append_perm _ xs).flatMap_right _

theorem lost_eq_nil_iff {xs : List Undertaking} :
    lost xs = [] ↔ ∀ x ∈ xs, x.fault ≠ none → x.confirmed = [] := by
  simp [lost, devices, List.flatMap_eq_nil_iff, Option.isSome_iff_ne_none]

end Undertaking

/-- the units of a run -/
structure Census where
  /-- those that confirmed to the action under execution -/
  confirmed : List Assignment := []
  /-- the actions that came to their end, in order -/
  ended : List Undertaking := []
  /-- the reports that the host took -/
  reports : List Report := []
  /-- the controllers that a stop discarded on their way -/
  discarded : List Device := []

namespace Census

/-- the controllers that the host was told about -/
def told (c : Census) : List Device := c.reports.filterMap Report.controller?

/-- the end of an action -/
def conclude (c : Census) (a : Action) (result : Except RequestFault Gain) : Census :=
  let fault :=
    match result with
    | .ok _ => none
    | .error fault => some fault
  { c with confirmed := [], ended := c.ended ++ [⟨a, c.confirmed, fault⟩] }

/-- an exchange -/
def hear (c : Census) (request : Bytes) (result : Except RequestFault Bytes) : Census :=
  { c with confirmed := c.confirmed ++ (Assignment.confirmed? request result).toList }

/-- the end of everything -/
def stop (c : Census) (e : Engine) : Census := { c with
  confirmed := []
  ended := c.ended ++ e.execution.action?.toList.map (⟨·, c.confirmed, some .stopped⟩)
  discarded := c.discarded ++ e.unreported }

/-- what a move of the engine means for the units -/
def follow (c : Census) (e : Engine) : Move → Census
  | .takeReport => { c with reports := c.reports ++ e.takeReport.1.toList }
  | .stop => if e.isRunning then c.stop e else c
  | .advance .execution =>
    match e.execution with
    | .running a (.done result) => c.conclude a result
    | .awaiting _ p _ => c.hear p.request (e.transceiver.finish p).1
    | _ => c
  | _ => c

/-- the census after moves of the engine -/
def run (c : Census) (e : Engine) : List Move → Census
  | [] => c
  | m :: moves => (c.follow e m).run (e.step m) moves

end Census

/-- what the action under execution ends with is what was confirmed to it, these among it -/
def Execution.Accounts : Execution → List Assignment → Prop
  | .running _ rest, confirmed => rest.Ends Gain.Accounts confirmed
  | .awaiting _ p next, confirmed => ∀ result, (next result).Ends Gain.Accounts
      (confirmed ++ (Assignment.confirmed? p.request result).toList)
  | .idle, confirmed | .delivering _, confirmed | .announcing _ _, confirmed => confirmed = []

namespace Census

/-- The census counts what the host is told. -/
structure Counts (c : Census) (e : Engine) : Prop where
  sound : e.outbox.Sound
  current : e.execution.Accounts c.confirmed
  devices : ∀ d, c.told.count d + e.underway.count d + c.discarded.count d =
    (Undertaking.kept c.ended).count d

variable {c : Census} {e e' : Engine}

/-- What an action ended with is handed on. -/
theorem execution_conclude (e : Engine) (a : Action) (result : Except RequestFault Gain) :
    (e.conclude a result).execution.Accounts [] ∧
      (e.conclude a result).execution.controllers =
        match result with
        | .ok gain => gain.assignments.map (Assignment.device a.node)
        | .error _ => [] := by
  rw [Engine.conclude.eq_def]
  dsimp only
  split
  · exact ⟨rfl, rfl⟩
  · exact ⟨rfl, rfl⟩
  · exact ⟨rfl, rfl⟩
  · split
    · rw [(Engine.offers_submit ..).execution]
      exact ⟨rfl, rfl⟩
    · exact ⟨rfl, rfl⟩
  · split <;> exact ⟨rfl, rfl⟩

/-- An action at its end hands on the units that confirmed to it, unless it failed. -/
theorem Counts.conclude (h : c.Counts e) {a : Action} {result : Except RequestFault Gain}
    (hexec : e.execution = .running a (.done result)) :
    (c.conclude a result).Counts (e.conclude a result) := by
  have current := h.current
  rw [hexec] at current
  obtain ⟨accounts, controllers⟩ := execution_conclude e a result
  refine ⟨(e.outbox_conclude a result) ▸ h.sound, accounts, fun d => ?_⟩
  have before := h.devices d
  rw [Engine.underway, hexec] at before
  change _ + (e.outbox.controllers ++ []).count d + _ = _ at before
  rw [Engine.underway, e.outbox_conclude, controllers]
  cases result with
  | error fault =>
    change _ = (Undertaking.kept (c.ended ++ [⟨a, c.confirmed, some fault⟩])).count d
    rw [Undertaking.kept_append]
    exact before.trans (congrArg (List.count d) (List.append_nil _).symm)
  | ok gain =>
    change c.told.count d + (e.outbox.controllers ++ gain.assignments.map _).count d +
      c.discarded.count d = (Undertaking.kept (c.ended ++ [⟨a, c.confirmed, none⟩])).count d
    have hunits : Undertaking.kept [⟨a, c.confirmed, none⟩] =
        gain.assignments.map (Assignment.device a.node) := by
      rw [show gain.assignments = c.confirmed from current gain rfl]
      exact List.append_nil _
    rw [Undertaking.kept_append, hunits, List.count_append, List.count_append]
    rw [List.append_nil] at before
    omega

/-- Whatever an action does, it accounts for what will be confirmed to it. -/
theorem ends_sessionOf (e : Engine) (a : Action) : (e.sessionOf a).Ends Gain.Accounts [] := by
  rw [Engine.sessionOf]
  split
  · exact a.ends_session _
  · exact Action.ends_refuse _

/-- The action under execution goes on, or another begins. -/
theorem Counts.goOn {c' : Census} (h : c.Counts e)
    (same : c' = { c with confirmed := c'.confirmed }) (outbox : e'.outbox = e.outbox)
    (controllers : e'.execution.controllers = e.execution.controllers)
    (accounts : e'.execution.Accounts c'.confirmed) : c'.Counts e' := by
  refine ⟨outbox ▸ h.sound, accounts, fun d => ?_⟩
  rw [same, Engine.underway, outbox, controllers]
  exact h.devices d

theorem Counts.executes (h : c.Counts e) (step : Engine.Executes e e') :
    (c.follow e (.advance .execution)).Counts e' := by
  have current := h.current
  cases step with
  | @begin a rest hexec hpop =>
    rw [hexec] at current
    rw [follow, hexec]
    refine h.goOn rfl rfl (hexec ▸ rfl) (?_ : (e.sessionOf a).Ends Gain.Accounts c.confirmed)
    rw [show c.confirmed = [] from current]
    exact ends_sessionOf e a
  | conclude hexec =>
    rw [follow, hexec]
    exact h.conclude hexec
  | note hexec =>
    rw [hexec] at current
    rw [follow, hexec]
    exact h.goOn rfl rfl (hexec ▸ rfl) current
  | @tell a request next result t hexec hsend =>
    rw [hexec] at current
    rw [follow, hexec]
    exact h.goOn rfl rfl (hexec ▸ rfl) (current result)
  | @ask a request next result t hexec hbegin =>
    rw [hexec] at current
    rw [follow, hexec]
    -- nobody heard a request that did not go out, so nobody confirms it
    obtain ⟨fault, rfl⟩ := (Transceiver.begin_finished hbegin).2.2.2 rfl
    have accounts := current (.error fault)
    rw [Assignment.confirmed?_error, Option.toList_none, List.append_nil] at accounts
    exact h.goOn rfl rfl (hexec ▸ rfl) accounts
  | @await a request next p t hexec hbegin =>
    rw [hexec] at current
    rw [follow, hexec]
    obtain ⟨-, -, -, -, -, -, hrequest, -⟩ := Transceiver.begin_waiting hbegin
    refine h.goOn rfl rfl (hexec ▸ rfl) fun result => ?_
    rw [hrequest]
    exact current result
  | @finish a p next result t hexec hfinish =>
    rw [hexec] at current
    rw [follow, hexec]
    dsimp only
    rw [hfinish]
    exact h.goOn rfl rfl (hexec ▸ rfl) (current result)
  | deliver hexec hpush =>
    rw [hexec] at current
    rw [follow, hexec]
    exact h.goOn rfl rfl (hexec ▸ rfl) current
  | announced hexec =>
    rw [hexec] at current
    rw [follow, hexec]
    exact h.goOn rfl rfl (hexec ▸ rfl) current
  | @announce node unit units findings hexec hpush =>
    rw [hexec] at current
    rw [follow, hexec]
    obtain ⟨hitems, hcapacity⟩ := Flow.push?_items hpush
    refine ⟨⟨h.sound.telling, hcapacity ▸ h.sound.findings, h.sound.reports⟩, current, fun d => ?_⟩
    rw [Engine.underway_announcing hexec hpush]
    exact h.devices d

theorem Counts.execution (h : c.Counts e) :
    (c.follow e (.advance .execution)).Counts (e.step (.advance .execution)) := by
  obtain ⟨e', hnext, executes⟩ | ⟨hsame, waits⟩ := e.executes_or_waits
  · rw [hnext]
    exact h.executes executes
  · rw [hsame]
    rcases waits with ⟨hexec, -⟩ | ⟨m, hexec⟩ | ⟨node, units, hexec⟩
    all_goals
      rw [follow, hexec]
      exact h

theorem Counts.takeReport (h : c.Counts e) :
    (c.follow e .takeReport).Counts (e.step .takeReport) := by
  obtain ⟨sound, hunderway⟩ := Engine.underway_takeReport h.sound
  have hexec : (e.step .takeReport).execution = e.execution :=
    (Engine.appends_step (m := .takeReport) rfl e).execution
  refine ⟨sound, hexec ▸ h.current, fun d => ?_⟩
  have before := h.devices d
  rw [hunderway, List.count_append] at before
  rw [follow, Census.told, List.filterMap_append, List.count_append]
  change c.told.count d + _ + _ + c.discarded.count d = (Undertaking.kept c.ended).count d
  omega

theorem Counts.stop (h : c.Counts e) : (c.follow e .stop).Counts (e.step .stop) := by
  rw [follow]
  by_cases running : e.isRunning = true
  · rw [if_pos running]
    refine ⟨Engine.sound_stop h.sound, ?_, fun d => ?_⟩
    · change e.stop.execution.Accounts []
      rw [(Engine.outbox_stop running).2]
      rfl
    · have before := h.devices d
      rw [Engine.underway_stop running, List.count_append] at before
      have hkept (a : Option Action) :
          Undertaking.kept (a.toList.map (⟨·, c.confirmed, some .stopped⟩)) = [] := by
        cases a <;> rfl
      change c.told.count d + e.stop.underway.count d + (c.discarded ++ _).count d =
        (Undertaking.kept (c.ended ++ _)).count d
      rw [Undertaking.kept_append, hkept, List.append_nil, List.count_append]
      omega
  · rw [if_neg running, Engine.step, Engine.stop, if_neg running]
    exact h.goOn rfl rfl rfl h.current

/-- A move of the engine and what the census makes of it. -/
theorem Counts.follow (h : c.Counts e) (m : Move) : (c.follow e m).Counts (e.step m) := by
  by_cases take : m = .takeReport
  · exact take ▸ h.takeReport
  by_cases stop : m = .stop
  · exact stop ▸ h.stop
  by_cases execution : m = .advance .execution
  · exact execution ▸ h.execution
  obtain ⟨sound, hunderway, hexec⟩ := Engine.underway_step take stop execution h.sound
  have hfollow : c.follow e m = c := by
    cases m with
    | takeReport => exact absurd rfl take
    | stop => exact absurd rfl stop
    | advance consumer =>
      cases consumer with
      | execution => exact absurd rfl execution
      | _ => rfl
    | _ => rfl
  rw [hfollow]
  exact ⟨sound, hexec ▸ h.current, fun d => hunderway ▸ h.devices d⟩

/-- The census of an engine that did nothing yet. -/
theorem Counts.empty (settings : EngineSettings) (t : Transceiver) :
    ({} : Census).Counts { settings := settings, transceiver := t } where
  sound := ⟨nofun, Nat.lt_of_lt_of_le Nat.one_pos (Nat.le_max_right ..),
    Nat.lt_of_lt_of_le Nat.one_pos (Nat.le_max_right ..)⟩
  current := rfl
  devices _ := rfl

/-- **After every run the census counts what the host is told.** -/
theorem Counts.run (h : c.Counts e) (moves : List Move) : (c.run e moves).Counts (e.run moves) := by
  induction moves generalizing c e with
  | nil => exact h
  | cons m moves ih => exact ih (h.follow m)

/-- Where each unit that confirmed is. -/
theorem Counts.perm (h : c.Counts e) :
    (c.told ++ e.underway ++ c.discarded ++ Undertaking.lost c.ended).Perm
      (c.ended.flatMap Undertaking.devices) := by
  refine (List.Perm.append_right _ ?_).trans (Undertaking.perm_devices c.ended)
  rw [List.perm_iff_count]
  intro d
  rw [List.count_append, List.count_append]
  exact h.devices d

/-- Nothing of what ended well and was not discarded waits for ever. -/
theorem Counts.exists_deliveries (h : c.Counts e) : ∃ more : List Move,
    (∀ m ∈ more, m = .takeReport ∨ m = .advance .announcement ∨ m = .advance .execution) ∧
      (c.run e more).ended = c.ended ∧ (c.run e more).discarded = c.discarded ∧
      (e.run more).underway = [] := by
  induction hw : e.weight using Nat.strong_induction_on generalizing c e with
  | h w ih =>
    rcases Nat.eq_zero_or_pos w with hzero | waiting
    · exact ⟨[], fun m hm => (nomatch hm), rfl, rfl, Engine.underway_of_weight (hw.trans hzero)⟩
    obtain ⟨m, hm, hless⟩ := Engine.exists_delivery h.sound (hw ▸ waiting)
    have hsame : (c.follow e m).ended = c.ended ∧ (c.follow e m).discarded = c.discarded := by
      rcases hm with rfl | rfl | ⟨rfl, node, units, hexec⟩
      · exact ⟨rfl, rfl⟩
      · exact ⟨rfl, rfl⟩
      · rw [Census.follow, hexec]
        exact ⟨rfl, rfl⟩
    obtain ⟨more, hmore, hended, hdiscarded, hnone⟩ := ih _ (hw ▸ hless) (h.follow m) rfl
    refine ⟨m :: more, ?_, hended.trans hsame.1, hdiscarded.trans hsame.2, hnone⟩
    rw [List.forall_mem_cons]
    refine ⟨?_, hmore⟩
    rcases hm with rfl | rfl | ⟨rfl, -⟩
    · exact .inl rfl
    · exact .inr (.inl rfl)
    · exact .inr (.inr rfl)

end Census

/-- **A unit that confirmed its address is reported unless its enumeration fails.** Of the units that
confirmed, each is one the host was told about, one that is on its way, one that a stop discarded, or
one whose enumeration failed. Nothing on its way is held up, so all that is missing in the end are
the discarded and the failed: each confirmation gets its report iff there are none. -/
theorem confirmed_units_told_iff (settings : EngineSettings) (t : Transceiver)
    (moves : List Move) :
    let e₀ : Engine := { settings := settings, transceiver := t }
    let e := e₀.run moves
    let c := Census.run {} e₀ moves
    let confirmed := c.ended.flatMap Undertaking.devices
    (c.told ++ e.underway ++ c.discarded ++ Undertaking.lost c.ended).Perm confirmed ∧
    ∃ more : List Move,
      (∀ m ∈ more, m = .takeReport ∨ m = .advance .announcement ∨ m = .advance .execution) ∧
      (c.run e more).ended = c.ended ∧
      ((c.run e more).told.Perm confirmed ↔
        c.discarded = [] ∧ ∀ x ∈ c.ended, x.fault ≠ none → x.confirmed = []) := by
  intro e₀ e c confirmed
  have counts : c.Counts e := (Census.Counts.empty settings t).run moves
  refine ⟨counts.perm, ?_⟩
  obtain ⟨more, hmore, hended, hdiscarded, hnone⟩ := counts.exists_deliveries
  refine ⟨more, hmore, hended, ?_⟩
  have after := (counts.run more).perm
  rw [hended, hdiscarded, hnone, List.append_nil, List.append_assoc] at after
  rw [← Undertaking.lost_eq_nil_iff, ← List.append_eq_nil_iff]
  constructor
  · intro all
    have hlength := (after.trans all.symm).length_eq
    rw [List.length_append] at hlength
    exact List.length_eq_zero_iff.1 (by omega)
  · intro hmissing
    rw [hmissing, List.append_nil] at after
    exact after

/-! ## A unit that goes unreported

Of two units the first answers and confirms its address. The second refuses to give its serial
number, so the enumeration fails, and the first is not reported although it has its address.
-/

namespace Stray

/-- the hand-out of addresses from 2 on -/
def handOut : Action where
  dataset := 1
  node := 1
  cls := .setLogicalAddress
  action := .write
  address := 2
  length := 1

/-- the reset is not answered, the first query and the assignment are, the second query is refused -/
def line : Line where
  writes := [.taken [], .taken [.bytes [0, 2, 0, 0, 0, 6, 1, 0x46, 0, 1, 2, 3]],
    .taken [.bytes [0, 3, 0, 0, 0, 7, 0, 0x6D, 0, 1, 2, 3, 2]],
    .taken [.bytes [0, 4, 0, 0, 0, 3, 1, 0xC6, 4]]]

def transceiver : Transceiver where
  settings := { framing := .bridge, endpoint := .tcp "bus" 502 }
  attempts := [.ok line]

def moves : List Move :=
  [.connect, .addNode 1 ⟨⟨17⟩, .vendor⟩, .submit handOut] ++ List.replicate 11 (.advance .execution)

def engine : Engine := Engine.run { settings := {}, transceiver := transceiver } moves

def census : Census := Census.run {} { settings := {}, transceiver := transceiver } moves

theorem census_ended : census.ended.map (fun x => (x.confirmed, x.fault)) =
    [([⟨0x00010203, ⟨2⟩⟩], some (.exception .serverDeviceFailure))] := by
  decide +kernel

theorem confirmed_unit_goes_untold : ∃ more : List Move,
    (∀ m ∈ more, m = .takeReport ∨ m = .advance .announcement ∨ m = .advance .execution) ∧
      ¬(census.run engine more).told.Perm (census.ended.flatMap Undertaking.devices) := by
  obtain ⟨-, more, hmore, -, hiff⟩ := confirmed_units_told_iff {} transceiver moves
  refine ⟨more, hmore, fun all => ?_⟩
  obtain ⟨-, hconfirmed⟩ := hiff.1 all
  obtain ⟨x, rest, hended, hx, -⟩ := List.map_eq_cons_iff.1 census_ended
  obtain ⟨hunits, hfault⟩ := Prod.mk.inj hx
  have hmem : x ∈ census.ended := by
    rw [hended]
    exact List.mem_cons_self ..
  have hnone := hconfirmed x hmem (by simp [hfault])
  rw [hnone] at hunits
  cases hunits

end Stray

end BusMaster
