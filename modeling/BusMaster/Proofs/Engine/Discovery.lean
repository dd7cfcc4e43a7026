import BusMaster.Proofs.Engine.Lookups

/-!
# What internal datasets are for

A message of an internal dataset is kept and not passed on to channels: `Catalog.fansOut` asks for this
before it asks for the policy. So no channel of such a dataset is told anything, and none has a value
(`Catalog.silent_run`). What the message has to say goes to discovery instead, whether it says
anything new or not, and the devices that discovery makes of it are a thermostat and actuators
(`announcedBy`), at the unit that its node has when it is looked up. Devices that were given a logical
address are the controllers, so apart from these the devices that the host is told of are those of the
messages.
-/

namespace BusMaster

/-! ## What a message announces -/

/-- the devices that an internal dataset announces: one thermostat at the lowest set bit of the first
register and one actuator at every set bit, in ascending order, unless the lowest bit of the second
register is set -/
def announcedBy (d : Dataset) (unit : UnitId) : Payload → List Device
  | .registers (a :: b :: c :: s :: _) =>
    let bitmap := 256 * a.toNat + b.toNat
    let status := 256 * c.toNat + s.toNat
    let device (kind : DeviceKind) (bit : Nat) : Device :=
      ⟨kind, d.node, unit, UInt8.ofNat bit, (PackedAddress.ofWord d.address).page, none⟩
    if status.testBit 0 then []
    else
      match (List.range 16).filter bitmap.testBit with
      | [] => []
      | lowest :: higher =>
        device .thermostat lowest :: (lowest :: higher).map (device .actuator)
  | _ => []

/-- The lowest bit of a word is set when the mask of the bit is. -/
theorem and_pairingBit_ne_zero_iff (w : UInt16) :
    w &&& pairingBit ≠ 0 ↔ w.toNat.testBit 0 = true := by
  rw [ne_eq, ← UInt16.toNat_inj, UInt16.toNat_and, Nat.testBit_zero, decide_eq_true_eq]
  change ¬w.toNat &&& 1 = 0 ↔ _
  rw [Nat.and_one_is_mod]
  omega

/-- **Discovery makes of a message what it announces.** -/
theorem devices_announcement (d : Dataset) (unit : UnitId) (p : Payload) :
    (Finding.announcement d.node unit d.address p).devices.1 = announcedBy d unit p := by
  rcases p with s | _ | ⟨a, _ | ⟨b, _ | ⟨c, _ | ⟨s, bytes⟩⟩⟩⟩ <;> try rfl
  rw [Finding.devices, announcedBy]
  dsimp only
  simp only [and_pairingBit_ne_zero_iff, toNat_wordOf]
  split
  · rfl
  · rw [devicesAt, channelsOf, toNat_wordOf]
    cases (List.range 16).filter (256 * a.toNat + b.toNat).testBit with
    | nil => rfl
    | cons lowest higher => simp

/-- Two channels have a device, the first and the third. -/
example :
    (announcedBy { node := 1, cls := .holdingRegister, address := 0x2000, length := 2 } ⟨17⟩
      (.registers [0, 5, 0, 0])).map (fun d => (d.kind, d.channel, d.element)) =
      [(.thermostat, 0, 1), (.actuator, 0, 1), (.actuator, 2, 1)] := by
  decide

/-- the devices that were not given a logical address -/
def announcedOnly (devices : List Device) : List Device := devices.filter fun d => !d.isController

theorem announcedOnly_append (devices devices' : List Device) :
    announcedOnly (devices ++ devices') = announcedOnly devices ++ announcedOnly devices' :=
  List.filter_append ..

/-- Among the devices of findings those that are no controllers are those of the announcements. -/
theorem announcedOnly_flatMap (passed : List Finding) :
    announcedOnly (passed.flatMap (·.devices.1)) =
      (passed.filter Finding.isAnnouncement).flatMap (·.devices.1) := by
  induction passed with
  | nil => rfl
  | cons f passed ih =>
    rw [List.flatMap_cons, announcedOnly_append, ih]
    cases f with
    | assignment node a => rfl
    | announcement node unit address payload =>
      have controllers := Finding.controllers_announcement node unit address payload
      have all : announcedOnly (Finding.announcement node unit address payload).devices.1 =
          (Finding.announcement node unit address payload).devices.1 := by
        refine List.filter_eq_self.2 fun d hd => ?_
        rw [Finding.controllers, List.filter_eq_nil_iff] at controllers
        simpa using controllers d hd
      rw [all]
      rfl

/-! ## What the channels are told -/

namespace Catalog

/-- The channels of an internal dataset have no value and never had one. -/
theorem silent_run (ops : List Operation) {id : ChannelId} {e : ChannelEntry}
    (he : (run {} ops).channels[id]? = some e) {d : Dataset}
    (hd : (run {} ops).dataset? e.channel.dataset = some d) (internal : d.internal = true) :
    e.current = none ∧ e.previous = none := by
  induction ops using List.reverseRecOn generalizing e with
  | nil =>
    change (∅ : Std.TreeMap ChannelId ChannelEntry)[_]? = _ at he
    simp at he
  | append_singleton ops o ih =>
    rw [run_concat] at he hd
    cases heard_perform he with
    | before hold _ _ => exact ih hold (dataset?_perform hold hd)
    | registered _ _ _ => exact ⟨rfl, rfl⟩
    | @told m e hm hold bound passed =>
      rw [channel_refresh] at hd
      have hd := dataset?_perform hold hd
      obtain ⟨entry, hentry, fans⟩ := passed
      rw [dataset?, bound, hentry] at hd
      obtain rfl := Option.some.inj hd
      rw [fansOut, internal] at fans
      cases fans

/-- The dataset of a state is not internal. -/
theorem ordinary_of_mem_states {c : Catalog} (named : Named c) {m : Message} {s : State}
    (hs : s ∈ (c.perform (.apply m)).1.states) : ∃ ch d, c.channel? s.channel = some ch ∧
      ch.dataset = m.dataset ∧ c.dataset? ch.dataset = some d ∧ d.internal = false := by
  obtain ⟨e, he, m', hm', bound, entry, hentry, fans⟩ := tells_of_mem_states named hs
  cases hm'
  refine ⟨e.channel, entry.dataset, ?_, bound.symm, ?_, ?_⟩
  · rw [channel?, he]
    rfl
  · rw [dataset?, ← bound, hentry]
    rfl
  · rw [fansOut, Bool.and_eq_true, Bool.not_eq_true'] at fans
    exact fans.1

end Catalog

namespace Engine

/-- the devices that a message announces, if its node is known -/
def discoveries (e : Engine) (n : Notice) : List Device :=
  match e.nodes[n.dataset.node]? with
  | some node => announcedBy n.dataset node.unit n.payload
  | none => []

theorem discoveries_eq (e : Engine) (n : Notice) :
    e.discoveries n = (e.finding? n).toList.flatMap (·.devices.1) := by
  rw [discoveries, finding?]
  rcases e.nodes[n.dataset.node]? with _ | node
  · rfl
  · rw [Option.map_some, Option.toList_some, List.flatMap_singleton, devices_announcement]

/-- The announcements of a run announce the devices of the messages that are looked up. -/
theorem devices_newAnnouncements (e : Engine) (moves : List Move) :
    (e.collect newAnnouncements moves).flatMap (·.devices.1) =
      (e.lookups moves).flatMap fun x => x.1.discoveries x.2 := by
  rw [collect_newAnnouncements_eq]
  simp only [discoveries_eq, List.filterMap_eq_flatMap_toList, List.flatMap_assoc]

/-- **Internal datasets feed discovery and nothing else.** In every run of a new engine: a state that
is reported comes from a message of a dataset that is not internal, and its channel was bound to it
then; the channels that are bound to an internal dataset have no value, now or before. Each message of
an internal dataset, whether it changed anything or not, has its node looked up once, in order, and
before the next message is taken in: the node is the one that was registered when the message was
taken in, unless the host added or removed it in between (`Consults`). Of the devices that are reported
those that are no controllers are the ones the messages announce, each message its own, in order; none
is reported besides, and none is left out that is not on its way or was discarded by a stop. The
devices of one message are reported together, with no other device between them. -/
theorem internal_datasets_feed_discovery (settings : EngineSettings) (t : Transceiver)
    (moves : List Move) :
    let first := new settings t
    let e := first.run moves
    let read := first.readings moves
    let internal := first.internalReadings moves
    (∀ s ∈ (first.reported moves).filterMap Report.state?, ∃ x ∈ read, ∃ ch d,
      x.1.catalog.channel? s.channel = some ch ∧ ch.dataset = x.2.dataset ∧
        x.1.catalog.dataset? ch.dataset = some d ∧ d.internal = false) ∧
    (∀ id ch d, e.catalog.channel? id = some ch → e.catalog.dataset? ch.dataset = some d →
      d.internal = true → e.catalog.value? id = none ∧ e.catalog.previous? id = none) ∧
    (∃ told, told <+: internal ∧ List.Forall₂ Answers told (first.lookups moves)) ∧
    announcedOnly ((first.reported moves).filterMap Report.device?) <+:
      (first.lookups moves).flatMap (fun x => x.1.discoveries x.2) ∧
    (e.isRunning = true → ∃ more : List Move,
      (∀ m ∈ more, m = .takeReport ∨ m = .advance .announcement ∨ m = .advance .spreading) ∧
      first.readings (moves ++ more) = read ∧
      let looked := first.lookups (moves ++ more)
      let devices := (first.reported (moves ++ more)).filterMap Report.device?
      List.Forall₂ Answers internal looked ∧
      announcedOnly devices = looked.flatMap (fun x => x.1.discoveries x.2) ∧
      ∃ passed : List Finding, devices = passed.flatMap (·.devices.1) ∧
        passed.filter Finding.isAnnouncement = looked.filterMap fun x => x.1.finding? x.2) := by
  intro first e read internal
  obtain ⟨states, passed, devices, announcements⟩ := reported_isPrefix settings t moves
  refine ⟨fun s hs => ?_, fun id ch d hch hd internal => ?_, lookups_answer settings t moves, ?_,
    fun running => ?_⟩
  · have hmem := states.subset hs
    rw [collect_newStates_eq, List.mem_flatMap] at hmem
    obtain ⟨⟨e', m⟩, hx, hs'⟩ := hmem
    obtain ⟨before, move, after, -, rfl, -⟩ := exists_of_mem_readings hx
    have named : Catalog.Named ((new settings t).run before).catalog := by
      rw [catalog_run]
      exact Catalog.named_run _
    exact ⟨_, hx, Catalog.ordinary_of_mem_states named hs'⟩
  · have catalog : e.catalog = Catalog.run {} (first.collect operations moves) :=
      first.catalog_run moves
    rw [catalog] at hch hd ⊢
    obtain ⟨entry, hentry, rfl⟩ := Option.map_eq_some_iff.1 hch
    obtain ⟨current, previous⟩ := Catalog.silent_run _ hentry hd internal
    rw [Catalog.value?_eq hentry, Catalog.previous?, hentry]
    exact ⟨current, previous⟩
  · obtain ⟨rest, hrest⟩ := devices
    obtain ⟨later, hlater⟩ := announcements
    have together : announcedOnly ((first.reported moves).filterMap Report.device?) <+:
        (passed.filter Finding.isAnnouncement).flatMap (·.devices.1) := by
      rw [← announcedOnly_flatMap, ← hrest, announcedOnly_append]
      exact List.prefix_append ..
    refine together.trans ?_
    rw [← devices_newAnnouncements, ← hlater, List.flatMap_append]
    exact List.prefix_append ..
  · obtain ⟨more, hmore, readings, still, done, -, passed, devices, announcements⟩ :=
      exists_reported settings t moves running
    have answers := lookups_answer_all settings t still done
    rw [internalReadings, readings] at answers
    refine ⟨more, hmore, readings, answers, ?_, passed, devices, ?_⟩
    · rw [devices, announcedOnly_flatMap, announcements, devices_newAnnouncements]
    · rw [announcements, collect_newAnnouncements_eq]

end Engine

end BusMaster
