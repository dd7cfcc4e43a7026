import BusMaster.Proofs.Engine.Relay

/-!
# What the host makes of the states

A host sees no catalog, it sees states. `host_mirrors_catalog` says what it can make of them. The
catalog of an engine is the one after the operations of the run, so what is known of the catalog over
runs of operations holds for it: the last state that was told of a channel since it was registered
carries the value of the channel, and the value before that is the one before the last change. The
states of one update come in the order of their channels. And what the engine reports is what the
updates told, one after another, with nothing lost on the way as long as the engine runs.
-/

namespace BusMaster

namespace Engine

/-- **The host's mirror is the catalog.** Over every run of operations on a catalog, and for every
registered channel that is neither a fraction nor a change bitmap and that reports at all: of the
states told since the channel was registered last, the last one carries the value of the channel, and
there is one if and only if the channel has a value. The value before, of any channel that has one, is
the one that the channel had until its value changed last, and differs from the value. The states of
an update are in the order of their channels, one for each at most. And over every run of an engine
the states that are reported are those of the updates, one after another: no other is reported, and
none is left out that is not on its way or was discarded by a stop. -/
theorem host_mirrors_catalog (ops : List Catalog.Operation) (settings : EngineSettings)
    (t : Transceiver) (moves : List Move) :
    let c := Catalog.run {} ops
    (∀ ch, c.channel? ch.id = some ch → ∃ d, c.dataset? ch.dataset = some d ∧
      (ch.cls ≠ .float32 → ch.cls ≠ .changeBitmap → ch.report.getD d.report ≠ .never →
        ∃ before later, Catalog.LastRegistered ops ch before later ∧
          ChannelEntry.Mirrored (Catalog.statesSince before ch later).getLast? (c.value? ch.id))) ∧
    (∀ id p, c.previous? id = some p →
      ∃ v, c.value? id = some v ∧ p.same v = false ∧ Catalog.ChangedLast ops id p v) ∧
    (∀ m u c' lines, c.apply m = .ok (u, c', lines) → (u.states.map (·.channel)).Pairwise (· < ·)) ∧
    let first := new settings t
    let done := first.collect operations moves
    let told := (Catalog.answers {} done).flatMap Catalog.Answer.states
    (first.run moves).catalog = Catalog.run {} done ∧
    (first.reported moves).filterMap Report.state? <+: told ∧
    ((first.run moves).isRunning = true → ∃ more : List Move,
      (∀ m ∈ more, m = .takeReport ∨ m = .advance .announcement ∨ m = .advance .spreading) ∧
      first.readings (moves ++ more) = first.readings moves ∧
      (first.reported (moves ++ more)).filterMap Report.state? = told) := by
  intro c
  refine ⟨fun ch hch => ?_, fun id p hp => ?_,
    fun m u c' lines h => Catalog.sorted_states (Catalog.named_run ops) h, ?_⟩
  · obtain ⟨e, he, rfl⟩ := Option.map_eq_some_iff.1 hch
    obtain ⟨entry, hentry, -⟩ := Catalog.checkChannel_eq_ok ((Catalog.Built.empty.run ops).sound.fits he)
    have hd : c.dataset? e.channel.dataset = some entry.dataset := by
      rw [Catalog.dataset?, hentry]
      rfl
    obtain ⟨before, later, registered, mirrored⟩ := Catalog.mirrored_run ops he
    rw [Catalog.value?_eq he]
    exact ⟨entry.dataset, hd, fun fraction bitmap reports =>
      ⟨before, later, registered, mirrored _ hd bitmap fraction reports⟩⟩
  · obtain ⟨e, he, hprevious⟩ := Option.bind_eq_some_iff.1 hp
    obtain ⟨v, hv, differs, changed⟩ := Catalog.previous_run ops he hprevious
    exact ⟨v, (Catalog.value?_eq he).trans hv, differs, changed⟩
  · intro first done told
    have newStates : first.collect newStates moves = told := first.collect_newStates moves
    refine ⟨first.catalog_run moves, newStates ▸ (reported_isPrefix settings t moves).1,
      fun running => ?_⟩
    obtain ⟨more, hmore, readings, -, -, states, -⟩ := exists_reported settings t moves running
    exact ⟨more, hmore, readings, states.trans newStates⟩

end Engine

namespace Catalog.Tank

/-- The level that was read is the last state told of it, and its value. -/
theorem level_is_mirrored :
    (run {} [.addDataset "tank" dataset, .addChannel level, .apply reading]).value? "level"
        = some (.int 7) ∧
      ∃ before later,
        LastRegistered [.addDataset "tank" dataset, .addChannel level, .apply reading] level before
            later ∧
          ChannelEntry.Mirrored (statesSince before level later).getLast? (some (.int 7)) := by
  obtain ⟨d, hd, mirrored⟩ := (Engine.host_mirrors_catalog
    [.addDataset "tank" dataset, .addChannel level, .apply reading] {}
    { settings := { framing := .bridge, endpoint := .tcp "bus" 502 } } []).1 level rfl
  obtain rfl : dataset = d := Option.some.inj hd
  exact ⟨rfl, mirrored (by decide) (by decide) (by decide)⟩

end Catalog.Tank

end BusMaster
