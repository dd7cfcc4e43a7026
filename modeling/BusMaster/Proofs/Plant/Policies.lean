import BusMaster.Proofs.Plant.Reported

/-!
# Whose policy counts

What is read passes two gates before it is reported. The policy of the dataset is the first one, and
says whether the message is passed on at all (`Catalog.passesOn_iff`). Only then a channel is asked
for its own policy, which is the dataset's unless it has one, and what it reports depends on that and
on the value it knows (`Catalog.statesOf_of_read`). So a channel can silence itself behind any
dataset, and behind one that passes on it can report what did not change, but it cannot open the
first gate (`Catalog.own_policy_counts_when_passed_on`).
-/

namespace BusMaster

namespace Catalog

variable {c c' : Catalog} {m : Message} {u : Update} {lines : List LogLine}

/-- A message is passed on by a dataset that is not internal, if it reports always, or if it reports
changes and the payload is one. -/
theorem passesOn_iff (h : c.apply m = .ok (u, c', lines)) : c.PassesOn m ↔
    u.dataset.internal = false ∧
      (u.dataset.report = .always ∨ u.dataset.report = .change ∧ u.changed = true) := by
  obtain ⟨entry, hentry, -⟩ := (applied_of_apply h).kept
  obtain ⟨hdataset, hchanged⟩ := update_of_apply h hentry
  have fans : c.PassesOn m ↔ fansOut u.dataset u.changed = true := by
    rw [hdataset, hchanged]
    refine ⟨fun ⟨entry', hentry', fans⟩ => ?_, fun fans => ⟨entry, hentry, fans⟩⟩
    obtain rfl := Option.some.inj (hentry.symm.trans hentry')
    exact fans
  rw [fans, fansOut, Bool.and_eq_true, Bool.not_eq_true']
  refine and_congr_right fun _ => ?_
  cases hreport : u.dataset.report <;> simp

/-- **What a channel reports of a payload that it reads:** nothing unless the message is passed on,
and then what its policy says. -/
theorem statesOf_of_read (named : Named c) (h : c.apply m = .ok (u, c', lines)) {id : ChannelId}
    {e : ChannelEntry} (he : c.channels[id]? = some e) (bound : e.channel.dataset = m.dataset)
    (bitmap : e.channel.cls ≠ .changeBitmap) {v : Value} (hv : e.channel.read m.payload = .ok v) :
    (¬c.PassesOn m → statesOf id u.states = []) ∧
      (c.PassesOn m → statesOf id u.states =
        match e.channel.report.getD u.dataset.report with
        | .always => [⟨id, v⟩]
        | .change => if isKnown e.current v then [] else [⟨id, v⟩]
        | .never => []) := by
  rw [← tells_iff_passesOn bound]
  rcases apply_cases named h he with ⟨told, hstates, -⟩ | ⟨untold, hstates, -⟩
  · refine ⟨fun untold => absurd told untold, fun _ => ?_⟩
    rw [hstates, ChannelEntry.report?_of_read bitmap hv, named he]
    cases e.channel.report.getD u.dataset.report with
    | always => rfl
    | change =>
      dsimp only
      split <;> rfl
    | never => rfl
  · exact ⟨fun _ => hstates, fun told => absurd told untold⟩

/-- A channel that reports never reports nothing of any message. -/
theorem statesOf_of_never (named : Named c) (h : c.apply m = .ok (u, c', lines)) {id : ChannelId}
    {e : ChannelEntry} (he : c.channels[id]? = some e)
    (never : e.channel.report.getD u.dataset.report = .never) : statesOf id u.states = [] := by
  rcases apply_cases named h he with ⟨-, hstates, -⟩ | ⟨-, hstates, -⟩
  · rw [hstates, ChannelEntry.report?_of_never never]
    rfl
  · exact hstates

/-- **A channel's own policy counts once the dataset's has passed the message on.** A channel that
reports always reports what it reads, changed or not, of every message that is passed on and of no
other one. A channel that reports never reports nothing, whatever the policy of the dataset. -/
theorem own_policy_counts_when_passed_on (ops : List Operation)
    (h : (run {} ops).apply m = .ok (u, c', lines)) {id : ChannelId} {ch : Channel}
    (hch : (run {} ops).channel? id = some ch) :
    (ch.report = some .always → u.dataset.internal = false → u.dataset.report ≠ .never →
      ch.dataset = m.dataset → ch.cls ≠ .changeBitmap → ∀ v, ch.read m.payload = .ok v →
        statesOf id u.states
          = if u.dataset.report = .always ∨ u.changed = true then [⟨id, v⟩] else []) ∧
      (ch.report = some .never → statesOf id u.states = []) := by
  obtain ⟨e, he, rfl⟩ := Option.map_eq_some_iff.1 hch
  refine ⟨fun always internal reports bound bitmap v hv => ?_, fun never => ?_⟩
  · obtain ⟨silent, told⟩ := statesOf_of_read (named_run ops) h he bound bitmap hv
    rw [always] at told
    have passed_iff : (run {} ops).PassesOn m ↔ u.dataset.report = .always ∨ u.changed = true := by
      rw [passesOn_iff h, and_iff_right internal]
      cases hreport : u.dataset.report <;> simp_all
    split
    · rename_i passed
      exact told (passed_iff.2 passed)
    · rename_i held
      exact silent fun passed => held (passed_iff.1 passed)
  · exact statesOf_of_never (named_run ops) h he (by rw [never]; rfl)

/-! ## A tank whose level reports always -/

namespace Tank

/-- the level, with a policy of its own -/
def talker : Channel := { level with report := some .always }

/-- The first reading of seven is reported. -/
theorem first_reading_is_reported : ∃ u c' lines,
    (run {} [.addDataset "tank" dataset, .addChannel talker]).apply reading = .ok (u, c', lines) ∧
      statesOf "level" u.states = [⟨"level", .int 7⟩] := by
  have policies := own_policy_counts_when_passed_on
    [.addDataset "tank" dataset, .addChannel talker] (m := reading) rfl
    (show channel? _ "level" = some talker from rfl)
  exact ⟨_, _, _, rfl, policies.1 rfl rfl (by decide) rfl (by decide) _ rfl⟩

/-- The second one is not: the dataset reports changes, and does not pass it on. -/
theorem second_reading_goes_unreported : ∃ u c' lines,
    (run {} [.addDataset "tank" dataset, .addChannel talker, .apply reading]).apply reading
        = .ok (u, c', lines) ∧
      u.dataset.internal = false ∧ u.dataset.report ≠ .never ∧
      (run {} [.addDataset "tank" dataset, .addChannel talker, .apply reading]).channel? "level"
        = some talker ∧
      talker.report = some .always ∧ talker.dataset = reading.dataset ∧
      talker.cls ≠ .changeBitmap ∧ talker.read reading.payload = .ok (.int 7) ∧
      statesOf "level" u.states = [] :=
  ⟨_, _, _, rfl, rfl, by decide, rfl, rfl, rfl, by decide, rfl, rfl⟩

end Tank

end Catalog

end BusMaster
