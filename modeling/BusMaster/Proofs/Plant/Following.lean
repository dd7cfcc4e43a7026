import Mathlib.Data.List.Induction
import BusMaster.Proofs.Bits.Packing
import BusMaster.Proofs.Plant.Entries

/-!
# Values follow what is read

A message carries its payload to the catalog at once, but to the channels of its dataset only when it
is passed on, and a dataset that reports changes passes on what differs from the payload it keeps.
So the value of a channel follows the messages from the first one on that the channel was told of
since it was registered (`Catalog.Told`), and until then it has none (`Catalog.value_follows_iff_told`).
That a message is not passed on does no harm later: it repeats the payload before it, and equal
payloads are read alike (`Channel.read_congr`).
-/

namespace BusMaster

/-! ## Equal payloads are read alike -/

theorem BitSeq.beq_eq_true_iff {s t : BitSeq} :
    (s == t) = true ↔ s.size = t.size ∧ ∀ i, s.bit i = t.bit i := by
  change (s.size == t.size && (List.range s.size).all fun i => s.bit i == t.bit i) = true ↔ _
  rw [Bool.and_eq_true, beq_iff_eq, List.all_eq_true]
  refine and_congr_right fun size => ⟨fun h i => ?_, fun h i _ => beq_iff_eq.2 (h i)⟩
  by_cases hi : i < s.size
  · exact beq_iff_eq.1 (h i (List.mem_range.2 hi))
  · rw [bit_eq_false (Nat.le_of_not_lt hi), bit_eq_false (size ▸ Nat.le_of_not_lt hi)]

/-- Runs with the same bits decode alike, whatever the order in their bytes. -/
theorem Encoding.decode_bits_congr (e : Encoding) (cls : ValueClass) {s t : BitSeq}
    (size : s.size = t.size) (bits : ∀ i, s.bit i = t.bit i) :
    e.decode cls (.bits s) = e.decode cls (.bits t) := by
  have same : s.bit = t.bit := funext bits
  cases cls <;> simp only [decode, BitSeq.get, selector, BitSeq.ones, BitSeq.toText, BitSeq.toList,
    size, same]

theorem Channel.read_bits (ch : Channel) (s : BitSeq) :
    ch.read (.bits s) = if s.size < ch.last then .error .valueOutOfRange
      else if ch.cls.isBitField then ch.encoding.decode ch.cls (.bits (s.range ch.position ch.last))
      else .error .valueMismatch := by
  rw [read, extract]
  change (if s.size < ch.last then _ else _) >>= _ = _
  split
  · rfl
  · split <;> rfl

theorem Channel.read_congr (ch : Channel) {p q : Payload} (h : (p == q) = true) :
    ch.read p = ch.read q := by
  cases p with
  | registers a =>
    cases q with
    | bits t => cases h
    | registers b => rw [show a = b from beq_iff_eq.1 h]
  | bits s =>
    cases q with
    | registers b => cases h
    | bits t =>
      obtain ⟨size, bits⟩ := BitSeq.beq_eq_true_iff.1 h
      have decoded := ch.encoding.decode_bits_congr ch.cls (s := s.range ch.position ch.last)
        (t := t.range ch.position ch.last) rfl fun i => by
          rw [BitSeq.bit_range, BitSeq.bit_range, bits]
      rw [read_bits, read_bits, size, decoded]

/-! ## What an entry shows -/

namespace ChannelEntry

/-- the value of the channel is this one, or equal to it as a number -/
def Shows (e : ChannelEntry) (v : Value) : Prop :=
  ∃ w, e.current = some w ∧ (w = v ∨ w.same v = true)

/-- After it was read, a channel shows what it was read as. -/
theorem shows_refresh {e : ChannelEntry} {p : Payload} {v : Value}
    (cls : e.channel.cls ≠ .changeBitmap) (h : e.channel.read p = .ok v) :
    (e.refresh p).Shows v := by
  rw [refresh]
  rw [h]
  dsimp only
  by_cases known : isKnown e.current v = true
  · rw [if_pos (.inr known)]
    rcases hcurrent : e.current with _ | w <;> rw [hcurrent] at known
    · cases known
    · exact ⟨w, hcurrent, .inr known⟩
  · rw [if_neg (not_or.2 ⟨cls, known⟩)]
    exact ⟨v, rfl, .inl rfl⟩

end ChannelEntry

namespace Catalog

/-! ## Who was told -/

theorem run_concat (c : Catalog) (ops : List Operation) (o : Operation) :
    c.run (ops ++ [o]) = ((c.run ops).perform o).2 := by
  rw [run, List.foldl_append]
  rfl

/-- the channel was told of a message since it was registered last -/
inductive Told : List Operation → ChannelId → Prop
  | now {ops : List Operation} {o : Operation} {id : ChannelId} {e : ChannelEntry} :
      (run {} ops).channels[id]? = some e → (run {} ops).Tells o e.channel.dataset →
      Told (ops ++ [o]) id
  | still {ops : List Operation} {o : Operation} {id : ChannelId} :
      Told ops id → ¬(run {} ops).Registers o id → Told (ops ++ [o]) id

theorem told_concat_iff {ops : List Operation} {o : Operation} {id : ChannelId} :
    Told (ops ++ [o]) id ↔
      (∃ e, (run {} ops).channels[id]? = some e ∧ (run {} ops).Tells o e.channel.dataset) ∨
      (Told ops id ∧ ¬(run {} ops).Registers o id) := by
  constructor
  · intro h
    generalize hall : ops ++ [o] = all at h
    cases h with
    | now he tells =>
      obtain ⟨rfl, ⟨⟩⟩ := List.append_inj' hall rfl
      exact .inl ⟨_, he, tells⟩
    | still told registers =>
      obtain ⟨rfl, ⟨⟩⟩ := List.append_inj' hall rfl
      exact .inr ⟨told, registers⟩
  · rintro (⟨e, he, tells⟩ | ⟨told, registers⟩)
    · exact .now he tells
    · exact .still told registers

/-! ## Values follow -/

/-- each channel that was told shows what the payload kept for its dataset says, and the others have
no value -/
structure Follows (c : Catalog) (told : ChannelId → Prop) : Prop where
  shows : ∀ {id : ChannelId} {e : ChannelEntry} {entry : DatasetEntry} {p : Payload} {v : Value},
    c.channels[id]? = some e → told id → e.channel.cls ≠ .changeBitmap →
    c.datasets[e.channel.dataset]? = some entry → entry.dataset.internal = false →
    entry.dataset.report ≠ .never → entry.cache = some p → e.channel.read p = .ok v → e.Shows v
  silent : ∀ {id : ChannelId} {e : ChannelEntry},
    c.channels[id]? = some e → ¬told id → e.current = none

/-- A message that is not passed on repeats the payload before it, where messages are passed on at
all. -/
theorem kept_of_not_passesOn {c : Catalog} {m : Message} {entry : DatasetEntry}
    (hentry : c.datasets[m.dataset]? = some entry) (internal : entry.dataset.internal = false)
    (report : entry.dataset.report ≠ .never) (silent : ¬c.PassesOn m) :
    ∃ kept, entry.cache = some kept ∧ (kept == m.payload) = true := by
  have held : fansOut entry.dataset (differs entry.cache m.payload) = false :=
    Bool.eq_false_iff.2 fun fans => silent ⟨entry, hentry, fans⟩
  rw [fansOut, internal, Bool.not_false, Bool.true_and] at held
  rcases hreport : entry.dataset.report <;> rw [hreport] at held
  · cases held
  · rcases hcache : entry.cache with _ | kept <;> rw [hcache] at held
    · cases held
    · exact ⟨kept, rfl, by simpa [differs] using held⟩
  · exact absurd hreport report

theorem Follows.empty : Follows {} (Told []) where
  shows h := by
    change (∅ : Std.TreeMap ChannelId ChannelEntry)[_]? = _ at h
    simp at h
  silent h := by
    change (∅ : Std.TreeMap ChannelId ChannelEntry)[_]? = _ at h
    simp at h

/-- Every operation keeps values following. -/
theorem Follows.perform {ops : List Operation} (h : Follows (run {} ops) (Told ops))
    (o : Operation) : Follows ((run {} ops).perform o).2 (Told (ops ++ [o])) := by
  refine ⟨fun {id e entry p v} he told cls hentry internal report hp hv => ?_, fun {id e} he silent => ?_⟩
  · rw [told_concat_iff] at told
    cases heard_perform he with
    | before he registers tells =>
      -- the channel heard of nothing, so it was told before
      have told : Told ops id := by
        rcases told with ⟨e', he', tells'⟩ | ⟨told, -⟩
        · obtain rfl := Option.some.inj (he.symm.trans he')
          exact absurd tells' tells
        · exact told
      cases entered_perform hentry with
      | before hentry _ => exact h.shows he told cls hentry internal report hp hv
      | @read m entry hm hid hold =>
        obtain rfl := Option.some.inj hp
        have found : (run {} ops).datasets[m.dataset]? = some entry := hid ▸ hold
        obtain ⟨kept, hkept, same⟩ := kept_of_not_passesOn found internal report
          fun passed => tells ⟨m, hm, hid, passed⟩
        exact h.shows he told cls hold internal report hkept
          ((e.channel.read_congr same).trans hv)
      | new _ _ => cases hp
    | registered ho hid accepted =>
      -- a new channel was told of nothing
      rcases told with ⟨-, -, m, hm, -⟩ | ⟨-, registers⟩
      · rw [ho] at hm
        cases hm
      · exact absurd ⟨_, ho, hid, accepted⟩ registers
    | told hm _ bound _ =>
      rw [channel_refresh] at cls hentry hv
      cases entered_perform hentry with
      | before _ other => exact absurd bound.symm (other _ hm)
      | read hm' _ _ =>
        rw [hm] at hm'
        cases hm'
        obtain rfl := Option.some.inj hp
        exact ChannelEntry.shows_refresh cls hv
      | new ho _ =>
        rw [hm] at ho
        cases ho
  · rw [told_concat_iff, not_or] at silent
    cases heard_perform he with
    | before he registers _ => exact h.silent he fun told => silent.2 ⟨told, registers⟩
    | registered _ _ _ => rfl
    | @told m e hm hold bound passed =>
      exact absurd ⟨e, hold, m, hm, bound.symm, passed⟩ silent.1

theorem follows_run (ops : List Operation) : Follows (run {} ops) (Told ops) := by
  induction ops using List.reverseRecOn with
  | nil => exact .empty
  | append_singleton ops o ih =>
    rw [run_concat]
    exact ih.perform o

/-- What an update says of its dataset. -/
theorem update_of_apply {c c' : Catalog} {m : Message} {u : Update} {lines : List LogLine}
    (h : c.apply m = .ok (u, c', lines)) {entry : DatasetEntry}
    (hentry : c.datasets[m.dataset]? = some entry) :
    u.dataset = entry.dataset ∧ u.changed = differs entry.cache m.payload := by
  rw [Catalog.apply] at h
  rw [hentry] at h
  dsimp only at h
  split at h <;> cases h <;> exact ⟨rfl, rfl⟩

/-- **A channel has the value of the last message exactly if it was told of a message since it was
registered.** Otherwise it has no value. A dataset that reports always tells its channels of every
message, and one that reports changes of every message that differs from the one before. -/
theorem value_follows_iff_told (ops : List Operation) {m : Message} {u : Update} {c' : Catalog}
    {lines : List LogLine} (h : (run {} ops).apply m = .ok (u, c', lines))
    (internal : u.dataset.internal = false) (report : u.dataset.report ≠ .never)
    {id : ChannelId} {ch : Channel} (hch : c'.channel? id = some ch)
    (bound : ch.dataset = m.dataset) (cls : ch.cls ≠ .changeBitmap) {v : Value}
    (hv : ch.read m.payload = .ok v) :
    ((∃ w, c'.value? id = some w ∧ (w = v ∨ w.same v = true)) ↔ Told (ops ++ [.apply m]) id) ∧
      (¬Told (ops ++ [.apply m]) id → c'.value? id = none) ∧
      (u.dataset.report = .always ∨ u.changed = true → Told (ops ++ [.apply m]) id) := by
  have hrun : run {} (ops ++ [.apply m]) = c' := by
    rw [run_concat, perform, h]
  obtain ⟨e, he, rfl⟩ := Option.map_eq_some_iff.1 hch
  have hvalue : c'.value? id = e.current := by
    rw [value?, he]
    rfl
  obtain ⟨entry, hentry, hdatasets⟩ := (applied_of_apply h).kept
  obtain ⟨hu, hchanged⟩ := update_of_apply h hentry
  have kept : c'.datasets[e.channel.dataset]? = some { entry with cache := some m.payload } := by
    rw [hdatasets, bound, Std.TreeMap.getElem?_insert_self]
  have follows : Follows c' (Told (ops ++ [.apply m])) := hrun ▸ follows_run _
  have silent (untold : ¬Told (ops ++ [.apply m]) id) : c'.value? id = none :=
    hvalue.trans (follows.silent he untold)
  refine ⟨⟨fun shows => ?_, fun told => ?_⟩, silent, fun passed => ?_⟩
  · by_contra untold
    obtain ⟨w, hw, -⟩ := shows
    rw [silent untold] at hw
    cases hw
  · rw [hvalue]
    exact follows.shows he told cls kept (hu ▸ internal) (hu ▸ report) rfl hv
  · obtain ⟨before, hbefore, hchannel⟩ := (applied_of_apply h).channel he
    refine .now hbefore ⟨m, rfl, hchannel ▸ bound.symm, entry, hentry, ?_⟩
    rw [hu] at internal passed
    rw [fansOut, internal, ← hchanged]
    rcases hreport : entry.dataset.report <;> simp_all

/-! ## A tank

One register, read as a level. -/

namespace Tank

def dataset : Dataset where
  node := 1
  cls := .holdingRegister
  address := 40
  length := 1

def level : Channel where
  id := "level"
  dataset := 1
  index := 0
  cls := .uint16

/-- a level of seven -/
def reading : Message where
  dataset := 1
  payload := .registers [0, 7]

/-- A level that was registered in time follows the first reading. -/
theorem level_follows : ∃ u c' lines,
    (run {} [.addDataset "tank" dataset, .addChannel level]).apply reading = .ok (u, c', lines) ∧
      ∃ w, c'.value? "level" = some w ∧ (w = .int 7 ∨ w.same (.int 7) = true) := by
  have follows := value_follows_iff_told [.addDataset "tank" dataset, .addChannel level]
    (m := reading) rfl rfl (by decide) (show channel? _ "level" = some level from rfl) rfl
    (by decide) rfl
  exact ⟨_, _, _, rfl, follows.1.2 (follows.2.2 (.inr rfl))⟩

/-- A level that is registered after the first reading has no value after the second one, which
brings the same. -/
theorem late_level_has_no_value : ∃ u c' lines,
    (run {} [.addDataset "tank" dataset, .apply reading, .addChannel level]).apply reading
        = .ok (u, c', lines) ∧
      u.dataset.internal = false ∧ u.dataset.report ≠ .never ∧
      c'.channel? "level" = some level ∧ level.dataset = reading.dataset ∧
      level.cls ≠ .changeBitmap ∧ level.read reading.payload = .ok (.int 7) ∧
      ¬∃ w, c'.value? "level" = some w ∧ (w = .int 7 ∨ w.same (.int 7) = true) := by
  refine ⟨_, _, _, rfl, rfl, by decide, rfl, rfl, by decide, rfl, ?_⟩
  rintro ⟨w, hw, -⟩
  cases hw

end Tank

end Catalog

end BusMaster
