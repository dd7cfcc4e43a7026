import BusMaster.Proofs.Plant.History

/-!
# What an operation leaves in an entry

Seen from behind, an entry that an operation leaves in the catalog has few origins. The entry of a
dataset was there before, took in the payload of a message, or is new (`Catalog.Entered`). The entry
of a channel was there before, is new, or was told what was read for its dataset (`Catalog.Heard`).
A message reaches channels only when it is passed on (`Catalog.PassesOn`), which is for the dataset's
policy to say.
-/

namespace BusMaster

namespace Catalog

variable {c c' : Catalog} {o : Operation} {m : Message}

/-! ## Datasets -/

/-- the origins of the entry that an operation leaves for a dataset -/
inductive Entered (c : Catalog) (o : Operation) (id : DatasetId) : DatasetEntry → Prop
  /-- it was there, and no message came in for it -/
  | before {e : DatasetEntry} : c.datasets[id]? = some e →
      (∀ m, o = .apply m → m.dataset ≠ id) → Entered c o id e
  /-- a message came in for it -/
  | read {m : Message} {e : DatasetEntry} : o = .apply m → m.dataset = id →
      c.datasets[id]? = some e → Entered c o id { e with cache := some m.payload }
  /-- it is new, with the next number -/
  | new {key : String} {d : Dataset} : o = .addDataset key d → id = c.lastId + 1 →
      Entered c o id { key := key, dataset := d }

/-- A message is refused when nothing is known of its dataset, and then only. -/
theorem apply_eq_error_iff {fault : ConfigFault} :
    c.apply m = .error fault ↔ c.datasets[m.dataset]? = none ∧ fault = .unknownDataset := by
  rw [Catalog.apply]
  rcases c.datasets[m.dataset]? with _ | entry
  · simp [eq_comm]
  · dsimp only
    split <;> simp

theorem Applied.entered (h : c.Applied m c') {id : DatasetId} {e' : DatasetEntry}
    (he' : c'.datasets[id]? = some e') : c.Entered (.apply m) id e' := by
  obtain ⟨entry, hentry, hdatasets⟩ := h.kept
  rw [hdatasets, Std.TreeMap.getElem?_insert] at he'
  split at he'
  · rename_i hid
    rw [Std.LawfulEqCmp.compare_eq_iff_eq] at hid
    obtain rfl := Option.some.inj he'
    exact .read rfl hid (hid ▸ hentry)
  · rename_i hid
    rw [Std.LawfulEqCmp.compare_eq_iff_eq] at hid
    refine .before he' fun m' hm' => ?_
    cases hm'
    exact hid

/-- Inversion for the entry of a dataset after an operation. -/
theorem entered_perform {id : DatasetId} {e' : DatasetEntry}
    (h : (c.perform o).2.datasets[id]? = some e') : c.Entered o id e' := by
  cases o with
  | addDataset key d =>
    change (c.addDataset key d).2.1.datasets[id]? = some e' at h
    rw [Catalog.addDataset] at h
    split at h
    · exact .before h (fun _ h => by cases h)
    · dsimp only at h
      rw [Std.TreeMap.getElem?_insert] at h
      split at h
      · rename_i hid
        rw [Std.LawfulEqCmp.compare_eq_iff_eq] at hid
        obtain rfl := Option.some.inj h
        exact .new rfl hid.symm
      · exact .before h (fun _ h => by cases h)
  | addChannel ch =>
    change (c.addChannel ch).2.1.datasets[id]? = some e' at h
    rw [Catalog.addChannel] at h
    split at h <;> exact .before h (fun _ h => by cases h)
  | removeChannels node => exact .before h (fun _ h => by cases h)
  | removeDatasets node =>
    change (c.datasets.filter _)[id]? = some e' at h
    rw [Std.TreeMap.getElem?_filter', Option.filter_eq_some_iff] at h
    exact .before h.1 (fun _ h => by cases h)
  | apply m =>
    rw [perform] at h
    split at h
    · rename_i happly
      exact (applied_of_apply happly).entered h
    · rename_i happly
      have unknown := (apply_eq_error_iff.1 happly).1
      refine .before h fun m' hm' hid => ?_
      cases hm'
      rw [hid, h] at unknown
      cases unknown
  | buildWrite s => exact .before h (fun _ h => by cases h)
  | readAction id' => exact .before h (fun _ h => by cases h)

/-! ## Channels -/

/-- the message tells the channels of its dataset -/
def PassesOn (c : Catalog) (m : Message) : Prop :=
  ∃ entry, c.datasets[m.dataset]? = some entry ∧
    fansOut entry.dataset (differs entry.cache m.payload) = true

/-- the operation registers a channel under this id, be it anew -/
def Registers (c : Catalog) (o : Operation) (id : ChannelId) : Prop :=
  ∃ ch, o = .addChannel ch ∧ ch.id = id ∧ (c.addChannel ch).1 = true

/-- the operation tells a channel of this dataset what was read -/
def Tells (c : Catalog) (o : Operation) (id : DatasetId) : Prop :=
  ∃ m, o = .apply m ∧ m.dataset = id ∧ c.PassesOn m

/-- the origins of the entry that an operation leaves for a channel -/
inductive Heard (c : Catalog) (o : Operation) (id : ChannelId) : ChannelEntry → Prop
  /-- it was there, and heard of nothing -/
  | before {e : ChannelEntry} : c.channels[id]? = some e → ¬c.Registers o id →
      ¬c.Tells o e.channel.dataset → Heard c o id e
  /-- it is new -/
  | registered {ch : Channel} : o = .addChannel ch → ch.id = id → (c.addChannel ch).1 = true →
      Heard c o id { channel := ch }
  /-- it was told of a payload -/
  | told {m : Message} {e : ChannelEntry} : o = .apply m → c.channels[id]? = some e →
      e.channel.dataset = m.dataset → c.PassesOn m → Heard c o id (e.refresh m.payload)

/-- What neither registers a channel nor takes in a message leaves entries as they were. -/
theorem Heard.of_other {id : ChannelId} {e : ChannelEntry} (registration : ∀ ch, o ≠ .addChannel ch)
    (message : ∀ m, o ≠ .apply m) (he : c.channels[id]? = some e) : c.Heard o id e :=
  .before he (fun ⟨ch, hch, _⟩ => registration ch hch) fun ⟨m, hm, _⟩ => message m hm

theorem heard_addChannel {ch : Channel} {id : ChannelId} {e' : ChannelEntry}
    (h : (c.addChannel ch).2.1.channels[id]? = some e') : c.Heard (.addChannel ch) id e' := by
  have untold {e : ChannelEntry} : ¬c.Tells (.addChannel ch) e.channel.dataset := by
    rintro ⟨m, hm, -⟩
    cases hm
  by_cases registers : c.Registers (.addChannel ch) id
  · obtain ⟨ch', hch', hid, accepted⟩ := registers
    cases hch'
    have stored : (c.addChannel ch).2.1.channels = c.channels.insert ch.id { channel := ch } := by
      rw [Catalog.addChannel] at accepted ⊢
      split at accepted
      · rfl
      · cases accepted
    rw [stored, hid, Std.TreeMap.getElem?_insert_self] at h
    obtain rfl := Option.some.inj h
    exact .registered rfl hid accepted
  · refine .before ?_ registers untold
    by_cases accepted : (c.addChannel ch).1 = true
    · have hid : ch.id ≠ id := fun hid => registers ⟨ch, rfl, hid, accepted⟩
      rw [Catalog.addChannel] at h
      split at h
      · dsimp only at h
        rwa [Std.TreeMap.getElem?_insert,
          if_neg fun heq => hid (Std.LawfulEqCmp.compare_eq_iff_eq.1 heq)] at h
      · exact h
    · have refused := perform_of_refused (c := c) (o := .addChannel ch)
        (Bool.eq_false_iff.2 accepted)
      change (c.addChannel ch).2.1 = c at refused
      rwa [refused] at h

theorem heard_apply {u : Update} {lines : List LogLine} (happly : c.apply m = .ok (u, c', lines))
    {id : ChannelId} {e' : ChannelEntry} (h : c'.channels[id]? = some e') :
    c.Heard (.apply m) id e' := by
  have unregistered : ¬c.Registers (.apply m) id := by
    rintro ⟨ch, hch, -⟩
    cases hch
  rw [Catalog.apply] at happly
  split at happly
  · cases happly
  rename_i entry hentry
  dsimp only at happly
  split at happly
  · rename_i fans
    cases happly
    change (c.channels.map _)[id]? = some e' at h
    rw [Std.TreeMap.getElem?_map, Option.map_eq_some_iff] at h
    obtain ⟨e, he, rfl⟩ := h
    by_cases bound : e.channel.dataset = m.dataset
    · rw [if_pos bound]
      exact .told rfl he bound ⟨entry, hentry, fans⟩
    · rw [if_neg bound]
      refine .before he unregistered ?_
      rintro ⟨m', hm', hid, -⟩
      cases hm'
      exact bound hid.symm
  · rename_i silent
    cases happly
    refine .before h unregistered ?_
    rintro ⟨m', hm', -, entry', hentry', fans⟩
    cases hm'
    obtain rfl := Option.some.inj (hentry.symm.trans hentry')
    exact silent fans

/-- Inversion for the entry of a channel after an operation. -/
theorem heard_perform {id : ChannelId} {e' : ChannelEntry}
    (h : (c.perform o).2.channels[id]? = some e') : c.Heard o id e' := by
  cases o with
  | addDataset key d =>
    change (c.addDataset key d).2.1.channels[id]? = some e' at h
    rw [Catalog.addDataset] at h
    split at h <;> exact .of_other (fun _ h => by cases h) (fun _ h => by cases h) h
  | addChannel ch => exact heard_addChannel h
  | removeChannels node =>
    change (c.channels.filter _)[id]? = some e' at h
    rw [Std.TreeMap.getElem?_filter', Option.filter_eq_some_iff] at h
    exact .of_other (fun _ h => by cases h) (fun _ h => by cases h) h.1
  | removeDatasets node =>
    change (c.channels.filter _)[id]? = some e' at h
    rw [Std.TreeMap.getElem?_filter', Option.filter_eq_some_iff] at h
    exact .of_other (fun _ h => by cases h) (fun _ h => by cases h) h.1
  | apply m =>
    rw [perform] at h
    split at h
    · rename_i happly
      exact heard_apply happly h
    · rename_i happly
      have unknown := (apply_eq_error_iff.1 happly).1
      refine .before h ?_ ?_
      · rintro ⟨ch, hch, -⟩
        cases hch
      · rintro ⟨m', hm', -, entry, hentry, -⟩
        cases hm'
        rw [hentry] at unknown
        cases unknown
  | buildWrite s => exact .of_other (fun _ h => by cases h) (fun _ h => by cases h) h
  | readAction id' => exact .of_other (fun _ h => by cases h) (fun _ h => by cases h) h

end Catalog

end BusMaster
