import BusMaster.Proofs.Plant.History

/-!
# What a removal leaves alone

The channels of a node are removed first, then its datasets. A channel is not told apart by its
node, which it does not know, but by the dataset it is bound to. Each of the two steps takes away
only what is the node's and changes nothing else (`Catalog.Spares`): the datasets of other nodes
stay with their keys and the payloads that were last read, and the channels bound to them with their
values. That a key of another node stays is because no two datasets have the same key.
-/

namespace BusMaster

namespace Catalog

/-- What belongs to other nodes than this one is in both catalogs, and the same. -/
structure Spares (node : NodeId) (c c' : Catalog) : Prop where
  /-- datasets, with what was last read for them -/
  dataset : ∀ (id : DatasetId) (entry : DatasetEntry), entry.dataset.node ≠ node →
    (c'.datasets[id]? = some entry ↔ c.datasets[id]? = some entry)
  key : ∀ (id : DatasetId) (key : String) (d : Dataset), c.definition? id = some (key, d) →
    d.node ≠ node → c'.keys[key]? = c.keys[key]?
  /-- channels bound to such a dataset, with their values -/
  channel : ∀ (id : ChannelId) (channel : ChannelEntry) (d : Dataset),
    c.dataset? channel.channel.dataset = some d → d.node ≠ node →
    (c'.channels[id]? = some channel ↔ c.channels[id]? = some channel)

variable {node : NodeId} {c c' c'' : Catalog}

namespace Spares

theorem refl (node : NodeId) (c : Catalog) : Spares node c c :=
  ⟨fun _ _ _ => Iff.rfl, fun _ _ _ _ _ => rfl, fun _ _ _ _ _ => Iff.rfl⟩

/-- A dataset of another node stays one. -/
theorem exists_entry (h : Spares node c c') {id : DatasetId} {entry : DatasetEntry}
    (live : c.datasets[id]? = some entry) (other : entry.dataset.node ≠ node) :
    c'.datasets[id]? = some entry :=
  (h.dataset id entry other).2 live

theorem trans (h : Spares node c c') (h' : Spares node c' c'') : Spares node c c'' := by
  refine ⟨fun id entry other => (h'.dataset id entry other).trans (h.dataset id entry other),
    fun id key d live other => ?_, fun id channel d live other => ?_⟩
  · obtain ⟨entry, hentry, hpair⟩ := Option.map_eq_some_iff.1 live
    obtain ⟨-, rfl⟩ := Prod.mk.inj hpair
    have live' : c'.definition? id = some (key, entry.dataset) := by
      rw [definition?, h.exists_entry hentry other, ← live, definition?, hentry]
    exact (h'.key id key _ live' other).trans (h.key id key _ live other)
  · obtain ⟨entry, hentry, rfl⟩ := Option.map_eq_some_iff.1 live
    have live' : c'.dataset? channel.channel.dataset = some entry.dataset := by
      rw [dataset?, h.exists_entry hentry other]
      rfl
    exact (h'.channel id channel _ live' other).trans (h.channel id channel _ live other)

end Spares

theorem spares_removeChannels (node : NodeId) (c : Catalog) :
    Spares node c (c.removeChannels node).2 := by
  refine ⟨fun _ _ _ => Iff.rfl, fun _ _ _ _ _ => rfl, fun id channel d live other => ?_⟩
  obtain ⟨entry, hentry, rfl⟩ := Option.map_eq_some_iff.1 live
  have elsewhere : c.isElsewhere node channel.channel = true := by
    rw [isElsewhere, hentry]
    exact bne_iff_ne.2 other
  change (c.channels.filter _)[id]? = some channel ↔ _
  rw [Std.TreeMap.getElem?_filter', Option.filter_eq_some_iff]
  exact and_iff_left elsewhere

theorem spares_removeDatasets (keyed : Keyed c) (node : NodeId) :
    Spares node c (c.removeDatasets node).2 := by
  have stays (id : DatasetId) (entry : DatasetEntry) (other : entry.dataset.node ≠ node) :
      (c.removeDatasets node).2.datasets[id]? = some entry ↔ c.datasets[id]? = some entry := by
    change (c.datasets.filter _)[id]? = some entry ↔ _
    rw [Std.TreeMap.getElem?_filter', Option.filter_eq_some_iff]
    exact and_iff_left (bne_iff_ne.2 other)
  refine ⟨stays, fun id key d live other => ?_, fun id channel d live other => ?_⟩
  · have known : c.keys[key]? = some id := (keyed key id).2 ⟨d, live⟩
    -- the key has one number, so what goes under it would be what stays
    have one (id' : DatasetId) (d' : Dataset) (hd' : c.definition? id' = some (key, d')) :
        d'.node ≠ node := by
      obtain rfl := Option.some.inj (known.symm.trans ((keyed key id').2 ⟨d', hd'⟩))
      rw [live] at hd'
      cases hd'
      exact other
    rw [known, (getElem?_keys_removeDatasets c node key id).2 ⟨known, one⟩]
  · obtain ⟨entry, hentry, rfl⟩ := Option.map_eq_some_iff.1 live
    have kept : (c.datasets.filter fun _ e => e.dataset.node != node).contains
        channel.channel.dataset = true := by
      rw [Std.TreeMap.contains_eq_isSome_getElem?]
      exact Option.isSome_iff_exists.2 ⟨entry, (stays _ entry other).2 hentry⟩
    change (c.channels.filter _)[id]? = some channel ↔ _
    rw [Std.TreeMap.getElem?_filter', Option.filter_eq_some_iff]
    exact and_iff_left kept

end Catalog

end BusMaster
