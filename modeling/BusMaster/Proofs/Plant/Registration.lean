import Mathlib.Order.Basic
import Std.Data.TreeMap.Lemmas
import BusMaster.Plant.Catalog

/-!
# Registered channels

A catalog starts out empty and changes by registration, removal and what is read (`Catalog.Built`).
Whatever the order of these, each of its channels fits the dataset it is bound to, and that dataset
is there (`Catalog.Built.sound`): a channel is taken only where it fits, a dataset never changes
once it has its number, and it takes its channels along when it goes.
-/

namespace BusMaster

namespace Catalog

/-- the catalogs that come about -/
inductive Built : Catalog → Prop where
  /-- nothing is registered at first -/
  | empty : Built {}
  | addDataset {c : Catalog} (key : String) (d : Dataset) :
      Built c → Built (c.addDataset key d).2.1
  | addChannel {c : Catalog} (ch : Channel) : Built c → Built (c.addChannel ch).2.1
  | removeChannels {c : Catalog} (node : NodeId) : Built c → Built (c.removeChannels node).2
  | removeDatasets {c : Catalog} (node : NodeId) : Built c → Built (c.removeDatasets node).2
  | apply {c c' : Catalog} {m : Message} {u : Update} {lines : List LogLine} :
      c.apply m = .ok (u, c', lines) → Built c → Built c'

/-- Each channel fits its dataset, and the numbers of datasets were given out. -/
structure Sound (c : Catalog) : Prop where
  fits : ∀ {id : ChannelId} {e : ChannelEntry},
    c.channels[id]? = some e → c.checkChannel e.channel = .ok ()
  given : ∀ {id : DatasetId} {e : DatasetEntry}, c.datasets[id]? = some e → id ≤ c.lastId

theorem checkChannel_eq_ok {c : Catalog} {ch : Channel} (h : c.checkChannel ch = .ok ()) :
    ∃ e, c.datasets[ch.dataset]? = some e ∧ ch.checkFootprint e.dataset = .ok () := by
  rw [checkChannel] at h
  split at h
  · rename_i e he
    exact ⟨e, he, h⟩
  · cases h

/-- A channel fits as long as its dataset is there with the same definition. -/
theorem checkChannel_of_dataset {c : Catalog} {ch : Channel} {e : DatasetEntry}
    (he : c.datasets[ch.dataset]? = some e) (h : ch.checkFootprint e.dataset = .ok ()) :
    c.checkChannel ch = .ok () := by
  rw [checkChannel]
  rw [he]
  exact h

/-- Reading into an entry leaves its channel as it is. -/
theorem channel_refresh (e : ChannelEntry) (p : Payload) :
    (e.refresh p).channel = e.channel := by
  rw [ChannelEntry.refresh]
  split
  · rfl
  · split <;> rfl

theorem Sound.empty : Sound {} where
  fits h := by
    change (∅ : Std.TreeMap ChannelId ChannelEntry)[_]? = _ at h
    simp at h
  given h := by
    change (∅ : Std.TreeMap DatasetId DatasetEntry)[_]? = _ at h
    simp at h

theorem Sound.addDataset {c : Catalog} (hc : Sound c) (key : String) (d : Dataset) :
    Sound (c.addDataset key d).2.1 := by
  rw [Catalog.addDataset]
  split
  · exact hc
  refine ⟨fun {id e} h => ?_, fun {id e} h => ?_⟩
  · obtain ⟨e', he', hfits⟩ := checkChannel_eq_ok (hc.fits h)
    have hold : e.channel.dataset ≤ c.lastId := hc.given he'
    have hnew : ¬ compare (c.lastId + 1) e.channel.dataset = .eq := by
      rw [Std.LawfulEqCmp.compare_eq_iff_eq]
      exact Nat.ne_of_gt (Nat.lt_succ_of_le hold)
    refine checkChannel_of_dataset ?_ hfits
    rw [Std.TreeMap.getElem?_insert, if_neg hnew, he']
  · rw [Std.TreeMap.getElem?_insert] at h
    split at h
    · rename_i heq
      rw [Std.LawfulEqCmp.compare_eq_iff_eq] at heq
      exact Nat.le_of_eq heq.symm
    · exact Nat.le_succ_of_le (hc.given h)

theorem Sound.addChannel {c : Catalog} (hc : Sound c) (ch : Channel) :
    Sound (c.addChannel ch).2.1 := by
  rw [Catalog.addChannel]
  split
  · rename_i hch
    refine ⟨fun {id e} h => ?_, hc.given⟩
    rw [Std.TreeMap.getElem?_insert] at h
    split at h
    · obtain rfl := Option.some.inj h
      exact hch
    · exact hc.fits h
  · exact hc

theorem Sound.removeChannels {c : Catalog} (hc : Sound c) (node : NodeId) :
    Sound (c.removeChannels node).2 := by
  refine ⟨fun {id e} h => ?_, hc.given⟩
  change (c.channels.filter _)[id]? = some e at h
  rw [Std.TreeMap.getElem?_filter', Option.filter_eq_some_iff] at h
  exact hc.fits h.1

theorem Sound.removeDatasets {c : Catalog} (hc : Sound c) (node : NodeId) :
    Sound (c.removeDatasets node).2 := by
  refine ⟨fun {id e} h => ?_, fun {id e} h => ?_⟩
  · change (c.channels.filter _)[id]? = some e at h
    rw [Std.TreeMap.getElem?_filter', Option.filter_eq_some_iff,
      Std.TreeMap.contains_eq_isSome_getElem?] at h
    obtain ⟨hold, hkept⟩ := h
    obtain ⟨d, hd⟩ := Option.isSome_iff_exists.1 hkept
    have hd' := hd
    rw [Std.TreeMap.getElem?_filter', Option.filter_eq_some_iff] at hd'
    obtain ⟨d', hd'', hfits⟩ := checkChannel_eq_ok (hc.fits hold)
    obtain rfl := Option.some.inj (hd''.symm.trans hd'.1)
    exact checkChannel_of_dataset hd hfits
  · change (c.datasets.filter _)[id]? = some e at h
    rw [Std.TreeMap.getElem?_filter', Option.filter_eq_some_iff] at h
    exact hc.given h.1

/-- What taking in a message does: the payload is kept with its dataset, and channels change in
their values only. -/
structure Applied (c : Catalog) (m : Message) (c' : Catalog) : Prop where
  kept : ∃ entry, c.datasets[m.dataset]? = some entry ∧
    c'.datasets = c.datasets.insert m.dataset { entry with cache := some m.payload }
  lastId : c'.lastId = c.lastId
  keys : c'.keys = c.keys
  channel : ∀ {id : ChannelId} {e' : ChannelEntry}, c'.channels[id]? = some e' →
    ∃ e, c.channels[id]? = some e ∧ e'.channel = e.channel

theorem applied_of_apply {c c' : Catalog} {m : Message} {u : Update} {lines : List LogLine}
    (h : c.apply m = .ok (u, c', lines)) : c.Applied m c' := by
  rw [Catalog.apply] at h
  split at h
  · cases h
  rename_i entry hentry
  dsimp only at h
  split at h
  · cases h
    refine ⟨⟨entry, hentry, rfl⟩, rfl, rfl, fun {id e'} he' => ?_⟩
    change (c.channels.map _)[id]? = some e' at he'
    rw [Std.TreeMap.getElem?_map, Option.map_eq_some_iff] at he'
    obtain ⟨e, he, rfl⟩ := he'
    refine ⟨e, he, ?_⟩
    split
    · exact channel_refresh ..
    · rfl
  · cases h
    exact ⟨⟨entry, hentry, rfl⟩, rfl, rfl, fun he' => ⟨_, he', rfl⟩⟩

/-- An entry is the one before, but for the payload. -/
theorem Applied.getElem?_datasets {c c' : Catalog} {m : Message} (h : c.Applied m c')
    (id : DatasetId) : ∃ cache : DatasetEntry → Option Payload,
      c'.datasets[id]? = c.datasets[id]?.map fun e => { e with cache := cache e } := by
  obtain ⟨entry, hentry, hdatasets⟩ := h.kept
  rw [hdatasets, Std.TreeMap.getElem?_insert]
  split
  · rename_i heq
    rw [Std.LawfulEqCmp.compare_eq_iff_eq] at heq
    subst heq
    exact ⟨fun _ => some m.payload, by rw [hentry]; rfl⟩
  · exact ⟨DatasetEntry.cache, by rw [Option.map_id']⟩

/-- What is read changes no definition. -/
theorem Sound.apply {c c' : Catalog} (hc : Sound c) {m : Message} {u : Update}
    {lines : List LogLine} (h : c.apply m = .ok (u, c', lines)) : Sound c' := by
  have applied := applied_of_apply h
  refine ⟨fun {id e'} he' => ?_, fun {id e'} he' => ?_⟩
  · obtain ⟨e, he, hchannel⟩ := applied.channel he'
    obtain ⟨d, hd, hfits⟩ := checkChannel_eq_ok (hc.fits he)
    obtain ⟨cache, hcache⟩ := applied.getElem?_datasets e.channel.dataset
    rw [hd, Option.map_some] at hcache
    rw [hchannel]
    exact checkChannel_of_dataset hcache hfits
  · obtain ⟨cache, hcache⟩ := applied.getElem?_datasets id
    rw [hcache, Option.map_eq_some_iff] at he'
    obtain ⟨e, he, -⟩ := he'
    rw [applied.lastId]
    exact hc.given he

/-- **Every channel of a catalog fits the dataset it is bound to.** -/
theorem Built.sound {c : Catalog} (hc : Built c) : Sound c := by
  induction hc with
  | empty => exact Sound.empty
  | addDataset key d _ ih => exact ih.addDataset key d
  | addChannel ch _ ih => exact ih.addChannel ch
  | removeChannels node _ ih => exact ih.removeChannels node
  | removeDatasets node _ ih => exact ih.removeDatasets node
  | apply h _ ih => exact ih.apply h

end Catalog

end BusMaster
