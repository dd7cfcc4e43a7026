import BusMaster.Proofs.Plant.Registration

/-!
# What a catalog keeps over a run

A host registers and removes, reads and writes in any order (`Catalog.Operation`). What an operation
does to keys and datasets is one of three things: nothing, the next number for a key that has none,
or the datasets of a node are gone (`Catalog.Change`). Two facts go through these three. Keys and
datasets say the same (`Catalog.Keyed`). And a number that was given out keeps what it stands for
until that is removed, and then stands for nothing (`Catalog.Precedes`), because numbers are counted
up and never down. `Catalog.consistent_over_runs` puts this together for every run.
-/

namespace BusMaster

namespace Catalog

variable {c c' c'' : Catalog} {key : String} {d : Dataset} {id : DatasetId}

/-! ## Runs -/

/-- what a host asks of the catalog -/
inductive Operation where
  | addDataset (key : String) (d : Dataset)
  | addChannel (ch : Channel)
  | removeChannels (node : NodeId)
  | removeDatasets (node : NodeId)
  | apply (m : Message)
  | buildWrite (s : State)
  | readAction (id : DatasetId)

/-- the operation registers a dataset -/
def Operation.isRegistration : Operation → Bool
  | .addDataset .. => true
  | _ => false

/-- what the host is told -/
inductive Answer where
  | number (id : DatasetId)
  | taken (accepted : Bool)
  | removed (count : Nat)
  | update (result : Except ConfigFault Update)
  | action (result : Except ConfigFault Action)

/-- the operation was refused -/
def Answer.Refused : Answer → Prop
  | .taken accepted => accepted = false
  | .update result => ∃ fault, result = .error fault
  | .action result => ∃ fault, result = .error fault
  | .number _ | .removed _ => False

/-- one operation, with its answer -/
def perform (c : Catalog) : Operation → Answer × Catalog
  | .addDataset key d => (.number (c.addDataset key d).1, (c.addDataset key d).2.1)
  | .addChannel ch => (.taken (c.addChannel ch).1, (c.addChannel ch).2.1)
  | .removeChannels node => (.removed (c.removeChannels node).1, (c.removeChannels node).2)
  | .removeDatasets node => (.removed (c.removeDatasets node).1, (c.removeDatasets node).2)
  | .apply m =>
    match c.apply m with
    | .ok (u, c', _) => (.update (.ok u), c')
    | .error fault => (.update (.error fault), c)
  | .buildWrite s => (.action (c.buildWrite s), c)
  | .readAction id => (.action (c.readAction id), c)

/-- the catalog after a list of operations -/
def run (c : Catalog) (ops : List Operation) : Catalog :=
  ops.foldl (fun c o => (c.perform o).2) c

/-- the answers to a list of operations, in their order -/
def answers (c : Catalog) : List Operation → List Answer
  | [] => []
  | o :: ops => (c.perform o).1 :: (c.perform o).2.answers ops

theorem Built.perform (hc : Built c) (o : Operation) : Built (c.perform o).2 := by
  cases o with
  | addDataset key d => exact hc.addDataset key d
  | addChannel ch => exact hc.addChannel ch
  | removeChannels node => exact hc.removeChannels node
  | removeDatasets node => exact hc.removeDatasets node
  | apply m =>
    rw [Catalog.perform]
    split
    · rename_i h
      exact hc.apply h
    · exact hc
  | buildWrite s => exact hc
  | readAction id => exact hc

theorem Built.run (hc : Built c) (ops : List Operation) : Built (c.run ops) := by
  induction ops generalizing c with
  | nil => exact hc
  | cons o ops ih => exact ih (hc.perform o)

/-- A refused operation changes nothing. -/
theorem perform_of_refused {o : Operation} (h : (c.perform o).1.Refused) :
    (c.perform o).2 = c := by
  cases o with
  | addDataset key d => exact h.elim
  | addChannel ch =>
    change (c.addChannel ch).1 = false at h
    change (c.addChannel ch).2.1 = c
    rw [Catalog.addChannel] at h ⊢
    split at h
    · cases h
    · rfl
  | removeChannels node => exact h.elim
  | removeDatasets node => exact h.elim
  | apply m =>
    rw [perform] at h ⊢
    split at h
    · obtain ⟨fault, hfault⟩ := h
      cases hfault
    · rfl
  | buildWrite s => rfl
  | readAction id => rfl

/-! ## What an operation does to keys and datasets -/

/-- the key a number was given to, and the dataset it stands for -/
def definition? (c : Catalog) (id : DatasetId) : Option (String × Dataset) :=
  c.datasets[id]?.map fun e => (e.key, e.dataset)

/-- what an operation does to keys and datasets -/
inductive Change (c c' : Catalog) : Prop where
  /-- nothing -/
  | none (lastId : c'.lastId = c.lastId) (keys : c'.keys = c.keys)
      (definition : ∀ id, c'.definition? id = c.definition? id)
  /-- a key that has no number is given the next one -/
  | register (key : String) (d : Dataset) (new : c.keys[key]? = Option.none)
      (lastId : c'.lastId = c.lastId + 1) (keys : c'.keys = c.keys.insert key (c.lastId + 1))
      (definition : ∀ id, c'.definition? id =
        if id = c.lastId + 1 then some (key, d) else c.definition? id)
  /-- the datasets of a node are gone, and their keys with them -/
  | remove (node : NodeId) (lastId : c'.lastId = c.lastId)
      (keys : ∀ key id, c'.keys[key]? = some id ↔ c.keys[key]? = some id ∧
        ∀ id' d, c.definition? id' = some (key, d) → d.node ≠ node)
      (definition : ∀ id, c'.definition? id = (c.definition? id).filter (·.2.node != node))

theorem Change.refl (c : Catalog) : c.Change c := .none rfl rfl fun _ => rfl

theorem addDataset_of_known (h : c.keys[key]? = some id) (d : Dataset) :
    c.addDataset key d = (id, c, []) := by
  rw [addDataset, h]

theorem addDataset_of_new (h : c.keys[key]? = none) (d : Dataset) :
    (c.addDataset key d).1 = c.lastId + 1 := by
  rw [addDataset, h]

theorem definition?_addDataset (h : c.keys[key]? = none) (d : Dataset) (id : DatasetId) :
    (c.addDataset key d).2.1.definition? id
      = if id = c.lastId + 1 then some (key, d) else c.definition? id := by
  rw [addDataset, h, definition?, Std.TreeMap.getElem?_insert]
  by_cases hid : id = c.lastId + 1
  · rw [if_pos (Std.LawfulEqCmp.compare_eq_iff_eq.2 hid.symm), if_pos hid]
    rfl
  · rw [if_neg fun h => hid (Std.LawfulEqCmp.compare_eq_iff_eq.1 h).symm, if_neg hid]
    rfl

theorem change_addDataset (c : Catalog) (key : String) (d : Dataset) :
    c.Change (c.addDataset key d).2.1 := by
  rcases hkey : c.keys[key]? with _ | id
  · refine .register key d hkey ?_ ?_ (definition?_addDataset hkey d)
    all_goals rw [addDataset, hkey]
  · rw [addDataset_of_known hkey]
    exact .refl c

theorem change_addChannel (c : Catalog) (ch : Channel) : c.Change (c.addChannel ch).2.1 := by
  rw [addChannel]
  split
  · exact .none rfl rfl fun _ => rfl
  · exact .refl c

/-- A key is left when none of the entries that go has it. -/
theorem getElem?_foldl_erase (gone : List (DatasetId × DatasetEntry))
    (keys : Std.TreeMap String DatasetId) (key : String) (id : DatasetId) :
    (gone.foldl (fun keys (_, e) => keys.erase e.key) keys)[key]? = some id ↔
      keys[key]? = some id ∧ ∀ p ∈ gone, p.2.key ≠ key := by
  induction gone generalizing keys with
  | nil => simp
  | cons p gone ih =>
    rw [List.foldl_cons, ih, Std.TreeMap.getElem?_erase, List.forall_mem_cons]
    by_cases hkey : p.2.key = key
    · simp [hkey]
    · simp [hkey]

theorem change_removeChannels (c : Catalog) (node : NodeId) :
    c.Change (c.removeChannels node).2 := .none rfl rfl fun _ => rfl

theorem definition?_removeDatasets (c : Catalog) (node : NodeId) (id : DatasetId) :
    (c.removeDatasets node).2.definition? id
      = (c.definition? id).filter (·.2.node != node) := by
  change (c.datasets.filter _)[id]?.map _ = _
  rw [Std.TreeMap.getElem?_filter', definition?, Option.filter_map]
  rfl

/-- A key goes with the datasets that were registered under it. -/
theorem getElem?_keys_removeDatasets (c : Catalog) (node : NodeId) (key : String)
    (id : DatasetId) : (c.removeDatasets node).2.keys[key]? = some id ↔
      c.keys[key]? = some id ∧ ∀ id' d, c.definition? id' = some (key, d) → d.node ≠ node := by
  refine (getElem?_foldl_erase ..).trans (and_congr_right fun _ => ?_)
  constructor
  · intro kept id' d hd hnode
    obtain ⟨e, he, hpair⟩ := Option.map_eq_some_iff.1 hd
    obtain ⟨hkey, hdataset⟩ := Prod.mk.inj hpair
    refine kept (id', e) (List.mem_filter.2 ⟨?_, ?_⟩) hkey
    · exact Std.TreeMap.mem_toList_iff_getElem?_eq_some.2 he
    · simp [hdataset, hnode]
  · rintro stays ⟨id', e⟩ hmem hkey
    obtain ⟨hmem, hnode⟩ := List.mem_filter.1 hmem
    have he := Std.TreeMap.mem_toList_iff_getElem?_eq_some.1 hmem
    refine stays id' e.dataset ?_ (by simpa using hnode)
    rw [definition?, he, ← hkey]
    rfl

theorem change_removeDatasets (c : Catalog) (node : NodeId) :
    c.Change (c.removeDatasets node).2 :=
  .remove node rfl (getElem?_keys_removeDatasets c node) (definition?_removeDatasets c node)

theorem Applied.change {m : Message} (h : c.Applied m c') : c.Change c' := by
  refine .none h.lastId h.keys fun id => ?_
  obtain ⟨cache, hcache⟩ := h.getElem?_datasets id
  rw [definition?, hcache, Option.map_map]
  rfl

theorem change_perform (c : Catalog) (o : Operation) : c.Change (c.perform o).2 := by
  cases o with
  | addDataset key d => exact change_addDataset c key d
  | addChannel ch => exact change_addChannel c ch
  | removeChannels node => exact change_removeChannels c node
  | removeDatasets node => exact change_removeDatasets c node
  | apply m =>
    rw [perform]
    split
    · rename_i h
      exact (applied_of_apply h).change
    · exact .refl c
  | buildWrite s => exact .refl c
  | readAction id => exact .refl c

/-! ## Keys and datasets say the same -/

/-- A key names a dataset if and only if the dataset was registered under it. -/
def Keyed (c : Catalog) : Prop :=
  ∀ key id, c.keys[key]? = some id ↔ ∃ d, c.definition? id = some (key, d)

theorem Keyed.empty : Keyed {} := by
  intro key id
  change (∅ : Std.TreeMap String DatasetId)[key]? = some id ↔
    ∃ d, (∅ : Std.TreeMap DatasetId DatasetEntry)[id]?.map _ = some (key, d)
  simp

/-- A number that stands for a dataset was given out. -/
theorem Sound.le_lastId (hc : Sound c) {x : String × Dataset} (h : c.definition? id = some x) :
    id ≤ c.lastId := by
  obtain ⟨e, he, -⟩ := Option.map_eq_some_iff.1 h
  exact hc.given he

theorem Keyed.change (hc : Keyed c) (sound : Sound c) (h : c.Change c') : Keyed c' := by
  intro key id
  cases h with
  | none lastId keys definition => rw [keys, definition, hc key id]
  | register newKey d new lastId keys definition =>
    -- no key names the next number yet, because it stands for nothing
    have unused : c.definition? (c.lastId + 1) = Option.none := by
      rcases hused : c.definition? (c.lastId + 1) with _ | x
      · rfl
      · exact absurd (sound.le_lastId hused) (Nat.not_succ_le_self _)
    rw [keys, Std.TreeMap.getElem?_insert, definition]
    by_cases hkey : newKey = key
    · subst hkey
      rw [if_pos Std.ReflCmp.compare_self]
      by_cases hid : id = c.lastId + 1
      · simp [hid]
      · have hold : ¬∃ d', c.definition? id = some (newKey, d') := by
          rw [← hc, new]
          exact Option.some_ne_none id ∘ Eq.symm
        simp [hid, Ne.symm hid, hold]
    · rw [if_neg fun h => hkey (Std.LawfulEqCmp.compare_eq_iff_eq.1 h), hc]
      by_cases hid : id = c.lastId + 1
      · simp [hid, hkey, unused]
      · simp [hid]
  | remove node lastId keys definition =>
    rw [keys, hc, definition]
    constructor
    · rintro ⟨⟨d, hd⟩, stays⟩
      exact ⟨d, by simp [hd, stays id d hd]⟩
    · rintro ⟨d, hd⟩
      obtain ⟨hd, hnode⟩ := Option.filter_eq_some_iff.1 hd
      refine ⟨⟨d, hd⟩, fun id' d' hd' => ?_⟩
      -- the key has one number, so what goes under the key is what stays under it
      have hsame : id = id' := Option.some.inj (((hc key id).2 ⟨d, hd⟩).symm.trans
        ((hc key id').2 ⟨d', hd'⟩))
      subst hsame
      rw [hd] at hd'
      cases hd'
      simpa using hnode

theorem Built.keyed (hc : Built c) : Keyed c := by
  induction hc with
  | empty => exact Keyed.empty
  | addDataset key d hc ih => exact ih.change hc.sound (change_addDataset _ key d)
  | addChannel ch hc ih => exact ih.change hc.sound (change_addChannel _ ch)
  | removeChannels node hc ih => exact ih.change hc.sound (change_removeChannels _ node)
  | removeDatasets node hc ih => exact ih.change hc.sound (change_removeDatasets _ node)
  | apply h hc ih => exact ih.change hc.sound (applied_of_apply h).change

/-! ## Numbers are not given out again -/

/-- what a number that was given out stands for stays or goes, and numbers are counted up -/
structure Precedes (c c' : Catalog) : Prop where
  lastId : c.lastId ≤ c'.lastId
  definition : ∀ id ≤ c.lastId,
    c'.definition? id = c.definition? id ∨ c'.definition? id = none

theorem Precedes.refl (c : Catalog) : c.Precedes c := ⟨Nat.le_refl _, fun _ _ => .inl rfl⟩

theorem Precedes.trans (h : c.Precedes c') (h' : c'.Precedes c'') : c.Precedes c'' := by
  refine ⟨Nat.le_trans h.lastId h'.lastId, fun id hid => ?_⟩
  rcases h'.definition id (Nat.le_trans hid h.lastId) with stays | gone
  · rw [stays]
    exact h.definition id hid
  · exact .inr gone

/-- What stands for nothing does so from then on. -/
theorem Precedes.gone (h : c.Precedes c') (given : id ≤ c.lastId)
    (gone : c.definition? id = none) : c'.definition? id = none := by
  rcases h.definition id given with stays | gone'
  · rw [stays, gone]
  · exact gone'

/-- What stands for a dataset stood for it before. -/
theorem Precedes.live (h : c.Precedes c') (given : id ≤ c.lastId) {x : String × Dataset}
    (live : c'.definition? id = some x) : c.definition? id = some x := by
  rcases h.definition id given with stays | gone
  · exact stays ▸ live
  · rw [gone] at live
    cases live

theorem Change.precedes (h : c.Change c') : c.Precedes c' := by
  cases h with
  | none lastId keys definition => exact ⟨Nat.le_of_eq lastId.symm, fun id _ => .inl (definition id)⟩
  | register key d new lastId keys definition =>
    refine ⟨by rw [lastId]; exact Nat.le_succ _, fun id hid => .inl ?_⟩
    rw [definition, if_neg (Nat.ne_of_lt (Nat.lt_succ_of_le hid))]
  | remove node lastId keys definition =>
    refine ⟨Nat.le_of_eq lastId.symm, fun id _ => ?_⟩
    rw [definition]
    rcases c.definition? id with _ | x
    · exact .inl rfl
    · rw [Option.filter_some]
      split
      · exact .inl rfl
      · exact .inr rfl

theorem precedes_run (c : Catalog) (ops : List Operation) : c.Precedes (c.run ops) := by
  induction ops generalizing c with
  | nil => exact .refl c
  | cons o ops ih => exact (change_perform c o).precedes.trans (ih _)

/-! ## Answers -/

theorem perform_of_number {o : Operation} (h : (c.perform o).1 = .number id) :
    ∃ key d, o = .addDataset key d ∧ (c.addDataset key d).1 = id := by
  cases o with
  | addDataset key d => exact ⟨key, d, rfl, Answer.number.inj h⟩
  | apply m =>
    rw [perform] at h
    split at h <;> cases h
  | addChannel ch => cases h
  | removeChannels node => cases h
  | removeDatasets node => cases h
  | buildWrite s => cases h
  | readAction id => cases h

/-- A number that is answered stands for a dataset or is the next one. -/
theorem number_live_or_next (hc : Built c) {o : Operation} (h : (c.perform o).1 = .number id) :
    (∃ x, c.definition? id = some x) ∨ id = c.lastId + 1 := by
  obtain ⟨key, d, -, rfl⟩ := perform_of_number h
  rcases hkey : c.keys[key]? with _ | known
  · exact .inr (addDataset_of_new hkey d)
  · obtain ⟨x, hx⟩ := (hc.keyed key known).1 hkey
    rw [addDataset_of_known hkey]
    exact .inl ⟨_, hx⟩

/-- The number that is answered is the key's. -/
theorem getElem?_keys_addDataset (c : Catalog) (key : String) (d : Dataset) :
    (c.addDataset key d).2.1.keys[key]? = some (c.addDataset key d).1 := by
  rcases hkey : c.keys[key]? with _ | known
  · rw [addDataset, hkey]
    exact Std.TreeMap.getElem?_insert_self
  · rw [addDataset_of_known hkey, hkey]

/-- A number that is answered was given out by then. -/
theorem number_le_lastId (hc : Built c) {o : Operation} (h : (c.perform o).1 = .number id) :
    id ≤ (c.perform o).2.lastId := by
  obtain ⟨key, d, rfl, rfl⟩ := perform_of_number h
  have built := hc.addDataset key d
  obtain ⟨d', live⟩ := (built.keyed key _).1 (getElem?_keys_addDataset c key d)
  exact built.sound.le_lastId live

theorem le_lastId_of_number_mem (hc : Built c) {ops : List Operation}
    (h : .number id ∈ c.answers ops) : id ≤ (c.run ops).lastId := by
  induction ops generalizing c with
  | nil => cases h
  | cons o ops ih =>
    rcases List.mem_cons.1 h with answered | later
    · exact Nat.le_trans (number_le_lastId hc answered.symm) (precedes_run _ ops).lastId
    · exact ih (hc.perform o) later

/-- A number that was given out and stands for nothing is never answered again. -/
theorem number_notMem_answers (hc : Built c) (given : id ≤ c.lastId)
    (gone : c.definition? id = none) (ops : List Operation) : .number id ∉ c.answers ops := by
  induction ops generalizing c with
  | nil => exact List.not_mem_nil
  | cons o ops ih =>
    have step := (change_perform c o).precedes
    intro h
    rcases List.mem_cons.1 h with answered | later
    · -- a key that is known has a number that is live, and a new one gets a higher number
      rcases number_live_or_next hc answered.symm with ⟨x, live⟩ | next
      · rw [gone] at live
        cases live
      · exact absurd (next ▸ given) (Nat.not_succ_le_self _)
    · exact ih (hc.perform o) (Nat.le_trans given step.lastId) (step.gone given gone) later

/-- Each registration counts up by one at most. -/
theorem lastId_perform_le (c : Catalog) (o : Operation) :
    (c.perform o).2.lastId ≤ c.lastId + if o.isRegistration then 1 else 0 := by
  cases o with
  | addDataset key d =>
    cases change_addDataset c key d with
    | none lastId => exact Nat.le_succ_of_le (Nat.le_of_eq lastId)
    | register _ _ _ lastId => exact Nat.le_of_eq lastId
    | remove _ lastId => exact Nat.le_succ_of_le (Nat.le_of_eq lastId)
  | addChannel ch =>
    change (c.addChannel ch).2.1.lastId ≤ c.lastId
    rw [addChannel]
    split <;> exact Nat.le_refl _
  | apply m =>
    rw [perform]
    split
    · rename_i h
      exact Nat.le_of_eq (applied_of_apply h).lastId
    · exact Nat.le_refl _
  | removeChannels node => exact Nat.le_refl _
  | removeDatasets node => exact Nat.le_refl _
  | buildWrite s => exact Nat.le_refl _
  | readAction id => exact Nat.le_refl _

theorem lastId_run_le (c : Catalog) (ops : List Operation) :
    (c.run ops).lastId ≤ c.lastId + ops.countP Operation.isRegistration := by
  induction ops generalizing c with
  | nil => exact Nat.le_refl _
  | cons o ops ih =>
    calc ((c.perform o).2.run ops).lastId
      _ ≤ (c.perform o).2.lastId + ops.countP Operation.isRegistration := ih _
      _ ≤ c.lastId + (if o.isRegistration then 1 else 0)
            + ops.countP Operation.isRegistration :=
          Nat.add_le_add_right (lastId_perform_le c o) _
      _ = c.lastId + (o :: ops).countP Operation.isRegistration := by
          rw [List.countP_cons]
          omega

/-! ## Numbers that stand for nothing -/

/-- whoever comes with the number finds nothing -/
structure Unknown (c : Catalog) (id : DatasetId) : Prop where
  dataset : c.dataset? id = none
  key : ∀ key : String, c.keys[key]? ≠ some id
  /-- no channel is bound to it -/
  channel : ∀ {ch : ChannelId} {e : ChannelEntry},
    c.channels[ch]? = some e → e.channel.dataset ≠ id
  addChannel : ∀ ch : Channel, ch.dataset = id → (c.addChannel ch).1 = false
  apply : ∀ m : Message, m.dataset = id → c.apply m = .error .unknownDataset
  readAction : c.readAction id = .error .unknownDataset

theorem Built.unknown (hc : Built c) (gone : c.definition? id = none) : c.Unknown id := by
  have none : c.datasets[id]? = none := Option.map_eq_none_iff.1 gone
  refine ⟨?_, fun key hkey => ?_, fun he hid => ?_, fun ch hid => ?_, fun m hid => ?_, ?_⟩
  · rw [dataset?, none]
    rfl
  · obtain ⟨d, live⟩ := (hc.keyed key id).1 hkey
    rw [gone] at live
    cases live
  · obtain ⟨d, live, -⟩ := checkChannel_eq_ok (hc.sound.fits he)
    rw [hid, none] at live
    cases live
  · rw [Catalog.addChannel, checkChannel, hid, none]
  · rw [Catalog.apply, hid, none]
  · rw [Catalog.readAction, none]

/-! ## What holds over a run -/

/-- **Over every run, keys and datasets say the same, channels fit, and a number stands for one
dataset or none.** -/
theorem consistent_over_runs (before later : List Operation) :
    let c := run {} before
    c.Keyed ∧
    (∀ (id : ChannelId) (e : ChannelEntry), c.channels[id]? = some e → ∃ d,
      c.dataset? e.channel.dataset = some d ∧ e.channel.checkFootprint d = .ok ()) ∧
    (∀ id x, c.definition? id = some x →
      (c.run later).definition? id = some x ∨ (c.run later).definition? id = none) ∧
    (∀ node id x, c.definition? id = some x →
      (c.perform (.removeDatasets node)).2.definition? id
        = if x.2.node = node then none else some x) ∧
    (∀ id, .number id ∈ answers {} before → c.definition? id = none →
      (c.run later).Unknown id ∧ .number id ∉ c.answers later) ∧
    (∀ key d,
      (∀ id, c.keys[key]? = some id → c.perform (.addDataset key d) = (.number id, c)) ∧
      (c.keys[key]? = none → ∃ id, .number id ∉ answers {} before ∧
        (c.perform (.addDataset key d)).1 = .number id ∧
        (c.perform (.addDataset key d)).2.definition? id = some (key, d))) ∧
    (∀ o, (c.perform o).1.Refused → (c.perform o).2 = c) ∧
    c.lastId ≤ before.countP Operation.isRegistration := by
  intro c
  have built : Built c := Built.empty.run before
  have given {id : DatasetId} (h : .number id ∈ answers {} before) : id ≤ c.lastId :=
    le_lastId_of_number_mem .empty h
  refine ⟨built.keyed, fun id e he => ?_, fun id x live => ?_, fun node id x live => ?_,
    fun id answered gone => ⟨?_, ?_⟩, fun key d => ⟨fun id hkey => ?_, fun new => ?_⟩,
    fun o => perform_of_refused, ?_⟩
  · obtain ⟨entry, hentry, fits⟩ := checkChannel_eq_ok (built.sound.fits he)
    exact ⟨entry.dataset, by rw [dataset?, hentry]; rfl, fits⟩
  · exact live ▸ (precedes_run c later).definition id (built.sound.le_lastId live)
  · refine (definition?_removeDatasets c node id).trans ?_
    rw [live, Option.filter_some]
    by_cases hnode : x.2.node = node <;> simp [hnode]
  · exact (built.run later).unknown ((precedes_run c later).gone (given answered) gone)
  · exact number_notMem_answers built (given answered) gone later
  · rw [perform, addDataset_of_known hkey]
  · refine ⟨c.lastId + 1, fun answered => absurd (given answered) (Nat.not_succ_le_self _), ?_, ?_⟩
    · rw [perform, addDataset_of_new new]
    · exact (definition?_addDataset new d _).trans (if_pos rfl)
  · calc c.lastId
      _ ≤ 0 + before.countP Operation.isRegistration := lastId_run_le {} before
      _ = before.countP Operation.isRegistration := Nat.zero_add _

/-- A key that comes back after its dataset is gone is given another number. -/
example :
    let tank : Dataset := { node := 1, cls := .holdingRegister, address := 40, length := 1 }
    let c := run {} [.addDataset "tank" tank, .removeDatasets 1, .addDataset "tank" tank]
    c.keys["tank"]? = some 2 ∧ c.dataset? 1 = none ∧ c.dataset? 2 = some tank := by
  decide +kernel

end Catalog

end BusMaster
