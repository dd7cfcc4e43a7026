import Mathlib.Order.Bounds.Basic
import BusMaster.Client.Run
import BusMaster.Proofs.Plant.Placement

/-!
# Lengths of datasets

The client polls so many values of a class, and makes a dataset for them. It reckons the length in
bits or in whole registers, rounded up, while a channel is taken where it ends within the bits of its
dataset (`Channel.checkFootprint_iff`). Both come to the same: the length is the least one with room
for the values (`MessageClass.isLeast_length`), and to have room for them is to take a channel at each
of their indexes (`Dataset.room_iff_takes`). So no poll fails for a channel that does not fit
(`Client.start_not_rejected`).
-/

namespace BusMaster

/-! ## Room for values -/

namespace MessageClass

/-- values of the class can be bound to such a dataset: bits hold only bit fields -/
def Binds (m : MessageClass) (v : ValueClass) : Prop :=
  m.isRegisters = true ∨ m.isBits = true ∧ v.isBitField = true

/-- number of bits in so many coils or registers -/
def bitsIn (m : MessageClass) (length : Nat) : Nat := if m.isBits then length else 16 * length

/-- there is room for so many values, one behind the other -/
def Room (m : MessageClass) (v : ValueClass) (count length : Nat) : Prop :=
  ∀ i < count, (i + 1) * v.width ≤ m.bitsIn length

/-- as many coils or registers as hold so many bits -/
def unitsFor (m : MessageClass) (bits : Nat) : Nat := if m.isBits then bits else (bits + 15) / 16

variable {m : MessageClass} {v : ValueClass} {count length : Nat}

/-- There is room for values if the last one has room. -/
theorem room_iff (pos : 0 < count) : m.Room v count length ↔ count * v.width ≤ m.bitsIn length := by
  refine ⟨fun room => ?_, fun fits i hi => (Nat.mul_le_mul_right _ hi).trans fits⟩
  have last := room (count - 1) (Nat.sub_lt pos Nat.one_pos)
  rwa [Nat.sub_add_cancel pos] at last

theorem unitsFor_le_iff {bits : Nat} : m.unitsFor bits ≤ length ↔ bits ≤ m.bitsIn length := by
  rw [unitsFor, bitsIn]
  split
  · exact Iff.rfl
  · omega

/-- **Just as many coils or registers as hold the bits of the values have room for them.** -/
theorem isLeast_length (pos : 0 < count) :
    IsLeast {length | m.Room v count length} (m.unitsFor (count * v.width)) :=
  ⟨(room_iff pos).2 (unitsFor_le_iff.1 (Nat.le_refl _)),
    fun _ room => unitsFor_le_iff.2 ((room_iff pos).1 room)⟩

end MessageClass

/-! ## Channels that are taken -/

/-- A dataset that binds values has as many bits as its length says. -/
theorem Dataset.bitLength_of_binds {d : Dataset} {v : ValueClass} (binds : d.cls.Binds v) :
    d.bitLength = d.cls.bitsIn d.length.toNat := by
  rw [bitLength, MessageClass.bitsIn]
  rcases binds with registers | ⟨bits, -⟩
  · rw [if_neg (by simp [d.cls.notBits_of_isRegisters registers]), if_pos registers,
      if_neg (by simp [d.cls.notBits_of_isRegisters registers])]
  · rw [if_pos bits, if_pos bits]

namespace Channel

variable {ch : Channel} {d : Dataset}

/-- A channel is taken exactly if it ends within the bits of a dataset that can bind it. -/
theorem checkFootprint_iff (binds : d.cls.Binds ch.cls) :
    ch.checkFootprint d = .ok () ↔ ch.last ≤ d.bitLength := by
  have wide : 0 < ch.cls.width := by cases ch.cls <;> decide
  have nonempty : 0 < ch.last := Nat.lt_of_lt_of_le wide (Nat.le_add_left ..)
  have kind : ¬(d.cls.isBits && !ch.cls.isBitField) = true := by
    rcases binds with registers | ⟨-, bitField⟩
    · simp [d.cls.notBits_of_isRegisters registers]
    · simp [bitField]
  rw [checkFootprint, if_neg kind]
  split
  · exact iff_of_false (fun h => nomatch h) (by omega)
  split
  · exact iff_of_false (fun h => nomatch h) (by omega)
  · exact iff_of_true rfl (by omega)

/-- The channel at an index ends where that many values and one more do. -/
theorem last_eq (ch : Channel) : ch.last = (ch.index.toNat + 1) * ch.cls.width := by
  rw [last, position, Nat.succ_mul]

end Channel

/-- **A dataset has room for so many values exactly if it takes a channel at each of their
indexes.** -/
theorem Dataset.room_iff_takes {d : Dataset} {v : ValueClass} (binds : d.cls.Binds v)
    (quantity : UInt16) : d.cls.Room v quantity.toNat d.length.toNat ↔
      ∀ ch : Channel, ch.cls = v → ch.index < quantity → ch.checkFootprint d = .ok () := by
  refine ⟨fun room ch cls index => ?_, fun takes i hi => ?_⟩
  · subst cls
    rw [Channel.checkFootprint_iff binds, ch.last_eq, bitLength_of_binds binds]
    exact room _ (UInt16.lt_iff_toNat_lt.1 index)
  · have small : i < UInt16.size := hi.trans quantity.toNat_lt
    have index : (UInt16.ofNat i).toNat = i := UInt16.toNat_ofNat_of_lt' small
    have taken := takes { id := "", dataset := 0, index := UInt16.ofNat i, cls := v } rfl
      (UInt16.lt_iff_toNat_lt.2 (index.symm ▸ hi))
    rwa [Channel.checkFootprint_iff binds, Channel.last_eq, bitLength_of_binds binds, index] at taken

namespace Catalog

variable {c : Catalog} {ch : Channel} {d : Dataset}

/-- What is asked of a channel is asked by its dataset. -/
theorem checkChannel_eq (hd : c.dataset? ch.dataset = some d) :
    c.checkChannel ch = ch.checkFootprint d := by
  rw [dataset?, Option.map_eq_some_iff] at hd
  obtain ⟨entry, hentry, rfl⟩ := hd
  rw [checkChannel, hentry]

/-- A channel is registered exactly if its dataset takes it. -/
theorem addChannel_iff (hd : c.dataset? ch.dataset = some d) :
    (c.addChannel ch).1 = true ↔ ch.checkFootprint d = .ok () := by
  rw [← checkChannel_eq hd, addChannel]
  split
  · rename_i fits
    exact iff_of_true rfl fits
  · rename_i fault fails
    rw [fails]
    exact iff_of_false Bool.false_ne_true (fun h => nomatch h)

end Catalog

/-! ## The length that is chosen -/

namespace DatasetOptions

variable {o : DatasetOptions} {quantity : UInt16}

/-- the least length with room for so many values -/
def leastLength (o : DatasetOptions) (quantity : UInt16) : Nat :=
  o.cls.unitsFor (quantity.toNat * o.value.width)

theorem isLeast_leastLength (o : DatasetOptions) (pos : 0 < quantity) :
    IsLeast {length | o.cls.Room o.value quantity.toNat length} (o.leastLength quantity) :=
  MessageClass.isLeast_length (UInt16.lt_iff_toNat_lt.1 pos)

theorem lengthFor_eq (o : DatasetOptions) (quantity : UInt16) :
    o.lengthFor quantity = if o.leastLength quantity < UInt16.size
      then .ok (UInt16.ofNat (o.leastLength quantity))
      else .error (.tooMany quantity o.value.width) := rfl

/-- A length that is found is the least one. -/
theorem lengthFor_eq_ok {n : UInt16} (h : o.lengthFor quantity = .ok n) :
    n.toNat = o.leastLength quantity := by
  rw [lengthFor_eq] at h
  split at h
  · rename_i small
    rw [← Except.ok.inj h, UInt16.toNat_ofNat_of_lt' small]
  · cases h

/-- None is found only if the least one is no word. -/
theorem lengthFor_eq_error {fault : ClientFault} (h : o.lengthFor quantity = .error fault) :
    fault = .tooMany quantity o.value.width ∧ 65535 < o.leastLength quantity := by
  rw [lengthFor_eq] at h
  split at h
  · cases h
  · rename_i large
    exact ⟨(Except.error.inj h).symm, Nat.le_of_not_lt large⟩

end DatasetOptions

/-! ## Polling -/

namespace Client

/-- Channels that fit their datasets are all registered. -/
theorem addChannels_of_fits {e : Engine} {channels : List Channel}
    (fits : ∀ ch ∈ channels, e.catalog.checkChannel ch = .ok ()) :
    (addChannels e channels).1 = none := by
  induction channels generalizing e with
  | nil => rfl
  | cons ch rest ih =>
    obtain ⟨first, later⟩ := List.forall_mem_cons.1 fits
    have taken : e.addChannel ch = (true, { e with catalog := { e.catalog with
        channels := e.catalog.channels.insert ch.id { channel := ch } } }.note []) := by
      rw [Engine.addChannel, Catalog.addChannel, first]
    rw [addChannels, taken]
    exact ih later

/-- The dataset of a poll is there once it is registered under a key that was free. -/
theorem dataset?_addDataset {e : Engine} (free : e.catalog.keys["cli"]? = none)
    (o : DatasetOptions) (length : UInt16) (repeats : RepeatPolicy) :
    (addDataset e o length repeats).2.catalog.dataset? (addDataset e o length repeats).1 =
      some { node := node, cls := o.cls, address := o.address, length := length,
             offset := o.offset, repeats := repeats } := by
  simp only [addDataset, Engine.addDataset, Catalog.addDataset, free]
  change Option.map _ (Std.TreeMap.insert _ _ _)[_]? = _
  rw [Std.TreeMap.getElem?_insert_self]
  rfl

/-- **No channel of a poll is refused.** -/
theorem startPoll_not_rejected {c : Client} {o : DatasetOptions} {quantity : UInt16}
    (binds : o.cls.Binds o.value) (pos : 0 < quantity)
    (free : c.engine.catalog.keys["cli"]? = none) (period : Nat) (fast : Bool) (id : ChannelId) :
    (c.startPoll o quantity period fast).activity ≠ .finished (some (.rejected id)) := by
  rw [startPoll]
  split
  · rename_i fault h
    rw [(DatasetOptions.lengthFor_eq_error h).1]
    rintro ⟨⟩
  · rename_i length h
    dsimp only
    rw [show addChannels _ _ = (none, _) from Prod.ext (addChannels_of_fits ?_) rfl]
    · dsimp only
      split
      · rintro ⟨⟩
      · rintro ⟨⟩
    · intro ch hch
      obtain ⟨index, hindex, rfl⟩ := List.mem_map.1 hch
      rw [List.mem_range] at hindex
      have small : index < UInt16.size := hindex.trans quantity.toNat_lt
      have within : UInt16.ofNat index < quantity :=
        UInt16.lt_iff_toNat_lt.2 (by rwa [UInt16.toNat_ofNat_of_lt' small])
      have room : o.cls.Room o.value quantity.toNat length.toNat := by
        rw [DatasetOptions.lengthFor_eq_ok h]
        exact (o.isLeast_leastLength pos).1
      rw [Catalog.checkChannel_eq (dataset?_addDataset free o length _)]
      exact (Dataset.room_iff_takes (v := o.value) binds quantity).1 room _ rfl within

/-- A poll that was set out was not ended for a channel. -/
theorem start_not_rejected {arguments : Arguments} {attempts : List Attempt} {c : Client}
    {o : DatasetOptions} {quantity : UInt16} {period : Nat} {fast : Bool}
    (binds : o.cls.Binds o.value) (pos : 0 < quantity)
    (command : arguments.command = .poll o quantity period fast)
    (h : start arguments attempts = .ok c) (id : ChannelId) :
    c.activity ≠ .finished (some (.rejected id)) := by
  rw [start] at h
  obtain ⟨settings, -, h⟩ := bind_eq_ok h
  dsimp only at h
  split at h
  · obtain rfl := Except.ok.inj h
    rintro ⟨⟩
  · rename_i e hconnect
    obtain rfl := Except.ok.inj h
    rw [command]
    refine startPoll_not_rejected binds pos ?_ period fast id
    -- nothing is registered before the command is set out
    have empty : e.catalog = {} := (congrArg (fun r => r.2.catalog) hconnect).symm
    change e.catalog.keys["cli"]? = none
    rw [empty]
    exact Std.TreeMap.getElem?_emptyc

end Client

/-- **The datasets of the client fit their channels.** Take values of a class that the dataset can
bind, one or more of them. A length that is found is the least one with room for them, which means
that a dataset of it takes a channel at each of their indexes. Wherever such a dataset is registered,
a channel at one of these indexes is registered with it, and no channel that ends behind its bits is.
No length is found only if the least one is no word. So a poll of these values is never ended for one
of its channels. -/
theorem lengthFor_fits {o : DatasetOptions} {quantity : UInt16} (binds : o.cls.Binds o.value)
    (pos : 0 < quantity) :
    (∀ n, o.lengthFor quantity = .ok n →
      IsLeast {length | o.cls.Room o.value quantity.toNat length} n.toNat ∧
      ∀ {c : Catalog} {ch : Channel} {d : Dataset}, c.dataset? ch.dataset = some d →
        d.cls = o.cls → d.length = n → ch.cls = o.value →
          (ch.index < quantity → (c.addChannel ch).1 = true) ∧
          (d.bitLength < ch.last → (c.addChannel ch).1 = false)) ∧
    (∀ fault, o.lengthFor quantity = .error fault → fault = .tooMany quantity o.value.width ∧
      ∃ least, IsLeast {length | o.cls.Room o.value quantity.toNat length} least ∧
        65535 < least) ∧
    (∀ d : Dataset, d.cls = o.cls → (o.cls.Room o.value quantity.toNat d.length.toNat ↔
      ∀ ch : Channel, ch.cls = o.value → ch.index < quantity → ch.checkFootprint d = .ok ())) ∧
    ∀ {arguments : Arguments} {attempts : List Attempt} {c : Client} {period : Nat} {fast : Bool},
      arguments.command = .poll o quantity period fast → Client.start arguments attempts = .ok c →
        ∀ id, c.activity ≠ .finished (some (.rejected id)) := by
  have takes (d : Dataset) (cls : d.cls = o.cls) :
      o.cls.Room o.value quantity.toNat d.length.toNat ↔
        ∀ ch : Channel, ch.cls = o.value → ch.index < quantity → ch.checkFootprint d = .ok () := by
    rw [← cls] at binds ⊢
    exact Dataset.room_iff_takes binds quantity
  refine ⟨fun n h => ?_, fun fault h => ?_, takes,
    fun command h id => Client.start_not_rejected binds pos command h id⟩
  · have least := o.isLeast_leastLength pos
    rw [← DatasetOptions.lengthFor_eq_ok h] at least
    refine ⟨least, fun {c ch d} hd cls length value => ⟨fun index => ?_, fun behind => ?_⟩⟩
    · exact (Catalog.addChannel_iff hd).2 ((takes d cls).1 (length ▸ least.1) ch value index)
    · have binds' : d.cls.Binds ch.cls := by rwa [cls, value]
      rw [← Bool.not_eq_true, Catalog.addChannel_iff hd, Channel.checkFootprint_iff binds']
      exact Nat.not_le_of_lt behind
  · obtain ⟨tooMany, large⟩ := DatasetOptions.lengthFor_eq_error h
    exact ⟨tooMany, _, o.isLeast_leastLength pos, large⟩

/-! ## Meters -/

namespace Meters

/-- three bytes, which are one and a half registers -/
def levels : DatasetOptions := { address := 40, value := .uint8 }

/-- fractions, which are two registers each -/
def flows : DatasetOptions := { address := 40, value := .float32 }

def dataset : Dataset where
  node := Client.node
  cls := .holdingRegister
  address := 40
  length := 2

/-- Three bytes are polled in two registers, and forty thousand fractions in no dataset at all. -/
theorem levels_fit :
    levels.cls.Binds levels.value ∧ (0 : UInt16) < 3 ∧ levels.lengthFor 3 = .ok 2 ∧
    IsLeast {length | levels.cls.Room .uint8 3 length} 2 ∧
    ((Catalog.addDataset {} "cli" dataset).2.1.addChannel
      { id := "42", dataset := 1, index := 2, cls := .uint8 }).1 = true ∧
    ((Catalog.addDataset {} "cli" dataset).2.1.addChannel
      { id := "44", dataset := 1, index := 4, cls := .uint8 }).1 = false ∧
    flows.lengthFor 40000 = .error (.tooMany 40000 32) ∧
    (∃ least, IsLeast {length | flows.cls.Room .float32 40000 length} least ∧ 65535 < least) := by
  have registers {o : DatasetOptions} (h : o.cls = .holdingRegister) : o.cls.Binds o.value :=
    .inl (by rw [h]; rfl)
  obtain ⟨least, takes⟩ := (lengthFor_fits (registers (o := levels) rfl)
    (show 0 < 3 by decide)).1 2 rfl
  obtain ⟨-, large⟩ := (lengthFor_fits (registers (o := flows) rfl)
    (show 0 < 40000 by decide)).2.1 _ rfl
  have there : (Catalog.addDataset {} "cli" dataset).2.1.dataset? 1 = some dataset := rfl
  refine ⟨registers rfl, by decide, rfl, least, (takes there rfl rfl rfl).1 (by decide),
    (takes there rfl rfl rfl).2 (by decide), rfl, large⟩

end Meters

end BusMaster
