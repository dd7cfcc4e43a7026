import Mathlib.Data.List.Forall2
import BusMaster.Proofs.Plant.Canonical
import BusMaster.Proofs.Plant.Placement
import BusMaster.Proofs.Plant.Unmoved

/-!
# What change bitmaps ask for

A change bitmap is not a value for the host. It says which datasets changed on the device, and they
are read next. What one of its bits names is said by cases (`BitNames`), and a dataset is asked for
if some bit that is set names it and it may be read at all (`Catalog.AskedFor`). Two bits may name
the same dataset, and it is still read once: the reads of one bitmap go through the datasets in
ascending order and stop at each of them once (`Catalog.reads_named`). Bitmaps come in the order of
their channels, and each brings its own reads (`Catalog.cascades_of_bitmaps`).

A channel of that class keeps no value and reports none, since neither the reading of an entry nor
its report gets past its class (`Catalog.bitmap_unset`).
-/

namespace BusMaster

/-! ## What a bitmap says -/

/-- bit `b` of a change bitmap names what is in the scope: the first twelve bits one channel each,
the next three one element each, and the last one what has no scope -/
inductive BitNames (b : Nat) : Option Scope → Prop
  | channel {scope : Scope} : b ≤ 11 → scope.channel.toNat = b → BitNames b (some scope)
  | element {scope : Scope} : 12 ≤ b → b ≤ 14 → scope.element.toNat = b - 12 →
      BitNames b (some scope)
  | unscoped : b = 15 → BitNames b none

theorem BitNames.lt {b : Nat} {scope : Option Scope} (h : BitNames b scope) : b < 16 := by
  cases h <;> omega

theorem bitNames_none_iff {b : Nat} : BitNames b none ↔ b = 15 := by
  refine ⟨fun h => ?_, .unscoped⟩
  cases h
  assumption

theorem bitNames_some_iff {b : Nat} {scope : Scope} : BitNames b (some scope) ↔
    b ≤ 11 ∧ scope.channel.toNat = b ∨
      12 ≤ b ∧ b ≤ 14 ∧ scope.element.toNat = b - 12 := by
  constructor
  · rintro (⟨low, named⟩ | ⟨low, high, named⟩)
    · exact .inl ⟨low, named⟩
    · exact .inr ⟨low, high, named⟩
  · rintro (⟨low, named⟩ | ⟨low, high, named⟩)
    · exact .channel low named
    · exact .element low high named

theorem namedBy_iff {bitmap : UInt16} {d : Dataset} : namedBy bitmap d = true ↔
    ∃ b, bitmap.toNat.testBit b = true ∧ BitNames b d.scope := by
  rw [namedBy]
  simp only [List.any_eq_true, List.mem_range, Bool.and_eq_true]
  rcases d.scope with _ | scope
  · dsimp only
    constructor
    · rintro ⟨b, -, set, last⟩
      exact ⟨b, set, .unscoped (beq_iff_eq.1 last)⟩
    · rintro ⟨b, set, named⟩
      exact ⟨b, named.lt, set, beq_iff_eq.2 (bitNames_none_iff.1 named)⟩
  · have names (b : Nat) : (if b < 12 then scope.channel.toNat == b
        else if b < 15 then scope.element.toNat == b - 12 else false) = true ↔
        BitNames b (some scope) := by
      rw [bitNames_some_iff]
      split
      · rw [beq_iff_eq]
        omega
      split
      · rw [beq_iff_eq]
        omega
      · exact iff_of_false Bool.false_ne_true (by omega)
    dsimp only
    constructor
    · rintro ⟨b, -, set, named⟩
      exact ⟨b, set, (names b).1 named⟩
    · rintro ⟨b, set, named⟩
      exact ⟨b, named.lt, set, (names b).2 named⟩

/-- where the bits of a word are in its register, as bits of a payload are numbered -/
def ByteOrder.digit : ByteOrder → Nat → Nat
  | .natural, b => b
  | .swapped, b => (b + 8) % 16

/-- the channel is a change bitmap, and this is what it reads in a payload -/
structure Channel.ReadsBitmap (ch : Channel) (p : Payload) (w : UInt16) : Prop where
  cls : ch.cls = .changeBitmap
  value : ch.read p = .ok (.int w.toNat)
  digits : ∀ b < 16, w.toNat.testBit b = p.toBits.bit (ch.position + ch.encoding.order.digit b)

/-- **The digits of the word in a register**, in either order of its bytes. -/
theorem ByteOrder.testBit_readWord (order : ByteOrder) {bytes : Bytes} {k : Nat}
    (whole : 2 * k + 1 < bytes.length) {b : Nat} (hb : b < 16) :
    (order.readWord (bytes.getD (2 * k) 0) (bytes.getD (2 * k + 1) 0)).toNat.testBit b
      = (Payload.registers bytes).toBits.bit (16 * k + order.digit b) := by
  have low {j : Nat} (hj : j < 8) : (Payload.registers bytes).toBits.bit (16 * k + j)
      = (bytes.getD (2 * k + 1) 0).toNat.testBit j := by
    rw [show 16 * k + j = 8 * (2 * k) + j by omega,
      Channel.bit_toBits_registers (by omega) hj, otherHalf, if_pos (by omega)]
  have high {j : Nat} (hj : j < 8) : (Payload.registers bytes).toBits.bit (16 * k + (8 + j))
      = (bytes.getD (2 * k) 0).toNat.testBit j := by
    rw [show 16 * k + (8 + j) = 8 * (2 * k + 1) + j by omega,
      Channel.bit_toBits_registers (by omega) hj, otherHalf, if_neg (by omega),
      Nat.add_sub_cancel]
  cases order with
  | natural =>
    rw [readWord, digit, BitSeq.testBit_wordOf]
    split
    · rename_i hlow
      rw [low hlow]
    · rename_i hhigh
      rw [← high (by omega), Nat.add_sub_cancel' (Nat.le_of_not_lt hhigh)]
  | swapped =>
    rw [readWord, digit, BitSeq.testBit_wordOf]
    split
    · rename_i hlow
      rw [← high hlow, show (b + 8) % 16 = 8 + b by omega]
    · rename_i hhigh
      rw [← low (by omega), show (b + 8) % 16 = b - 8 by omega]

/-- What a change bitmap reads is a word. -/
theorem Channel.exists_readsBitmap {ch : Channel} {p : Payload} {v : Value}
    (cls : ch.cls = .changeBitmap) (h : ch.read p = .ok v) :
    ∃ w : UInt16, v = .int w.toNat ∧ ch.ReadsBitmap p w := by
  obtain ⟨within, ⟨bitField, -⟩ | ⟨-, bytes, rfl, decoded⟩⟩ := read_eq_ok h
  · rw [cls] at bitField
    cases bitField
  have hposition : ch.position = 16 * ch.index.toNat := by
    rw [position, cls, Nat.mul_comm]
    rfl
  have hfirst : ch.firstByte = 2 * ch.index.toNat := by
    rw [firstByte, cls, if_neg (by decide), hposition]
    omega
  have whole : 2 * ch.index.toNat + 1 < bytes.length := by
    change ch.position + ch.cls.width ≤ 8 * bytes.length at within
    rw [hposition, cls] at within
    change _ + 16 ≤ _ at within
    omega
  have hslice : slice bytes ch.firstByte (ch.cls.width / 8)
      = [bytes.getD (2 * ch.index.toNat) 0, bytes.getD (2 * ch.index.toNat + 1) 0] := by
    rw [hfirst, cls, slice, List.drop_eq_getElem_cons (by omega),
      List.drop_eq_getElem_cons whole, List.getD_eq_getElem _ _ (by omega),
      List.getD_eq_getElem _ _ whole]
    rfl
  rw [hslice, cls] at decoded
  have value : v = .int (ch.encoding.order.readWord (bytes.getD (2 * ch.index.toNat) 0)
      (bytes.getD (2 * ch.index.toNat + 1) 0)).toNat := by
    cases hscale : ch.encoding.scale <;>
      simp only [Encoding.decodeBytes, Encoding.rawInteger, hscale] at decoded <;>
      exact (Except.ok.inj decoded).symm
  exact ⟨_, value, cls, value ▸ h, fun b hb => by
    rw [hposition, ByteOrder.testBit_readWord _ whole hb]⟩

namespace ChannelEntry

variable {e : ChannelEntry} {p : Payload}

theorem bitmap?_eq_some_iff {w : UInt16} :
    e.bitmap? p = some w ↔ e.channel.ReadsBitmap p w := by
  constructor
  · intro h
    rw [bitmap?] at h
    split at h
    · rename_i i cls hread
      obtain ⟨w', hw', reads⟩ := Channel.exists_readsBitmap cls hread
      obtain rfl := Value.int.inj hw'
      rw [UInt16.ofInt_toNat] at h
      exact Option.some.inj h ▸ reads
    · cases h
  · rintro ⟨cls, value, -⟩
    rw [bitmap?, cls, value]
    exact congrArg some (UInt16.ofInt_toNat w)

theorem refresh_of_bitmap (cls : e.channel.cls = .changeBitmap) : e.refresh p = e := by
  rw [refresh]
  split
  · rfl
  · exact if_pos (.inl cls)

theorem report?_of_bitmap (cls : e.channel.cls = .changeBitmap) (policy : ReportPolicy) :
    e.report? policy p = none := by
  rw [report?]
  split
  · rfl
  · exact if_pos cls

end ChannelEntry

namespace Catalog

variable {c c' : Catalog} {m : Message} {u : Update} {lines : List LogLine}

/-- A change bitmap has no value, and had none. -/
theorem bitmap_unset (ops : List Operation) {id : ChannelId} {e : ChannelEntry}
    (he : (run {} ops).channels[id]? = some e) (cls : e.channel.cls = .changeBitmap) :
    e.current = none ∧ e.previous = none := by
  induction ops using List.reverseRecOn generalizing e with
  | nil =>
    change (∅ : Std.TreeMap ChannelId ChannelEntry)[_]? = _ at he
    simp at he
  | append_singleton ops o ih =>
    rw [run_concat] at he
    cases heard_perform he with
    | before he _ _ => exact ih he cls
    | registered _ _ _ => exact ⟨rfl, rfl⟩
    | @told m e _ hold _ _ =>
      rw [channel_refresh] at cls
      rw [ChannelEntry.refresh_of_bitmap cls]
      exact ih hold cls

/-! ## What a bitmap asks for -/

/-- a change bitmap of dataset `id` on `node` asks for the dataset `other`: some bit that is set
names it, it is another dataset of the node that the host is told about, and it can be read -/
structure AskedFor (c : Catalog) (id : DatasetId) (node : NodeId) (bitmap : UInt16)
    (other : DatasetId) (d : Dataset) : Prop where
  registered : c.dataset? other = some d
  another : other ≠ id
  node : d.node = node
  external : d.internal = false
  kind : d.cls.isBits = true ∨ d.cls.isRegisters = true
  named : ∃ b, bitmap.toNat.testBit b = true ∧ BitNames b d.scope

/-- the read of a dataset, once, of all of it -/
def cascade (id : DatasetId) (d : Dataset) : Action where
  dataset := id
  node := d.node
  cls := d.cls
  action := .read
  repeats := .once
  address := d.address
  offset := d.offset
  length := d.length
  payload := none
  internal := false
  retries := 0

/-- the actions read what the bitmap asks for, each dataset once, in ascending order -/
def Reads (c : Catalog) (id : DatasetId) (node : NodeId) (bitmap : UInt16)
    (actions : List Action) : Prop :=
  ∃ asked : List (DatasetId × Dataset), asked.Pairwise (fun x y => x.1 < y.1) ∧
    (∀ other d, (other, d) ∈ asked ↔ c.AskedFor id node bitmap other d) ∧
    actions = asked.map fun x => cascade x.1 x.2

theorem once_ofDataset_eq (id : DatasetId) {d : Dataset} (external : d.internal = false)
    (kind : d.cls.isBits = true ∨ d.cls.isRegisters = true) :
    { Action.ofDataset id d with repeats := .once } = cascade id d := by
  rw [cascade, ← external, ← Action.action_ofDataset id kind]
  rfl

/-- **The reads of one bitmap are those it asks for.** -/
theorem reads_named (c : Catalog) (id : DatasetId) (node : NodeId) (bitmap : UInt16) :
    c.Reads id node bitmap (c.named id node bitmap) := by
  refine ⟨(c.datasets.toList.filter fun x =>
      x.1 != id && x.2.dataset.node == node && !x.2.dataset.internal
        && (x.2.dataset.cls.isBits || x.2.dataset.cls.isRegisters)
        && namedBy bitmap x.2.dataset).map fun x => (x.1, x.2.dataset), ?_, fun other d => ?_, ?_⟩
  · rw [List.pairwise_map]
    refine (Std.TreeMap.ordered_keys_toList.imp fun {a b} less => ?_).filter _
    exact Nat.compare_eq_lt.1 less
  · simp only [List.mem_map, List.mem_filter, Std.TreeMap.mem_toList_iff_getElem?_eq_some,
      Bool.and_eq_true, Bool.or_eq_true, bne_iff_ne, beq_iff_eq, Bool.not_eq_true', namedBy_iff,
      Prod.exists, Prod.mk.injEq]
    constructor
    · rintro ⟨other, e, ⟨he, ⟨⟨⟨another, node⟩, external⟩, kind⟩, named⟩, rfl, rfl⟩
      exact ⟨by rw [dataset?, he]; rfl, another, node, external, kind, named⟩
    · rintro ⟨registered, another, node, external, kind, named⟩
      obtain ⟨e, he, rfl⟩ := Option.map_eq_some_iff.1 registered
      exact ⟨other, e, ⟨he, ⟨⟨⟨another, node⟩, external⟩, kind⟩, named⟩, rfl, rfl⟩
  · rw [named, List.map_map]
    refine List.map_congr_left fun x hx => ?_
    simp only [List.mem_filter, Bool.and_eq_true, Bool.or_eq_true, Bool.not_eq_true'] at hx
    exact once_ofDataset_eq x.1 hx.2.1.1.2 hx.2.1.2

theorem cascades_of_apply (h : c.apply m = .ok (u, c', lines)) {entry : DatasetEntry}
    (hentry : c.datasets[m.dataset]? = some entry) :
    u.cascades = if fansOut entry.dataset (differs entry.cache m.payload) then
      ((c.boundTo m.dataset).filterMap fun e => e.bitmap? m.payload).flatMap
        (c.named m.dataset entry.dataset.node) else [] := by
  rw [Catalog.apply, hentry] at h
  dsimp only at h
  split at h <;> cases h
  · rename_i fans
    rw [if_pos fans]
  · rename_i silent
    rw [if_neg silent]

theorem reads_of_bitmaps (c : Catalog) (id : DatasetId) (node : NodeId)
    (bitmaps : List (ChannelId × UInt16)) :
    List.Forall₂ (fun x actions => c.Reads id node x.2 actions) bitmaps
      (bitmaps.map fun x => c.named id node x.2) := by
  rw [List.forall₂_map_right_iff, List.forall₂_same]
  exact fun x _ => c.reads_named id node x.2

/-- The bitmaps of a message that is passed on come in the order of their channels, and each brings
its reads. -/
theorem cascades_of_bitmaps (named : Named c) (h : c.apply m = .ok (u, c', lines))
    (passed : c.PassesOn m) : ∃ bitmaps : List (ChannelId × UInt16),
      bitmaps.Pairwise (fun x y => x.1 < y.1) ∧
      (∀ id w, (id, w) ∈ bitmaps ↔ ∃ ch, c.channel? id = some ch ∧ ch.dataset = m.dataset ∧
        ch.ReadsBitmap m.payload w) ∧
      u.cascades = bitmaps.flatMap fun x => c.named m.dataset u.dataset.node x.2 := by
  obtain ⟨entry, hentry, fans⟩ := passed
  have hcascades := cascades_of_apply h hentry
  rw [if_pos fans, ← (update_of_apply h hentry).1] at hcascades
  refine ⟨(c.boundTo m.dataset).filterMap fun e =>
    (e.bitmap? m.payload).map (e.channel.id, ·), ?_, fun id w => ?_, ?_⟩
  · refine List.pairwise_filterMap.2 ((named.sorted_boundTo m.dataset).imp ?_)
    intro a b less x hx y hy
    obtain ⟨_, -, rfl⟩ := Option.map_eq_some_iff.1 hx
    obtain ⟨_, -, rfl⟩ := Option.map_eq_some_iff.1 hy
    exact less
  · simp only [List.mem_filterMap, Option.map_eq_some_iff, Prod.mk.injEq, mem_boundTo,
      ChannelEntry.bitmap?_eq_some_iff, channel?]
    constructor
    · rintro ⟨e, ⟨⟨key, he⟩, bound⟩, _, reads, rfl, rfl⟩
      exact ⟨e.channel, ⟨e, by rw [named he]; exact he, rfl⟩, bound, reads⟩
    · rintro ⟨_, ⟨e, he, rfl⟩, bound, reads⟩
      exact ⟨e, ⟨⟨id, he⟩, bound⟩, w, reads, named he, rfl⟩
  · rw [hcascades, List.flatMap_def, List.flatMap_def, List.map_filterMap, List.map_filterMap]
    refine congrArg (fun f => ((c.boundTo m.dataset).filterMap f).flatten) (funext fun e => ?_)
    rw [Option.map_map]
    rfl

/-- **Change bitmaps cascade exactly the datasets that they name.** A message that is passed on
brings the reads of each bitmap of its dataset that can be read, in the order of the channels, and
one that is not brings none. No state is reported for a bitmap, and it has no value before or
after. -/
theorem bitmaps_cascade_named_datasets (ops : List Operation)
    (h : (run {} ops).apply m = .ok (u, c', lines)) :
    (run {} ops).dataset? m.dataset = some u.dataset ∧
    ((run {} ops).PassesOn m → ∃ (bitmaps : List (ChannelId × UInt16)) (reads : List (List Action)),
      bitmaps.Pairwise (fun x y => x.1 < y.1) ∧
      (∀ id w, (id, w) ∈ bitmaps ↔ ∃ ch, (run {} ops).channel? id = some ch ∧
        ch.dataset = m.dataset ∧ ch.ReadsBitmap m.payload w) ∧
      List.Forall₂ (fun x actions =>
        (run {} ops).Reads m.dataset u.dataset.node x.2 actions) bitmaps reads ∧
      u.cascades = reads.flatten) ∧
    (¬(run {} ops).PassesOn m → u.cascades = []) ∧
    ∀ id ch, (run {} ops).channel? id = some ch → ch.cls = .changeBitmap →
      (∀ v, ch.read m.payload = .ok v → ∃ w, ch.ReadsBitmap m.payload w) ∧
      statesOf id u.states = [] ∧
      ((run {} ops).value? id = none ∧ (run {} ops).previous? id = none) ∧
      c'.channel? id = some ch ∧ c'.value? id = none ∧ c'.previous? id = none := by
  obtain ⟨entry, hentry, -⟩ := (applied_of_apply h).kept
  refine ⟨?_, fun passed => ?_, fun held => ?_, fun id ch hch cls => ?_⟩
  · rw [dataset?, hentry, (update_of_apply h hentry).1]
    rfl
  · obtain ⟨bitmaps, sorted, mem, hcascades⟩ := cascades_of_bitmaps (named_run ops) h passed
    exact ⟨bitmaps, _, sorted, mem, reads_of_bitmaps .., hcascades.trans List.flatMap_def⟩
  · have silent : ¬fansOut entry.dataset (differs entry.cache m.payload) = true :=
      fun fans => held ⟨entry, hentry, fans⟩
    rw [cascades_of_apply h hentry, if_neg silent]
  · obtain ⟨e, he, rfl⟩ := Option.map_eq_some_iff.1 hch
    obtain ⟨current, previous⟩ := bitmap_unset ops he cls
    have untold : statesOf id u.states = [] ∧ c'.channels[id]? = some e := by
      rcases apply_cases (named_run ops) h he with ⟨-, hstates, he'⟩ | ⟨-, hstates, he'⟩
      · rw [ChannelEntry.report?_of_bitmap cls] at hstates
        rw [ChannelEntry.refresh_of_bitmap cls] at he'
        exact ⟨hstates, he'⟩
      · exact ⟨hstates, he'⟩
    obtain ⟨hstates, he'⟩ := untold
    refine ⟨fun v hv => ?_, hstates, ⟨?_, ?_⟩, ?_, ?_, ?_⟩
    · obtain ⟨w, -, reads⟩ := Channel.exists_readsBitmap cls hv
      exact ⟨w, reads⟩
    · rw [value?, he, Option.bind_some, current]
    · rw [previous?, he, Option.bind_some, previous]
    · rw [channel?, he']
      rfl
    · rw [value?, he', Option.bind_some, current]
    · rw [previous?, he', Option.bind_some, previous]

/-! ## A hub

One register that says what changed in two rooms. -/

namespace Hub

def dataset : Dataset where
  node := 1
  cls := .inputRegister
  address := 0
  length := 1
  repeats := .fast

/-- bit 0 names the first channel, bit 13 the second element -/
def bitmap : Channel where
  id := "changes"
  dataset := 1
  index := 0
  cls := .changeBitmap

/-- registers of a room -/
def room (channel element : UInt8) : Dataset where
  node := 1
  cls := .holdingRegister
  address := 100
  length := 4
  scope := some ⟨channel, element⟩
  repeats := .slow

def history : List Operation :=
  [.addDataset "hub" dataset, .addChannel bitmap, .addDataset "first" (room 0 1),
    .addDataset "second" (room 3 2)]

/-- Both bits that are set name the first room, and no bit names the second one. -/
def reading : Message where
  dataset := 1
  payload := .registers [0x20, 0x01]

theorem first_room_is_read_once : ∃ u c' lines,
    (run {} history).apply reading = .ok (u, c', lines) ∧
      (∃ (bitmaps : List (ChannelId × UInt16)) (reads : List (List Action)),
        List.Forall₂ (fun x actions => (run {} history).Reads 1 1 x.2 actions) bitmaps reads ∧
        u.cascades = reads.flatten) ∧
      u.cascades = [cascade 2 (room 0 1)] ∧ c'.value? "changes" = none := by
  obtain ⟨-, passed, -, unset⟩ := bitmaps_cascade_named_datasets history (m := reading) rfl
  obtain ⟨bitmaps, reads, -, -, named, flat⟩ := passed ⟨_, rfl, rfl⟩
  exact ⟨_, _, _, rfl, ⟨bitmaps, reads, named, flat⟩, rfl,
    (unset "changes" bitmap rfl rfl).2.2.2.2.1⟩

end Hub

end Catalog

end BusMaster
