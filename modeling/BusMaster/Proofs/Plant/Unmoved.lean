import BusMaster.Proofs.Addressing
import BusMaster.Proofs.Plant.Extraction
import BusMaster.Proofs.Plant.Reported

/-!
# Channels that did not move

Reading a channel looks at its bits and at nothing else, in every payload, be it of whole registers
or not and whichever end of a byte comes first: two payloads with the same bits there are read as
one value, or one of them is not read at all (`Channel.read_unique`). So a message that leaves the
bits of a channel as they were brings the value that is known, and a channel that reports changes
has nothing to report.

Whether a value is known is asked of the values, not of the bits, and a fraction that is no number
is not even equal to itself. Such a channel reports whenever it is told, and its value becomes its
value before (`Catalog.unmoved_channel_is_silent_iff`).
-/

namespace BusMaster

namespace Channel

variable {ch : Channel} {p q : Payload} {v w : Value}

/-- both payloads have the same bits where the channel is -/
def SameBits (ch : Channel) (p q : Payload) : Prop :=
  ∀ i < ch.cls.width, p.toBits.bit (ch.position + i) = q.toBits.bit (ch.position + i)

/-- the channel reads a fraction that is no number -/
def HoldsNaN (ch : Channel) (p : Payload) : Prop :=
  ch.cls = .float32 ∧ ∃ x : Binary32, ch.read p = .ok (.float x.widen) ∧ x.IsNaN

/-! ## The bytes of a channel -/

/-- the first byte of a channel in register bytes -/
def firstByte (ch : Channel) : Nat :=
  if ch.cls.width = 8 then bytePosition ch.position else ch.position / 8

/-- Inversion for the reading of a channel. -/
theorem read_eq_ok (h : ch.read p = .ok v) : ch.last ≤ p.bitLength ∧
    ((ch.cls.isBitField = true ∧
        ch.encoding.decode ch.cls (.bits (p.toBits.range ch.position ch.last)) = .ok v) ∨
      ch.cls.isBitField = false ∧ ∃ bytes, p = .registers bytes ∧
        ch.encoding.decodeBytes ch.cls (slice bytes ch.firstByte (ch.cls.width / 8)) = .ok v) := by
  obtain ⟨field, hfield, h⟩ := bind_eq_ok h
  rw [extract.eq_def] at hfield
  split at hfield
  · cases hfield
  rename_i fits
  refine ⟨Nat.not_lt.1 fits, ?_⟩
  split at hfield
  · rename_i bitField
    obtain rfl := Except.ok.inj hfield
    exact .inl ⟨bitField, h⟩
  rename_i bytes
  refine .inr ⟨Bool.eq_false_iff.2 bytes, ?_⟩
  cases p with
  | bits s => cases hfield
  | registers data =>
    refine ⟨data, rfl, ?_⟩
    dsimp only at hfield
    rw [firstByte]
    split at hfield
    · rename_i byte
      obtain rfl := Except.ok.inj hfield
      rw [if_pos byte, byte]
      exact h
    · rename_i wide
      obtain rfl := Except.ok.inj hfield
      rw [if_neg wide]
      exact h

theorem slice_congr {a b : Bytes} {first count : Nat}
    (same : ∀ k, first ≤ k → k < first + count → a[k]? = b[k]?) :
    slice a first count = slice b first count := by
  refine List.ext_getElem? fun m => ?_
  rw [slice, slice]
  by_cases hm : m < count
  · rw [List.getElem?_take_of_lt hm, List.getElem?_take_of_lt hm, List.getElem?_drop,
      List.getElem?_drop]
    exact same _ (Nat.le_add_right ..) (Nat.add_lt_add_left hm _)
  · rw [List.getElem?_eq_none ((List.length_take_le ..).trans (Nat.le_of_not_lt hm)),
      List.getElem?_eq_none ((List.length_take_le ..).trans (Nat.le_of_not_lt hm))]

/-- A byte of a whole register is its eight bits. -/
theorem getElem?_eq_of_bits {a b : Bytes} {k : Nat} (ha : 2 * (k / 2) + 1 < a.length)
    (hb : 2 * (k / 2) + 1 < b.length)
    (same : ∀ j < 8, (Payload.registers a).toBits.bit (8 * otherHalf k + j)
      = (Payload.registers b).toBits.bit (8 * otherHalf k + j)) : a[k]? = b[k]? := by
  have digits : ∀ {bytes : Bytes}, 2 * (k / 2) + 1 < bytes.length → ∀ j < 8,
      (Payload.registers bytes).toBits.bit (8 * otherHalf k + j)
        = (bytes.getD k 0).toNat.testBit j := by
    intro bytes whole j hj
    rw [bit_toBits_registers (by rwa [otherHalf_div_two]) hj, otherHalf_otherHalf]
  have hbyte : a.getD k 0 = b.getD k 0 := by
    refine byte_eq_iff.2 fun j hj => ?_
    rw [← digits ha j hj, ← digits hb j hj, same j hj]
  rw [List.getD_eq_getElem _ _ (by omega), List.getD_eq_getElem _ _ (by omega)] at hbyte
  rw [List.getElem?_eq_getElem (by omega), List.getElem?_eq_getElem (by omega), hbyte]

/-- The bytes of a channel are of whole registers, and their bits are bits of the channel. -/
theorem byte_within {data : Bytes} (bytes : ch.cls.isBitField = false)
    (fits : ch.last ≤ 8 * data.length) (first : ch.firstByte < data.length) {k : Nat}
    (low : ch.firstByte ≤ k) (high : k < ch.firstByte + ch.cls.width / 8) :
    2 * (k / 2) + 1 < data.length ∧ ch.position ≤ 8 * otherHalf k ∧
      8 * otherHalf k + 8 ≤ ch.last := by
  rw [firstByte] at first low high
  rw [last] at fits ⊢
  -- the last byte may be half of a register, and then no channel reads it: a high byte would be
  -- followed by bits past the end, and the low one is not there
  by_cases byte : ch.cls.width = 8
  · have hposition : ch.position = 8 * ch.index.toNat := by rw [position, byte, Nat.mul_comm]
    rw [if_pos byte, bytePosition] at first low high
    rw [byte] at high fits ⊢
    unfold otherHalf
    split_ifs at first low high ⊢ <;> omega
  · obtain ⟨count, -, whole⟩ := ch.cls.width_eq bytes byte
    have hposition : ch.position = 16 * (count * ch.index.toNat) := by
      rw [position, whole, Nat.mul_comm, Nat.mul_assoc]
    rw [if_neg byte] at first low high
    rw [whole] at high fits ⊢
    generalize count * ch.index.toNat = register at hposition
    unfold otherHalf
    split_ifs <;> omega

theorem firstByte_lt {data : Bytes} {e : Encoding}
    (h : e.decodeBytes ch.cls (slice data ch.firstByte (ch.cls.width / 8)) = .ok v) :
    ch.firstByte < data.length := by
  by_contra past
  rw [slice, List.drop_eq_nil_of_le (Nat.le_of_not_lt past), List.take_nil] at h
  cases hcls : ch.cls <;> rw [hcls] at h <;> cases h

/-- **A channel reads one value at most from payloads with the same bits where it is.** -/
theorem read_unique (same : ch.SameBits p q) (hp : ch.read p = .ok v) (hq : ch.read q = .ok w) :
    v = w := by
  obtain ⟨fitp, ⟨bitField, readP⟩ | ⟨bytes, a, rfl, readP⟩⟩ := read_eq_ok hp <;>
    obtain ⟨fitq, ⟨bitField', readQ⟩ | ⟨bytes', b, rfl, readQ⟩⟩ := read_eq_ok hq
  · have decoded := ch.encoding.decode_bits_congr ch.cls
      (s := p.toBits.range ch.position ch.last) (t := q.toBits.range ch.position ch.last) rfl
      fun i => by
        rw [BitSeq.bit_range, BitSeq.bit_range, last_sub_position]
        by_cases hi : i < ch.cls.width
        · rw [same i hi]
        · rw [decide_eq_false hi, Bool.false_and, Bool.false_and]
    exact Except.ok.inj (readP.symm.trans (decoded.trans readQ))
  · rw [bitField] at bytes'
    cases bytes'
  · rw [bitField'] at bytes
    cases bytes
  · have sliced : slice a ch.firstByte (ch.cls.width / 8)
        = slice b ch.firstByte (ch.cls.width / 8) := by
      refine slice_congr fun k low high => ?_
      obtain ⟨wholeA, hposition, hlast⟩ := byte_within bytes fitp (firstByte_lt readP) low high
      obtain ⟨wholeB, -, -⟩ := byte_within bytes fitq (firstByte_lt readQ) low high
      refine getElem?_eq_of_bits wholeA wholeB fun j hj => ?_
      rw [last] at hlast
      have hbit := same (8 * otherHalf k + j - ch.position) (by omega)
      rwa [Nat.add_sub_cancel' (by omega)] at hbit
    rw [sliced] at readP
    exact Except.ok.inj (readP.symm.trans readQ)

/-! ## What is not equal to itself -/

/-- A fraction is read from a double word. -/
theorem exists_widen (fraction : ch.cls = .float32) (h : ch.read p = .ok v) :
    ∃ x : Binary32, v = .float x.widen := by
  obtain ⟨-, ⟨bitField, -⟩ | ⟨-, bytes, -, decoded⟩⟩ := read_eq_ok h
  · rw [fraction] at bitField
    cases bitField
  · rw [fraction, Encoding.decodeBytes.eq_def] at decoded
    split at decoded
    · rename_i power _
      cases power
    · exact ⟨_, (Except.ok.inj decoded).symm⟩
    · obtain ⟨raw, hraw, -⟩ := bind_eq_ok decoded
      cases hraw

/-- **What a channel reads is equal to itself exactly if it is a number or no fraction.** -/
theorem same_self_iff (h : ch.read p = .ok v) : v.same v = true ↔ ¬ch.HoldsNaN p := by
  by_cases fraction : ch.cls = .float32
  · obtain ⟨x, rfl⟩ := exists_widen fraction h
    have self : (Value.float x.widen).same (.float x.widen) = true ↔ ¬x.IsNaN := by
      rw [← Binary32.isNaN_widen, Value.same, Binary64.same_self_iff, Bool.not_eq_true]
    rw [self, HoldsNaN, not_iff_not]
    refine ⟨fun nan => ⟨fraction, x, h, nan⟩, fun ⟨_, y, hy, nan⟩ => ?_⟩
    have widened : x.widen = y.widen := Value.float.inj (Except.ok.inj (h.symm.trans hy))
    exact Binary32.isNaN_widen.1 (widened ▸ Binary32.isNaN_widen.2 nan)
  · exact iff_of_true (same_self_of_read fraction h) fun holds => fraction holds.1

end Channel

/-! ## What a channel makes of the bits it knows -/

namespace ChannelEntry

variable {e : ChannelEntry} {policy : ReportPolicy} {p q : Payload} {v : Value}

/-- A channel that reports changes tells nothing of the bits that it knows, and stays as it is,
unless they are no number. -/
theorem silent_of_sameBits (hv : e.current = some v) (hq : e.channel.read q = .ok v)
    (same : e.channel.SameBits p q) (change : e.channel.report.getD policy = .change)
    (number : ¬e.channel.HoldsNaN p) : e.report? policy p = none ∧ e.refresh p = e := by
  rcases hp : e.channel.read p with fault | w
  · rw [report?, refresh, hp]
    exact ⟨rfl, rfl⟩
  · obtain rfl := e.channel.read_unique same hp hq
    have known : isKnown e.current w = true := by
      rw [hv]
      exact (Channel.same_self_iff hp).2 number
    by_cases bitmap : e.channel.cls = .changeBitmap
    · rw [report?, refresh, hp]
      exact ⟨if_pos bitmap, if_pos (.inl bitmap)⟩
    · rw [report?_of_read bitmap hp, refresh_of_read bitmap hp, change]
      exact ⟨if_pos known, if_pos known⟩

/-- Bits that are no number are told. -/
theorem report?_of_holdsNaN (hv : e.current = some v) (hq : e.channel.read q = .ok v)
    (same : e.channel.SameBits p q) (change : e.channel.report.getD policy = .change)
    (nan : e.channel.HoldsNaN p) : e.report? policy p = some ⟨e.channel.id, v⟩ := by
  obtain ⟨fraction, x, hp, -⟩ := id nan
  have bitmap : e.channel.cls ≠ .changeBitmap := by
    rw [fraction]
    decide
  obtain rfl := e.channel.read_unique same hp hq
  have unknown : ¬isKnown e.current (.float x.widen) = true := by
    rw [hv]
    exact (Channel.same_self_iff hp).not_left.2 nan
  rw [report?_of_read bitmap hp, change]
  exact if_neg unknown

end ChannelEntry

namespace Catalog

/-- **A channel that reports changes is silent about bits that it knows exactly if it is not told of
them or they are a number.** Silent means that no state of it is reported, and that its value and
the one before stay. -/
theorem unmoved_channel_is_silent_iff (ops : List Operation) {m : Message} {u : Update}
    {c' : Catalog} {lines : List LogLine} (h : (run {} ops).apply m = .ok (u, c', lines))
    {id : ChannelId} {ch : Channel} (hch : (run {} ops).channel? id = some ch)
    (bound : ch.dataset = m.dataset) (change : ch.report.getD u.dataset.report = .change)
    {q : Payload} {v : Value} (hv : (run {} ops).value? id = some v) (hq : ch.read q = .ok v)
    (same : ch.SameBits m.payload q) :
    (statesOf id u.states = [] ∧ c'.value? id = (run {} ops).value? id ∧
        c'.previous? id = (run {} ops).previous? id) ↔
      ¬((run {} ops).PassesOn m ∧ ch.HoldsNaN m.payload) := by
  obtain ⟨e, he, rfl⟩ := Option.map_eq_some_iff.1 hch
  have known : e.current = some v := (value?_eq he).symm.trans hv
  have unmoved (he' : c'.channels[id]? = some e) : c'.value? id = (run {} ops).value? id ∧
      c'.previous? id = (run {} ops).previous? id := by
    rw [value?, value?, previous?, previous?, he', he]
    exact ⟨rfl, rfl⟩
  have told_iff : (run {} ops).Tells (.apply m) e.channel.dataset ↔ (run {} ops).PassesOn m :=
    tells_iff_passesOn bound
  rcases apply_cases (named_run ops) h he with ⟨told, hstates, he'⟩ | ⟨untold, hstates, he'⟩
  · by_cases nan : e.channel.HoldsNaN m.payload
    · refine iff_of_false (fun silent => ?_) (not_not_intro ⟨told_iff.1 told, nan⟩)
      rw [hstates, ChannelEntry.report?_of_holdsNaN known hq same change nan] at silent
      cases silent.1
    · obtain ⟨unreported, stays⟩ := ChannelEntry.silent_of_sameBits known hq same change nan
      rw [stays] at he'
      rw [unreported] at hstates
      exact iff_of_true ⟨hstates, unmoved he'⟩ fun heard => nan heard.2
  · exact iff_of_true ⟨hstates, unmoved he'⟩ fun heard => untold (told_iff.2 heard.1)

/-! ## A meter

A flow in two registers that is no number, and a third register beside it. -/

namespace Meter

def dataset : Dataset where
  node := 1
  cls := .holdingRegister
  address := 40
  length := 3

def flow : Channel where
  id := "flow"
  dataset := 1
  index := 0
  cls := .float32

def reading (beside : UInt8) : Message where
  dataset := 1
  payload := .registers [0x7F, 0xC0, 0, 0, 0, beside]

/-- The register beside the flow moves, and it is the flow that is reported. -/
theorem unmoved_flow_is_reported : ∃ u c' lines,
    (run {} [.addDataset "meter" dataset, .addChannel flow, .apply (reading 1)]).apply (reading 2)
        = .ok (u, c', lines) ∧
      flow.SameBits (reading 2).payload (reading 1).payload ∧
      ¬(statesOf "flow" u.states = [] ∧ c'.value? "flow" = some (.float ⟨0x7FF8000000000000⟩) ∧
        c'.previous? "flow" = none) := by
  have same : flow.SameBits (reading 2).payload (reading 1).payload := by
    change ∀ i < 32, _
    decide +kernel
  have nan : flow.HoldsNaN (reading 2).payload := ⟨rfl, ⟨0x7FC00000⟩, rfl, by decide⟩
  have silent := unmoved_channel_is_silent_iff
    [.addDataset "meter" dataset, .addChannel flow, .apply (reading 1)] (m := reading 2) rfl
    (show channel? _ "flow" = some flow from rfl) rfl rfl rfl rfl same
  exact ⟨_, _, _, rfl, same, fun known => silent.1 known ⟨⟨_, rfl, rfl⟩, nan⟩⟩

end Meter

end Catalog

end BusMaster
