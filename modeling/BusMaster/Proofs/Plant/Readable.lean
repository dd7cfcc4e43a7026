import BusMaster.Proofs.Bits.Listing
import BusMaster.Proofs.Plant.History
import BusMaster.Proofs.Plant.WriteBack
import BusMaster.Proofs.Query.Answers
import BusMaster.Proofs.Query.Enumeration
import BusMaster.Proofs.ReadBack.Standard

/-!
# Channels that can be read

A channel is taken only where its bits lie within its dataset, and what a read of the dataset brings
has the size and the kind of the dataset (`Action.ends_session_shaped`), whatever is answered and
in either protocol. So a registered channel is always cut out of what was read, and what is cut out
has a value (`Catalog.registered_channels_decode`).

Cutting out goes to single bytes, and to say that they are there it is written down once more with
every look at a byte checked (`Channel.extract?`). It comes to the same in payloads of whole
registers (`Channel.extract?_eq`). In a payload that ends with half a register the low byte of the
register would be missing.
-/

namespace BusMaster

/-! ## Looking at bytes -/

namespace BitSeq

/-- the bit at `i` as it is looked up: past the size no byte is looked at, and within it the byte may
be missing -/
def lookUp? (s : BitSeq) (i : Nat) : Option Bool :=
  if i < s.size then s.bytes[i / 8]?.map fun b => b &&& s.order.mask i != 0 else some false

/-- the bits from `first` on and before `last`, looked up one by one -/
def range? (s : BitSeq) (first last : Nat) : Option BitSeq :=
  ((List.range (last - first)).mapM fun i => s.lookUp? (first + i)).map (ofList s.order)

/-- Where the bytes hold all bits, none is missing. -/
theorem lookUp?_eq {s : BitSeq} (fits : s.size ≤ s.capacity) (i : Nat) :
    s.lookUp? i = some (s.bit i) := by
  rw [lookUp?]
  split
  · rename_i hi
    have there : i / 8 < s.bytes.size := by
      rw [capacity] at fits
      omega
    simp [bit, hi, there, Array.getD_eq_getD_getElem?]
  · rename_i past
    rw [bit_eq_false (Nat.le_of_not_lt past)]

theorem range?_eq {s : BitSeq} (fits : s.size ≤ s.capacity) (first last : Nat) :
    s.range? first last = some (s.range first last) := by
  have looked : (fun i => s.lookUp? (first + i)) = fun i => pure (s.bit (first + i)) :=
    funext fun i => lookUp?_eq fits _
  rw [range?, looked, List.mapM_pure]
  refine congrArg some ?_
  rw [ofList_eq_ofFn, List.length_map, List.length_range, range]
  refine ofFn_congr fun i hi => ?_
  rw [List.getD_eq_getElem?_getD, List.getElem?_map, List.getElem?_range hi]
  rfl

end BitSeq

/-- the payload is of whole registers, or of bits that its bytes hold -/
def Payload.Whole : Payload → Prop
  | .bits s => s.size ≤ s.capacity
  | .registers bytes => bytes.length % 2 = 0

theorem Payload.Whole.fits {p : Payload} (h : p.Whole) : p.toBits.size ≤ p.toBits.capacity := by
  cases p with
  | bits s => exact h
  | registers bytes => exact (BitSeq.tidy_ofSwappedWords _).fits

theorem Payload.Whole.even {p : Payload} (h : p.Whole) (bytes : Bytes) (hp : p = .registers bytes) :
    bytes.length % 2 = 0 := by
  subst hp
  exact h

namespace Channel

variable {ch : Channel} {p : Payload}

/-- the bytes of `count` bytes at `first`, unless some of them are missing -/
def slice? (bytes : Bytes) (first count : Nat) : Option Bytes :=
  if first + count ≤ bytes.length then some (slice bytes first count) else none

/-- the field of the channel in a payload, unless a byte is missing that is looked at -/
def extract? (ch : Channel) (p : Payload) : Option (Except ConfigFault Field) :=
  if p.bitLength < ch.last then some (.error .valueOutOfRange)
  else if ch.cls.isBitField then
    (p.toBits.range? ch.position ch.last).map fun s => .ok (.bits s)
  else
    match p with
    | .bits _ => some (.error .valueMismatch)
    | .registers bytes =>
      if ch.cls.width = 8 then
        (slice? bytes (bytePosition ch.position) 1).map fun data => .ok (.bytes data)
      else
        (slice? bytes (ch.position / 8) (ch.cls.width / 8)).map fun data => .ok (.bytes data)

/-- **In whole payloads no byte is missing** that a channel looks at, be it registered or not. -/
theorem extract?_eq (whole : p.Whole) : ch.extract? p = some (ch.extract p) := by
  unfold extract? extract
  split
  · rfl
  rename_i within
  split
  · rw [BitSeq.range?_eq whole.fits]
    rfl
  rename_i bytes
  replace bytes := Bool.eq_false_iff.2 bytes
  cases p with
  | bits s => rfl
  | registers data =>
    change data.length % 2 = 0 at whole
    have fits : ch.last ≤ 8 * data.length := Nat.le_of_not_lt within
    rw [last] at fits
    dsimp only
    split
    · rename_i byte
      have there : bytePosition ch.position + 1 ≤ data.length := by
        have aligned : ch.position = 8 * ch.index.toNat := by rw [position, byte, Nat.mul_comm]
        rw [bytePosition]
        split <;> omega
      rw [slice?, if_pos there]
      rfl
    · rename_i wide
      obtain ⟨count, -, hwidth⟩ := ch.cls.width_eq bytes wide
      have there : ch.position / 8 + ch.cls.width / 8 ≤ data.length := by omega
      rw [slice?, if_pos there]
      rfl

/-- A channel is out of range exactly if it ends past the payload. -/
theorem extract_eq_outOfRange_iff :
    ch.extract p = .error .valueOutOfRange ↔ p.bitLength < ch.last := by
  unfold extract
  split
  · rename_i past
    exact iff_of_true rfl past
  · rename_i within
    refine iff_of_false (fun h => ?_) within
    split at h
    · cases h
    cases p with
    | bits s => cases h
    | registers data =>
      dsimp only at h
      split at h <;> cases h

/-- A channel within a payload is cut out of it, if it is a run of bits or the payload is
registers. -/
theorem exists_extract (within : ch.last ≤ p.bitLength)
    (kind : ch.cls.isBitField = true ∨ p.isRegisters = true) :
    ∃ field, ch.extract p = .ok field := by
  unfold extract
  rw [if_neg (Nat.not_lt.2 within)]
  split
  · exact ⟨_, rfl⟩
  rename_i bytes
  cases p with
  | bits s => exact absurd (kind.resolve_left bytes) Bool.false_ne_true
  | registers data =>
    dsimp only
    split <;> exact ⟨_, rfl⟩

end Channel

/-- A field as wide as its class has a value, be its bits in either order. -/
theorem Encoding.decode_of_spans (e : Encoding) {cls : ValueClass} {field : Field}
    (spans : field.Spans cls) : ∃ v, e.decode cls field = .ok v := by
  cases field with
  | bytes data =>
    have fits : (Field.bytes data).Fits cls := spans
    exact e.decode_of_fits fits
  | bits s =>
    obtain ⟨bitField, size⟩ := spans
    cases cls with
    | bit =>
      rw [decode, BitSeq.get, if_pos (size ▸ Nat.one_pos)]
      exact ⟨_, rfl⟩
    | modeSet => exact ⟨_, rfl⟩
    | schedule => exact ⟨_, rfl⟩
    | _ => cases bitField

/-- **A channel that lies within a whole payload of its kind has a value there.** -/
theorem Channel.exists_decode {ch : Channel} {p : Payload} (whole : p.Whole)
    (within : ch.last ≤ p.bitLength) (kind : ch.cls.isBitField = true ∨ p.isRegisters = true) :
    ∃ field v, ch.extract p = .ok field ∧ ch.encoding.decode ch.cls field = .ok v := by
  obtain ⟨field, hfield⟩ := ch.exists_extract within kind
  obtain ⟨-, cut⟩ := ch.extract_eq_ok whole.even hfield
  obtain ⟨v, hv⟩ := ch.encoding.decode_of_spans (cut.spans within)
  exact ⟨field, v, hfield, hv⟩

/-! ## What reads bring -/

/-- a session whose ends all are such ends so, whoever carries it -/
theorem Session.Ends.run {α σ : Type} {P : Except RequestFault α → List Assignment → Prop}
    {session : Session α} {confirmed : List Assignment} (h : session.Ends P confirmed)
    (c : Carrier σ) (s : σ) : ∃ confirmed, P (session.run c s).1 confirmed := by
  induction session generalizing confirmed s with
  | done result => exact ⟨_, h⟩
  | ask request next ih => exact ih _ (h _) _
  | tell request next ih => exact ih _ (h _) _
  | note line next ih => exact ih h _

/-- what the query makes of a response, whatever the response, satisfies `P` -/
def Query.Brings {α : Type} (P : α → Prop) (e : Except RequestFault (Query α)) : Prop :=
  ∀ q, e = .ok q → ∀ response a, q.accept response = .ok a → P a

theorem Query.length_of_countedData {n : Nat} {response data : Bytes}
    (h : countedData n response = .ok data) : data.length = n := by
  rw [countedData] at h
  split at h
  · cases h
  split at h
  · cases h
  split at h
  · cases h
  split at h
  · cases h
  obtain rfl := Except.ok.inj h
  omega

namespace Query.Brings

variable {α β : Type} {P : α → Prop}

theorem make {unit : UnitId} {f : FunctionCode} {data : Bytes}
    {accept : Bytes → Bytes → Except RequestFault α}
    (h : ∀ request response a, accept request response = .ok a → P a) :
    Brings P (Query.make unit f data accept) := by
  intro q hq response a ha
  obtain rfl := Query.make_eq_ok hq
  exact h _ _ _ ha

theorem bind {ε : Type} {e : Except RequestFault ε} {f : ε → Except RequestFault (Query α)}
    (h : ∀ b, e = .ok b → Brings P (f b)) : Brings P (e >>= f) := by
  intro q hq
  obtain ⟨b, hb, hq⟩ := bind_eq_ok hq
  exact h b hb q hq

/-- The session of such a query ends with a fault or with what the query brings. -/
theorem ends {e : Except RequestFault (Query α)} (h : Brings P e) (g : α → β)
    (confirmed : List Assignment) : ((Session.ofQuery e).map g).Ends
      (fun result _ => ∀ b, result = .ok b → ∃ a, b = g a ∧ P a) confirmed := by
  refine (Session.ends_map ..).2 ?_
  cases e with
  | error fault => exact fun _ h => nomatch h
  | ok q =>
    intro result
    rcases result with fault | response
    · exact fun _ h => nomatch h
    refine (Session.ends_settle ..).2 fun b hb => ?_
    rcases haccept : q.accept response with fault | a
    · rw [haccept] at hb
      cases hb
    · rw [haccept] at hb
      exact ⟨a, (Except.ok.inj hb).symm, h q rfl _ _ haccept⟩

end Query.Brings

open Query (Brings)

theorem Standard.brings_readBits (f : FunctionCode) (unit : UnitId) (r : AddressRange) :
    Brings (fun s => s.size = r.count.toNat ∧ s.size ≤ s.capacity) (readBits f unit r) := by
  refine .bind fun start _ => .make fun _ response s h => ?_
  obtain ⟨data, -, h⟩ := bind_eq_ok h
  split at h
  · rename_i hbits
    obtain rfl := Except.ok.inj h
    exact ⟨(BitSeq.size_ofBytes hbits).1, (BitSeq.tidy_ofBytes hbits).fits⟩
  · cases h

theorem Standard.brings_readRegisters (f : FunctionCode) (unit : UnitId) (r : AddressRange) :
    Brings (fun bytes => bytes.length = 2 * r.count.toNat) (readRegisters f unit r) :=
  .bind fun _ _ => .make fun _ _ _ h => Query.length_of_countedData h

theorem Extended.brings_readFromIndex (unit : UnitId) (address : PackedAddress) (count : UInt16) :
    Brings (fun bytes => bytes.length = 2 * count.toNat) (readFromIndex unit address count) := by
  refine .bind fun _ _ => .make fun _ response bytes h => ?_
  obtain ⟨data, hdata, h⟩ := bind_eq_ok h
  obtain rfl := Except.ok.inj h
  rw [length_swapWords]
  exact Query.length_of_countedData hdata

theorem Extended.brings_readBits (unit : UnitId) (r : AddressRange) :
    Brings (fun s => s.size = r.count.toNat ∧ s.size ≤ s.capacity) (readBits unit r) := by
  refine .bind fun _ _ => .bind fun span _ => .bind fun q hq => ?_
  intro q' hq' response s h
  obtain rfl := Except.ok.inj hq'
  change (q.accept response).map _ = .ok s at h
  rcases haccept : q.accept response with fault | registers
  · rw [haccept] at h
    cases h
  · rw [haccept] at h
    obtain rfl := Except.ok.inj h
    exact ⟨Nat.add_sub_cancel_left .., (BitSeq.tidy_ofFn ..).fits⟩

theorem Extended.brings_readRegisters (unit : UnitId) (r : AddressRange) :
    Brings (fun bytes => bytes.length = 2 * r.count.toNat) (readRegisters unit r) :=
  .bind fun span _ => brings_readFromIndex unit span.start r.count

namespace Action

variable {d : Dataset} {id : DatasetId}

/-- what a read brings is a whole payload of the kind and size of the dataset -/
def BringsShaped (d : Dataset) (result : Except RequestFault Gain) : Prop :=
  ∀ g, result = .ok g → ∃ p, g = .payload p ∧ d.Shapes p ∧ p.Whole

theorem ends_of_brings_bits (bits : d.cls.isBits = true)
    {e : Except RequestFault (Query BitSeq)}
    (h : Brings (fun s => s.size = d.length.toNat ∧ s.size ≤ s.capacity) e) :
    ((Session.ofQuery e).map fun s => Gain.payload (.bits s)).Ends
      (fun result _ => BringsShaped d result) [] := by
  refine (h.ends _ []).mono fun result _ brings g hg => ?_
  obtain ⟨s, rfl, size, fits⟩ := brings g hg
  refine ⟨_, rfl, ⟨?_, ?_⟩, fits⟩
  · cases hcls : d.cls <;> rw [hcls] at bits <;> first | rfl | cases bits
  · rw [Dataset.bitLength, if_pos bits]
    exact size

theorem ends_of_brings_registers (registers : d.cls.isRegisters = true)
    {e : Except RequestFault (Query Bytes)}
    (h : Brings (fun bytes => bytes.length = 2 * d.length.toNat) e) :
    ((Session.ofQuery e).map fun bytes => Gain.payload (.registers bytes)).Ends
      (fun result _ => BringsShaped d result) [] := by
  refine (h.ends _ []).mono fun result _ brings g hg => ?_
  obtain ⟨bytes, rfl, length⟩ := brings g hg
  refine ⟨_, rfl, ⟨registers.symm, ?_⟩, ?_⟩
  · rw [Dataset.bitLength, d.cls.notBits_of_isRegisters registers, if_neg Bool.false_ne_true,
      if_pos registers, Payload.bitLength, length, ← Nat.mul_assoc]
  · change bytes.length % 2 = 0
    rw [length, Nat.mul_mod_right]

/-- **The read of a dataset that holds data brings a payload of its kind and size**, or fails. -/
theorem ends_session_shaped (n : Node) (holds : d.bitLength ≠ 0) :
    ((ofDataset id d).session n).Ends (fun result _ => BringsShaped d result) [] := by
  have kind := d.kind_of_holds holds
  have session : (ofDataset id d).session n = (ofDataset id d).readSession n := by
    rw [Action.session, action_ofDataset id kind]
  rw [session]
  cases hcls : d.cls with
  | coil =>
    rw [readSession, ofDataset, hcls]
    refine ends_of_brings_bits (by rw [hcls]; rfl) ?_
    cases n.protocol
    · exact Standard.brings_readBits .readCoils n.unit _
    · exact Extended.brings_readBits n.unit _
  | discreteInput =>
    rw [readSession, ofDataset, hcls]
    refine ends_of_brings_bits (by rw [hcls]; rfl) ?_
    cases n.protocol
    · exact Standard.brings_readBits .readDiscreteInputs n.unit _
    · exact Extended.brings_readBits n.unit _
  | holdingRegister =>
    rw [readSession, ofDataset, hcls]
    refine ends_of_brings_registers (by rw [hcls]; rfl) ?_
    cases n.protocol
    · exact Standard.brings_readRegisters .readHoldingRegisters n.unit _
    · exact Extended.brings_readRegisters n.unit _
  | inputRegister =>
    rw [readSession, ofDataset, hcls]
    refine ends_of_brings_registers (by rw [hcls]; rfl) ?_
    cases n.protocol
    · exact Standard.brings_readRegisters .readInputRegisters n.unit _
    · exact Extended.brings_readRegisters n.unit _
  | _ => rw [hcls] at kind; exact absurd kind (by decide)

end Action

/-! ## Registered channels -/

/-- the payload has one bit for each coil or input of the dataset, or two bytes for each register -/
def Dataset.Filled (d : Dataset) : Payload → Prop
  | .bits s => d.cls.isBits = true ∧ s.size = d.length.toNat
  | .registers bytes => d.cls.isRegisters = true ∧ bytes.length = 2 * d.length.toNat

theorem Dataset.Shapes.filled {d : Dataset} {p : Payload} (h : d.Shapes p)
    (holds : d.bitLength ≠ 0) : d.Filled p := by
  obtain ⟨kind, size⟩ := h
  rw [Dataset.bitLength] at size holds
  cases p with
  | bits s =>
    rw [← show (Payload.bits s).isRegisters = d.cls.isRegisters from kind] at size holds
    cases hbits : d.cls.isBits <;> rw [hbits] at size holds
    · exact absurd rfl holds
    · exact ⟨hbits, size⟩
  | registers bytes =>
    have registers : d.cls.isRegisters = true := kind.symm
    rw [d.cls.notBits_of_isRegisters registers, registers] at size
    change 8 * bytes.length = 16 * d.length.toNat at size
    exact ⟨registers, by omega⟩

namespace Catalog

/-- what was said of a dataset that a channel fits: it has bits, the channel is within them, and
bits are read by bit fields only -/
theorem fits_of_registered {c : Catalog} (sound : c.Sound) {id : ChannelId} {ch : Channel}
    (h : c.channel? id = some ch) : ∃ d, c.dataset? ch.dataset = some d ∧
      c.readAction ch.dataset = .ok (Action.ofDataset ch.dataset d) ∧ d.bitLength ≠ 0 ∧
      (d.cls.isBits = true → ch.cls.isBitField = true) ∧ ch.last ≤ d.bitLength := by
  obtain ⟨e, he, rfl⟩ := Option.map_eq_some_iff.1 h
  obtain ⟨entry, hentry, fit⟩ := checkChannel_eq_ok (sound.fits he)
  obtain ⟨kind, within⟩ := Channel.checkFootprint_eq_ok fit
  refine ⟨entry.dataset, by rw [dataset?, hentry]; rfl, by rw [readAction, hentry], ?_, kind, within⟩
  have wide : 0 < e.channel.cls.width := by cases e.channel.cls <;> decide
  rw [Channel.last] at within
  omega

/-- **Registered channels always decode.** Whatever was registered, removed and read before, and
whoever answers on whatever node, a payload that the read of its dataset brings has the size of the
dataset, the channel is cut out of it without a byte missing, and what is cut out has a value. In
any payload of whole registers, or of bits that its bytes hold, no channel looks at a byte that is
missing, be it registered or not, and it is out of range exactly if it ends past the payload. -/
theorem registered_channels_decode :
    (∀ ops id ch, (run {} ops).channel? id = some ch → ∃ d a,
      (run {} ops).dataset? ch.dataset = some d ∧ (run {} ops).readAction ch.dataset = .ok a ∧
      ∀ (σ : Type) (n : Node) (c : Carrier σ) (s : σ) (g : Gain),
        ((a.session n).run c s).1 = .ok g → ∃ p, g = .payload p ∧ d.Filled p ∧
          ∃ field v, ch.extract? p = some (.ok field) ∧ ch.extract p = .ok field ∧
            ch.encoding.decode ch.cls field = .ok v) ∧
    ∀ (ch : Channel) (p : Payload), p.Whole → ch.extract? p = some (ch.extract p) ∧
      (ch.extract p = .error .valueOutOfRange ↔ p.bitLength < ch.last) := by
  refine ⟨fun ops id ch hch => ?_, fun ch p whole =>
    ⟨Channel.extract?_eq whole, Channel.extract_eq_outOfRange_iff⟩⟩
  obtain ⟨d, hd, ha, holds, kind, within⟩ := fits_of_registered (Built.empty.run ops).sound hch
  refine ⟨d, _, hd, ha, fun σ n c s g hg => ?_⟩
  obtain ⟨-, brings⟩ := (Action.ends_session_shaped n holds).run c s
  obtain ⟨p, rfl, shape, whole⟩ := brings g hg
  have fitting : ch.cls.isBitField = true ∨ p.isRegisters = true :=
    (d.kind_of_holds holds).imp kind shape.kind.trans
  obtain ⟨field, v, hfield, hv⟩ := Channel.exists_decode whole (shape.size ▸ within) fitting
  exact ⟨p, rfl, shape.filled holds, field, v,
    by rw [Channel.extract?_eq whole, hfield], hfield, hv⟩

end Catalog

/-! ## A boiler

Two holding registers, the pressure in the low byte of the second one. -/

namespace Boiler

def dataset : Dataset where
  node := 1
  cls := .holdingRegister
  address := 40
  length := 2

def pressure : Channel where
  id := "pressure"
  dataset := 1
  index := 2
  cls := .uint8

def history : List Catalog.Operation := [.addDataset "boiler" dataset, .addChannel pressure]

/-- Of the four bytes that are read the last one is the pressure. In a single register it would be
out of range. -/
theorem pressure_decodes :
    (∃ field v, pressure.extract? (.registers [0, 30, 1, 9]) = some (.ok field) ∧
      pressure.encoding.decode pressure.cls field = .ok v) ∧
    pressure.extract? (.registers [0, 30]) = some (.error .valueOutOfRange) := by
  obtain ⟨decodes, whole⟩ := Catalog.registered_channels_decode
  obtain ⟨d, a, hd, ha, reads⟩ := decodes history "pressure" pressure rfl
  have hd' : some d = some dataset := hd.symm
  have ha' : (.ok a : Except ConfigFault Action) = .ok (Action.ofDataset 1 dataset) := ha.symm
  obtain rfl := Option.some.inj hd'
  obtain rfl := Except.ok.inj ha'
  obtain ⟨p, hp, -, field, v, hfield, -, hv⟩ := reads Unit ⟨⟨17⟩, .standard⟩
    (Carrier.answering [17, 3, 4, 0, 30, 1, 9]) () (.payload (.registers [0, 30, 1, 9])) rfl
  obtain rfl := (Gain.payload.inj hp)
  obtain ⟨same, range⟩ := whole pressure (.registers [0, 30]) rfl
  exact ⟨⟨field, v, hfield, hv⟩, by rw [same, range.2 (by decide)]⟩

end Boiler

end BusMaster
