import BusMaster.Proofs.Device.Exchange
import BusMaster.Proofs.Plant.Extraction
import BusMaster.Proofs.Plant.Registration

/-!
# Writing and reading back with the standard functions

The place of a value is worked out twice, once for the action that writes it and once for cutting it
out of what its dataset reads. On an ideal device the two agree (`standard_write_reads_back`): a
write leaves every coil and register alone that the channel does not occupy, and reading the dataset
gives the channel the value that its encoding stands for. Bits of a register have no standard
function, and such a write is refused before anything is sent.
-/

namespace BusMaster

namespace Channel

/-- What it means that a channel fits its dataset. -/
theorem checkFootprint_eq_ok {ch : Channel} {d : Dataset} (h : ch.checkFootprint d = .ok ()) :
    (d.cls.isBits = true → ch.cls.isBitField = true) ∧ ch.last ≤ d.bitLength := by
  rw [checkFootprint] at h
  split at h
  · cases h
  split at h
  · cases h
  rename_i kind
  split at h
  · cases h
  rename_i within
  refine ⟨fun bits => ?_, Nat.le_of_not_lt within⟩
  cases hfield : ch.cls.isBitField with
  | true => rfl
  | false => exact absurd (by rw [bits, hfield]; rfl) kind

/-- the coil or register at `x` holds bits of the channel, where the offset of a dataset counts on
from its address -/
def Occupies (ch : Channel) (d : Dataset) (x : UInt16) : Prop :=
  let start := d.address.toNat + d.offset.toNat
  if d.cls.isBits then start + ch.position ≤ x.toNat ∧ x.toNat < start + ch.last
  else start + ch.position / 16 ≤ x.toNat ∧ x.toNat < start + (ch.last + 15) / 16

end Channel

/-- Nothing is different between two devices but coils, for a dataset of bits, or registers, of
which `may` holds. -/
structure Image.SameBut (m m' : Image) (d : Dataset) (may : UInt16 → Prop) : Prop where
  coils : ∀ x, ¬(d.cls.isBits = true ∧ may x) → m'.coils x = m.coils x
  registers : ∀ x, ¬(d.cls.isRegisters = true ∧ may x) → m'.registers x = m.registers x

/-- Reading its dataset on a device gives the channel the value that the field of what was written
stands for, and changes nothing. -/
def ReadsBack (c : Catalog) (n : Node) (ch : Channel) (v : Value) (m : Image) : Prop :=
  ∀ r g m', c.readAction ch.dataset = .ok r →
    (r.session n).run Image.carrier m = (.ok g, m') →
      m' = m ∧ ∃ p field w, g = .payload p ∧ ch.encoding.encode ch.cls v = .ok field ∧
        ch.encoding.decode ch.cls field = .ok w ∧ ch.read p = .ok w

namespace Catalog

theorem readAction_eq_ok {c : Catalog} {id : DatasetId} {entry : DatasetEntry} {r : Action}
    (hentry : c.datasets[id]? = some entry) (h : c.readAction id = .ok r) :
    r = Action.ofDataset id entry.dataset := by
  rw [readAction] at h
  rw [hentry] at h
  exact (Except.ok.inj h).symm

/-- A channel whose field is given back by extraction reads back. -/
theorem read_of_extract {ch : Channel} {p : Payload} {v : Value} {field : Field}
    (hfield : ch.encoding.encode ch.cls v = .ok field) (h : ch.extract p = .ok field) :
    ∃ q field w, Gain.payload p = .payload q ∧ ch.encoding.encode ch.cls v = .ok field ∧
      ch.encoding.decode ch.cls field = .ok w ∧ ch.read q = .ok w := by
  obtain ⟨w, hw⟩ := ch.encoding.decode_of_fits (Encoding.encode_eq_ok hfield)
  refine ⟨p, field, w, rfl, hfield, hw, ?_⟩
  rw [Channel.read, h]
  exact hw

end Catalog

variable {c : Catalog} {e : ChannelEntry} {entry : DatasetEntry} {v : Value} {field : Field}
variable {a : Action} {unit : UnitId} {m m' : Image} {g : Gain}

/-- Bits written to coils. -/
theorem write_coils_reads_back
    (hentry : c.datasets[e.channel.dataset]? = some entry)
    (fit : e.channel.checkFootprint entry.dataset = .ok ())
    (cls : entry.dataset.cls = .coil)
    (hfield : e.channel.encoding.encode e.channel.cls v = .ok field)
    (placed : Catalog.Placed entry e.channel.position
      (Catalog.writeOf e.channel.dataset entry.dataset) field a)
    (h : (a.session ⟨unit, .standard⟩).run Image.carrier m = (.ok g, m')) :
    Image.SameBut m m' entry.dataset (e.channel.Occupies entry.dataset) ∧
      ReadsBack c ⟨unit, .standard⟩ e.channel v m' := by
  obtain ⟨hkind, hwithin⟩ := Channel.checkFootprint_eq_ok fit
  have bits : entry.dataset.cls.isBits = true := by rw [cls]; rfl
  have fits := Encoding.encode_eq_ok hfield
  have hlength : entry.dataset.bitLength = entry.dataset.length.toNat := by
    rw [Dataset.bitLength, if_pos bits]
  cases placed with
  | registers fills _ =>
    have holding := Channel.cls_of_fills fits hkind (.inl cls) fills
    rw [cls] at holding
    cases holding
  | @bits s _ offset =>
    obtain ⟨bitField, f, rfl⟩ := fits
    have hsmall : e.channel.cls.width < 2 ^ 16 := by cases e.channel.cls <;> decide
    obtain ⟨start, hstart, hin, rfl⟩ :=
      Action.run_session_writeCoils rfl cls rfl rfl hsmall h
    change start.toNat = entry.dataset.address.toNat +
      (UInt16.ofNat (entry.dataset.offset.toNat + e.channel.position)).toNat at hstart
    rw [UInt16.toNat_ofNat_of_lt' offset] at hstart
    rw [BitSeq.size_ofFn] at hin
    have hcount : (BitSeq.ofFn .lsb0 e.channel.cls.width f).toList.length
        = e.channel.cls.width := by simp [BitSeq.toList]
    refine ⟨⟨fun x hx => ?_, fun x _ => rfl⟩, fun r g₂ m₂ hr hread => ?_⟩
    · -- a coil that did change is one the channel occupies
      refine Image.coils_writeCoils_of_outside m (by rw [hcount]; exact hin) ?_
      rw [hcount]
      by_contra hinside
      refine hx ⟨bits, ?_⟩
      rw [Channel.Occupies, Channel.last]
      rw [if_pos bits]
      omega
    · obtain rfl := Catalog.readAction_eq_ok hentry hr
      have hread' : (Action.ofDataset e.channel.dataset entry.dataset).action = .read := by
        simp [Action.ofDataset, cls, MessageClass.isStatus]
      obtain ⟨rfl, s, rfl, order, size, -, hbits⟩ :=
        Action.run_session_readCoils hread' cls hread
      change s.size = entry.dataset.length.toNat at size
      refine ⟨rfl, Catalog.read_of_extract hfield ?_⟩
      refine Channel.extract_bits bitField order (by rw [Payload.bitLength]; omega)
        fun i hi => ?_
      have hbit : (BitSeq.ofFn .lsb0 e.channel.cls.width f).toList.getD i false = f i := by
        simp [BitSeq.toList, List.getD_eq_getElem?_getD, BitSeq.bit_ofFn, hi]
      have hx : (UInt16.ofNat (start.toNat + i)).toNat = start.toNat + i :=
        UInt16.toNat_ofNat_of_lt' (by change _ < 2 ^ 16; omega)
      have hplace : e.channel.position + i < entry.dataset.length.toNat := by
        rw [Channel.last] at hwithin
        omega
      have hcoil := hbits _ hplace (UInt16.ofNat (start.toNat + i)) (by
        simp only [Action.ofDataset]
        omega)
      rw [Payload.toBits, hcoil, Image.coils_writeCoils m (by rw [hcount]; exact hi) hx, hbit]

/-- Whole registers written. -/
theorem write_registers_reads_back
    (hentry : c.datasets[e.channel.dataset]? = some entry)
    (fit : e.channel.checkFootprint entry.dataset = .ok ())
    (cls : entry.dataset.cls = .holdingRegister)
    (hfield : e.channel.encoding.encode e.channel.cls v = .ok field)
    (placed : Catalog.Placed entry e.channel.position
      (Catalog.writeOf e.channel.dataset entry.dataset) field a)
    (h : (a.session ⟨unit, .standard⟩).run Image.carrier m = (.ok g, m')) :
    Image.SameBut m m' entry.dataset (e.channel.Occupies entry.dataset) ∧
      ReadsBack c ⟨unit, .standard⟩ e.channel v m' := by
  obtain ⟨-, hwithin⟩ := Channel.checkFootprint_eq_ok fit
  have bits : entry.dataset.cls.isBits = false := by rw [cls]; rfl
  have registers : entry.dataset.cls.isRegisters = true := by rw [cls]; rfl
  have fits := Encoding.encode_eq_ok hfield
  have hlength : entry.dataset.bitLength = 16 * entry.dataset.length.toNat := by
    rw [Dataset.bitLength, bits, registers]
    rfl
  cases placed with
  | bits _ _ =>
    -- refused, so that it does not end well
    rw [Action.run_session_registerBits rfl cls rfl] at h
    cases h
  | registers fills haddress =>
    rename_i address
    obtain ⟨ws, hws, hcount, hextract⟩ := Channel.extract_registersOf fits fills entry.cache
    have hsmall : ws.length < 2 ^ 16 := by
      rw [hcount]
      cases e.channel.cls <;> decide
    obtain ⟨start, hstart, hin, rfl⟩ :=
      Action.run_session_writeRegisters rfl cls (by rw [← hws]) hsmall h
    change start.toNat = address.toNat + entry.dataset.offset.toNat at hstart
    have hlast := e.channel.last_add_div (Channel.width_mod fits fills)
    refine ⟨⟨fun x _ => rfl, fun x hx => ?_⟩, fun r g₂ m₂ hr hread => ?_⟩
    · refine Image.registers_writeRegisters_of_outside m hin ?_
      by_contra hinside
      refine hx ⟨registers, ?_⟩
      rw [Channel.Occupies]
      rw [bits, if_neg Bool.false_ne_true, hlast]
      omega
    · obtain rfl := Catalog.readAction_eq_ok hentry hr
      have hread' : (Action.ofDataset e.channel.dataset entry.dataset).action = .read := by
        simp [Action.ofDataset, cls, MessageClass.isStatus]
      obtain ⟨rfl, us, rfl, size, -, hwords⟩ :=
        Action.run_session_readRegisters hread' cls hread
      change us.length = entry.dataset.length.toNat at size
      refine ⟨rfl, Catalog.read_of_extract hfield
        (hextract us (by omega) (take_drop_eq_iff.2 fun k hk => ?_))⟩
      have hx : (UInt16.ofNat (start.toNat + k)).toNat = start.toNat + k :=
        UInt16.toNat_ofNat_of_lt' (by change _ < 2 ^ 16; omega)
      have hplace : e.channel.position / 16 + k < entry.dataset.length.toNat := by
        omega
      have hword := hwords _ hplace (UInt16.ofNat (start.toNat + k)) (by
        simp only [Action.ofDataset]
        omega)
      rw [hword, Image.registers_writeRegisters m hk hx]

/-- Bits of registers have no standard function: a write of them is refused unsent. -/
theorem write_register_bits_refused (cls : entry.dataset.cls = .holdingRegister)
    (fits : field.Fits e.channel.cls)
    (few : e.channel.cls = .bit ∨ e.channel.cls = .modeSet)
    (placed : Catalog.Placed entry e.channel.position
      (Catalog.writeOf e.channel.dataset entry.dataset) field a) {σ : Type} (k : Carrier σ) (t : σ) :
    (a.session ⟨unit, .standard⟩).run k t = (.error .unsupported, t) := by
  cases placed with
  | bits _ _ => exact Action.run_session_registerBits rfl cls rfl k t
  | registers fills _ => exact absurd fills (Channel.not_fills fits few)

/-- **What is written with the standard functions is read back, and nothing else changes.** Let a
catalog come about in any way, and let it have an action for a value of one of its channels. On an
ideal device, once the write ends well, nothing is different that the channel does not occupy, and
its dataset reads back what the field of the value stands for. Bits of a register are refused
before anything is sent, whoever carries the requests. -/
theorem standard_write_reads_back (built : c.Built) {s : State} (ch : Channel) (d : Dataset)
    (hch : c.channel? s.channel = some ch) (hd : c.dataset? ch.dataset = some d)
    (hwrite : c.buildWrite s = .ok a) (unit : UnitId) :
    (∀ m m' g, (a.session ⟨unit, .standard⟩).run Image.carrier m = (.ok g, m') →
      Image.SameBut m m' d (ch.Occupies d) ∧ ReadsBack c ⟨unit, .standard⟩ ch s.value m') ∧
    (d.cls.isRegisters = true → ch.cls = .bit ∨ ch.cls = .modeSet →
      ∀ {σ : Type} (k : Carrier σ) (t : σ),
        (a.session ⟨unit, .standard⟩).run k t = (.error .unsupported, t)) := by
  obtain ⟨e, entry, field, he, hentry, cls, hfield, placed⟩ := Catalog.buildWrite_eq_ok hwrite
  obtain rfl : e.channel = ch := by
    rw [Catalog.channel?, he] at hch
    exact Option.some.inj hch
  obtain rfl : entry.dataset = d := by
    rw [Catalog.dataset?, hentry] at hd
    exact Option.some.inj hd
  obtain ⟨entry', hentry', fit⟩ := Catalog.checkChannel_eq_ok (built.sound.fits he)
  obtain rfl := Option.some.inj (hentry.symm.trans hentry')
  refine ⟨fun m m' g h => ?_, fun registers few σ k t => ?_⟩
  · rcases cls with cls | cls
    · exact write_coils_reads_back hentry fit cls hfield placed h
    · exact write_registers_reads_back hentry fit cls hfield placed h
  · rcases cls with cls | cls
    · rw [cls] at registers
      cases registers
    · exact write_register_bits_refused cls (Encoding.encode_eq_ok hfield) few placed k t

/-! ## A fan

Three registers from 102 on, the speed of a fan in the high byte of the second of them. -/

namespace Fan

def dataset : Dataset where
  node := 1
  cls := .holdingRegister
  address := 100
  length := 3
  offset := 2

def speed : Channel where
  id := "speed"
  dataset := 1
  index := 3
  cls := .uint8

def catalog : Catalog := ((({} : Catalog).addDataset "fan" dataset).2.1.addChannel speed).2.1

theorem catalog_built : catalog.Built := .addChannel _ (.addDataset _ _ .empty)

/-- the write of a speed, before the register around it was read -/
def write : Action :=
  { Catalog.writeOf 1 dataset with
    address := 101
    length := 1
    payload := some (.registers [7, 0]) }

/-- The write of a speed ends well on a device full of zeros, and is read back. -/
theorem speed_reads_back : ∃ g m',
    (write.session ⟨⟨17⟩, .standard⟩).run Image.carrier ⟨fun _ => false, fun _ => 0⟩ = (.ok g, m') ∧
      ReadsBack catalog ⟨⟨17⟩, .standard⟩ speed (.int 7) m' := by
  have reads := (standard_write_reads_back catalog_built (s := ⟨"speed", .int 7⟩) speed dataset
    rfl rfl (a := write) rfl ⟨17⟩).1
  exact ⟨.nothing, _, rfl, (reads _ _ _ rfl).2⟩

end Fan

end BusMaster
