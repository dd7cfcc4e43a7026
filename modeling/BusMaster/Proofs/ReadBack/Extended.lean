import BusMaster.Proofs.Device.Extended
import BusMaster.Proofs.ReadBack.Standard

/-!
# Writing and reading back with the extended functions

In the extended protocol an offset counts bits. A read of bits starts at the bit it names, but a read
of registers starts at bit 0 of the register around that bit, while a channel of a few bits is
written at its offset to the bit in both kinds of dataset. So a write and a read agree on the bits of
a device exactly when no such channel sits in registers whose offset lies within a register
(`extended_write_reads_back_iff`). Everywhere else they agree: the bits that a write changes are the
bits that decide what is read, except that a byte is written with the register around it.
-/

namespace BusMaster

/-- the place in the row of the first bit that reading a dataset brings -/
def Dataset.firstBit (d : Dataset) : Nat :=
  if d.cls.isBits then 16 * d.address.toNat + d.offset.toNat
  else 16 * (d.address.toNat + d.offset.toNat / 16)

/-- An action leaves the same run at the same place of every device. -/
def Leaves (n : Node) (a : Action) (first count : Nat) (f : Nat → Bool) : Prop :=
  ∀ m : Image, ∃ m', (a.session n).run Image.carrier m = (.ok .nothing, m') ∧
    m.Patched m' first count f

/-- Reading a dataset brings the same bits of every device. -/
def Brings (n : Node) (id : DatasetId) (d : Dataset) : Prop :=
  ∀ m : Image, ∃ p, ((Action.ofDataset id d).session n).run Image.carrier m = (.ok (.payload p), m) ∧
    p.Regular ∧ p.isRegisters = d.cls.isRegisters ∧ p.bitLength = d.bitLength ∧
    ∀ i < d.bitLength, p.toBits.bit i = m.bitAt (.ofNat (d.firstBit + i))

section

variable {a : Action} {unit : UnitId} {m m' : Image} {g : Gain}

/-- A read that ends well on one device brings the bits of every device. -/
theorem brings_of_run {id : DatasetId} {d : Dataset}
    (cls : d.cls = .coil ∨ d.cls = .holdingRegister)
    (h : ((Action.ofDataset id d).session ⟨unit, .vendor⟩).run Image.carrier m = (.ok g, m')) :
    Brings ⟨unit, .vendor⟩ id d := by
  intro m₁
  rcases cls with cls | cls
  · have action : (Action.ofDataset id d).action = .read := by
      simp [Action.ofDataset, cls, MessageClass.isStatus]
    rw [Action.session_readCoils _ action cls] at h ⊢
    obtain ⟨s, h, -⟩ := Session.run_map_eq_ok h
    obtain ⟨q, hq⟩ := Session.ofQuery_eq_ok h
    obtain ⟨s, hrun, order, size, bits⟩ := Extended.run_readBits hq m₁
    have hlength : d.bitLength = d.length.toNat := by
      simp [Dataset.bitLength, cls, MessageClass.isBits]
    refine ⟨.bits s, ?_, .bits order, by rw [cls]; rfl, size.trans hlength.symm, fun i hi => ?_⟩
    · rw [Session.run_map, hq, hrun]
      rfl
    · rw [Payload.toBits, bits i (hlength ▸ hi), Dataset.firstBit, cls]
      rfl
  · have action : (Action.ofDataset id d).action = .read := by
      simp [Action.ofDataset, cls, MessageClass.isStatus]
    rw [Action.session_readRegisters _ action cls] at h ⊢
    obtain ⟨bytes, h, -⟩ := Session.run_map_eq_ok h
    obtain ⟨q, hq⟩ := Session.ofQuery_eq_ok h
    obtain ⟨us, hrun, size, bits⟩ := Extended.run_readRegisters hq m₁
    have hlength : d.bitLength = 16 * d.length.toNat := by
      simp [Dataset.bitLength, cls, MessageClass.isBits, MessageClass.isRegisters]
    change us.length = d.length.toNat at size
    refine ⟨.registers (wordsBytes us), ?_, .registers us, by rw [cls]; rfl, ?_, fun i hi => ?_⟩
    · rw [Session.run_map, hq, hrun]
      rfl
    · rw [Payload.bitLength, length_wordsBytes]
      omega
    · rw [Payload.toBits, bits i (hlength ▸ hi), Dataset.firstBit, cls]
      rfl

/-- A write of bits that ends well on one device leaves them on every device. -/
theorem leaves_of_run_bits {s : BitSeq} (action : a.action = .write)
    (cls : a.cls = .coil ∨ a.cls = .holdingRegister) (payload : a.payload = some (.bits s))
    (h : (a.session ⟨unit, .vendor⟩).run Image.carrier m = (.ok g, m')) :
    Leaves ⟨unit, .vendor⟩ a (Extended.firstBit a.range) s.size s.bit := by
  intro m₁
  -- both kinds of dataset come down to the same query
  have answered : ∀ {q : Query Unit}, Extended.writeBits unit a.range s = .ok q →
      ∃ m₂, ((Session.ofQuery (.ok q)).map fun () => Gain.nothing).run Image.carrier m₁
        = (.ok .nothing, m₂) ∧ m₁.Patched m₂ (Extended.firstBit a.range) s.size s.bit := by
    intro q hq
    obtain ⟨m₂, hrun, patched⟩ := Extended.run_writeBits hq m₁
    refine ⟨m₂, ?_, patched⟩
    rw [Session.run_map, hrun]
    rfl
  rcases cls with cls | cls
  · rw [Action.session_writeCoils _ action cls payload] at h ⊢
    obtain ⟨⟨⟩, h, -⟩ := Session.run_map_eq_ok h
    obtain ⟨q, hq⟩ := Session.ofQuery_eq_ok h
    rw [hq]
    rcases Nat.lt_or_ge 1 s.size with many | single
    · rw [Action.coilQuery, if_neg (Nat.not_le.2 many)] at hq
      exact answered hq
    · -- a single coil is written as a run of one bit
      rw [Action.coilQuery, if_pos single, BitSeq.get] at hq
      by_cases hpos : 0 < s.size
      · rw [if_pos hpos] at hq
        have hsize : s.size = 1 := by omega
        obtain ⟨m₂, hrun, patched⟩ := Extended.run_writeBits hq m₁
        refine ⟨m₂, ?_, ?_⟩
        · rw [Session.run_map, hrun]
          rfl
        · rw [BitSeq.ofList_eq_ofFn, BitSeq.size_ofFn] at patched
          rw [hsize]
          refine patched.congr fun i hi => ?_
          obtain rfl : i = 0 := Nat.lt_one_iff.1 hi
          rw [BitSeq.bit_ofFn]
          rfl
      · rw [if_neg hpos] at hq
        cases hq
  · rw [Action.session_writeRegisterBits action cls payload] at h ⊢
    obtain ⟨⟨⟩, h, -⟩ := Session.run_map_eq_ok h
    obtain ⟨q, hq⟩ := Session.ofQuery_eq_ok h
    rw [hq]
    exact answered hq

/-- A write of registers that ends well on one device leaves them on every device. -/
theorem leaves_of_run_registers {ws : List UInt16} (action : a.action = .write)
    (cls : a.cls = .holdingRegister) (payload : a.payload = some (.registers (wordsBytes ws)))
    (small : ws.length < 2 ^ 16)
    (h : (a.session ⟨unit, .vendor⟩).run Image.carrier m = (.ok g, m')) :
    Leaves ⟨unit, .vendor⟩ a (Extended.firstRegister a.range) (16 * ws.length)
      fun i => (ws.getD (i / 16) 0).toNat.testBit (i % 16) := by
  intro m₁
  rw [Action.session_writeRegisters _ action cls payload] at h ⊢
  obtain ⟨⟨⟩, h, -⟩ := Session.run_map_eq_ok h
  obtain ⟨q, hq⟩ := Session.ofQuery_eq_ok h
  obtain ⟨m₂, hrun, patched⟩ := Extended.run_writeRegisters hq small m₁
  refine ⟨m₂, ?_, patched⟩
  rw [Session.run_map, hq, hrun]
  rfl

end

/-! ## The bits of a write and the bits of a read -/

/-- The write changes the bit on some device. -/
def WritesBit (n : Node) (a : Action) (b : DeviceBit) : Prop :=
  ∃ m g m', (a.session n).run Image.carrier m = (.ok g, m') ∧ m'.bitAt b ≠ m.bitAt b

/-- Reading the dataset of the channel on two devices that differ in this bit alone brings payloads
from which different fields are cut out. -/
def DecodesBit (c : Catalog) (n : Node) (ch : Channel) (b : DeviceBit) : Prop :=
  ∃ r m₁ m₂ p₁ p₂, c.readAction ch.dataset = .ok r ∧
    (∀ b', b' ≠ b → m₁.bitAt b' = m₂.bitAt b') ∧
    (r.session n).run Image.carrier m₁ = (.ok (.payload p₁), m₁) ∧
    (r.session n).run Image.carrier m₂ = (.ok (.payload p₂), m₂) ∧
    ch.extract p₁ ≠ ch.extract p₂

/-- the bit is one of `count` bits of the row from `first` on -/
def DeviceBit.Within (b : DeviceBit) (first count : Nat) : Prop :=
  ∃ i < count, b = ofNat (first + i)

variable {n : Node} {a : Action} {c : Catalog} {ch : Channel} {d : Dataset}

/-- A write changes the bits of the run it leaves. -/
theorem writesBit_iff {first count : Nat} {f : Nat → Bool} (leaves : Leaves n a first count f)
    (b : DeviceBit) : WritesBit n a b ↔ b.Within first count := by
  constructor
  · rintro ⟨m, g, m', hrun, changed⟩
    obtain ⟨m₂, hrun₂, patched⟩ := leaves m
    obtain ⟨-, rfl⟩ := Prod.mk.inj (hrun.symm.trans hrun₂)
    by_contra hout
    exact changed (patched.outside b fun i hi hb => hout ⟨i, hi, hb⟩)
  · rintro ⟨i, hi, rfl⟩
    -- of two devices filled with opposite bits, one does not have what is written
    obtain ⟨m', hrun, patched⟩ := leaves (.filled !f i)
    refine ⟨_, _, m', hrun, ?_⟩
    rw [patched.inside i hi, Image.bitAt_filled]
    cases f i <;> decide

/-- The bits of a channel decide what is cut out, where the dataset of the channel can be read. -/
theorem decodesBit_iff (brings : Brings n ch.dataset d)
    (hread : c.readAction ch.dataset = .ok (Action.ofDataset ch.dataset d))
    (fit : ch.checkFootprint d = .ok ()) (cls : d.cls = .coil ∨ d.cls = .holdingRegister)
    (b : DeviceBit) :
    DecodesBit c n ch b ↔ b.Within (d.firstBit + ch.position) ch.cls.width := by
  obtain ⟨hkind, hlast⟩ := Channel.checkFootprint_eq_ok fit
  have kind : ch.cls.isBitField = false → d.cls.isRegisters = true := by
    intro bytes
    rcases cls with cls | cls
    · rw [hkind (by rw [cls]; rfl)] at bytes
      cases bytes
    · rw [cls]
      rfl
  have hplace : ∀ i < ch.cls.width, ch.position + i < d.bitLength := by
    intro i hi
    rw [Channel.last] at hlast
    omega
  constructor
  · rintro ⟨r, m₁, m₂, p₁, p₂, hr, same, hrun₁, hrun₂, different⟩
    obtain rfl := Except.ok.inj (hread.symm.trans hr)
    obtain ⟨q₁, hq₁, regular₁, kind₁, size₁, bits₁⟩ := brings m₁
    obtain ⟨q₂, hq₂, regular₂, kind₂, size₂, bits₂⟩ := brings m₂
    obtain ⟨hp₁, -⟩ := Prod.mk.inj (hrun₁.symm.trans hq₁)
    obtain ⟨hp₂, -⟩ := Prod.mk.inj (hrun₂.symm.trans hq₂)
    obtain rfl := Gain.payload.inj (Except.ok.inj hp₁)
    obtain rfl := Gain.payload.inj (Except.ok.inj hp₂)
    by_contra hout
    refine different ((Channel.extract_eq_extract_iff regular₁ regular₂ (size₁ ▸ hlast)
      (size₂ ▸ hlast) fun bytes => ⟨kind₁.trans (kind bytes), kind₂.trans (kind bytes)⟩).2
      fun i hi => ?_)
    rw [bits₁ _ (hplace i hi), bits₂ _ (hplace i hi), ← Nat.add_assoc]
    exact same _ fun hb => hout ⟨i, hi, hb.symm⟩
  · rintro ⟨i, hi, rfl⟩
    -- a device with this bit alone against one with none
    set b := DeviceBit.ofNat (d.firstBit + ch.position + i) with hb
    obtain ⟨p₁, hp₁, regular₁, kind₁, size₁, bits₁⟩ := brings (.filled false)
    obtain ⟨p₂, hp₂, regular₂, kind₂, size₂, bits₂⟩ := brings (.single b)
    refine ⟨_, _, _, p₁, p₂, hread, fun b' hb' => ?_, hp₁, hp₂, fun same => ?_⟩
    · rw [Image.bitAt_filled, Image.bitAt_single]
      simp [hb']
    · have hbits := (Channel.extract_eq_extract_iff regular₁ regular₂ (size₁ ▸ hlast)
        (size₂ ▸ hlast) fun bytes => ⟨kind₁.trans (kind bytes), kind₂.trans (kind bytes)⟩).1
        same i hi
      rw [bits₁ _ (hplace i hi), bits₂ _ (hplace i hi), ← Nat.add_assoc, ← hb,
        Image.bitAt_filled, Image.bitAt_single] at hbits
      simp at hbits

/-! ## Reading back -/

/-- A device reads back what is cut out of every payload that has its bits. -/
theorem readsBack_of_extract {v : Value} {field : Field} {m : Image}
    (brings : Brings n ch.dataset d)
    (hread : c.readAction ch.dataset = .ok (Action.ofDataset ch.dataset d))
    (hfield : ch.encoding.encode ch.cls v = .ok field)
    (h : ∀ p : Payload, p.Regular → p.isRegisters = d.cls.isRegisters → p.bitLength = d.bitLength →
      (∀ i < d.bitLength, p.toBits.bit i = m.bitAt (.ofNat (d.firstBit + i))) →
      ch.extract p = .ok field) :
    ReadsBack c n ch v m := by
  intro r g m' hr hrun
  obtain rfl := Except.ok.inj (hread.symm.trans hr)
  obtain ⟨p, hp, regular, kind, size, bits⟩ := brings m
  obtain ⟨hg, rfl⟩ := Prod.mk.inj (hrun.symm.trans hp)
  obtain rfl := Except.ok.inj hg
  exact ⟨rfl, Catalog.read_of_extract hfield (h p regular kind size bits)⟩

/-- Bits that were left where the channel is are read back. -/
theorem readsBack_bits {v : Value} {f : Nat → Bool} {m m' : Image}
    (brings : Brings n ch.dataset d)
    (hread : c.readAction ch.dataset = .ok (Action.ofDataset ch.dataset d))
    (fit : ch.checkFootprint d = .ok ()) (bitField : ch.cls.isBitField = true)
    (hfield : ch.encoding.encode ch.cls v = .ok (.bits (BitSeq.ofFn .lsb0 ch.cls.width f)))
    (patched : m.Patched m' (d.firstBit + ch.position) ch.cls.width
      (BitSeq.ofFn .lsb0 ch.cls.width f).bit) :
    ReadsBack c n ch v m' := by
  obtain ⟨-, hlast⟩ := Channel.checkFootprint_eq_ok fit
  refine readsBack_of_extract brings hread hfield fun p regular _ size bits => ?_
  have order : p.toBits.order = .lsb0 := by
    cases regular <;> first | assumption | rfl
  refine Channel.extract_bits bitField order (size ▸ hlast) fun i hi => ?_
  have hplace : ch.position + i < d.bitLength := by
    rw [Channel.last] at hlast
    omega
  rw [bits _ hplace, ← Nat.add_assoc, patched.inside i hi, BitSeq.bit_ofFn]
  simp [hi]

/-- Registers that were left where the channel is are read back. -/
theorem readsBack_registers {v : Value} {field : Field} {ws : List UInt16} {m m' : Image}
    (brings : Brings n ch.dataset d)
    (hread : c.readAction ch.dataset = .ok (Action.ofDataset ch.dataset d))
    (registers : d.cls.isRegisters = true)
    (hfield : ch.encoding.encode ch.cls v = .ok field)
    (fits : 16 * (ch.position / 16 + ws.length) ≤ d.bitLength) (hlast : ch.last ≤ d.bitLength)
    (hextract : ∀ us, ch.last ≤ 16 * us.length →
      (us.drop (ch.position / 16)).take ws.length = ws →
        ch.extract (.registers (wordsBytes us)) = .ok field)
    (patched : m.Patched m' (d.firstBit + 16 * (ch.position / 16)) (16 * ws.length)
      fun i => (ws.getD (i / 16) 0).toNat.testBit (i % 16)) :
    ReadsBack c n ch v m' := by
  refine readsBack_of_extract brings hread hfield fun p regular kind size bits => ?_
  cases regular with
  | bits _ =>
    rw [registers] at kind
    cases kind
  | registers us =>
    rw [Payload.bitLength, length_wordsBytes] at size
    refine hextract us (by omega) (take_drop_eq_iff.2 fun k hk => ?_)
    obtain ⟨w, hw⟩ : ∃ w, us[ch.position / 16 + k]? = some w :=
      ⟨_, List.getElem?_eq_getElem (by omega)⟩
    rw [hw, List.getElem?_eq_getElem hk, Option.some_inj, word_eq_iff]
    intro j hj
    have hbit := bits (16 * (ch.position / 16 + k) + j) (by omega)
    have hdiv : (16 * k + j) / 16 = k := by omega
    have hmod : (16 * k + j) % 16 = j := by omega
    rw [Channel.bit_toBits hw hj, show d.firstBit + (16 * (ch.position / 16 + k) + j)
      = d.firstBit + 16 * (ch.position / 16) + (16 * k + j) by omega,
      patched.inside (16 * k + j) (by omega), hdiv, hmod, List.getD_eq_getElem _ _ hk] at hbit
    exact hbit

/-! ## Agreement -/

/-- what a write of the channel may change: the bits that decide what is read, or for a byte those
of the register around them -/
def Owns (c : Catalog) (n : Node) (ch : Channel) (b : DeviceBit) : Prop :=
  if ch.cls.width = 8 then ∃ b', DecodesBit c n ch b' ∧ b'.register = b.register
  else DecodesBit c n ch b

/-- A write and the read of its dataset agree on the bits of a device. -/
structure Agrees (c : Catalog) (n : Node) (a : Action) (ch : Channel) (v : Value) : Prop where
  /-- the bits that the write changes are those that the channel owns -/
  bits : ∀ b, WritesBit n a b ↔ Owns c n ch b
  /-- after a write that ends well, every other bit is as before -/
  others : ∀ m g m', (a.session n).run Image.carrier m = (.ok g, m') →
    m'.coils = m.coils ∧ ∀ b, ¬Owns c n ch b → m'.bitAt b = m.bitAt b
  /-- after a write that ends well, reading gives what was written -/
  readsBack : ∀ m g m', (a.session n).run Image.carrier m = (.ok g, m') → ReadsBack c n ch v m'

/-- A few bits in registers whose offset lies within a register: they are read from bit 0 of that
register on, and written from the bit at the offset on. -/
def Channel.Astray (ch : Channel) (d : Dataset) : Prop :=
  d.cls.isRegisters = true ∧ (ch.cls = .bit ∨ ch.cls = .modeSet) ∧ d.offset.toNat % 16 ≠ 0

/-- A write agrees with its reading when it leaves its run on the bits that are owned. -/
theorem agrees_of_leaves {v : Value} {first count : Nat} {f : Nat → Bool}
    (leaves : Leaves n a first count f)
    (owns : ∀ b, b.Within first count ↔ Owns c n ch b)
    (readsBack : ∀ m m' : Image, m.Patched m' first count f → ReadsBack c n ch v m') :
    Agrees c n a ch v := by
  have ended : ∀ {m m' : Image} {g : Gain}, (a.session n).run Image.carrier m = (.ok g, m') →
      m.Patched m' first count f := by
    intro m g m' hrun
    obtain ⟨m₂, hrun₂, patched⟩ := leaves m
    obtain ⟨-, rfl⟩ := Prod.mk.inj (hrun.symm.trans hrun₂)
    exact patched
  refine ⟨fun b => (writesBit_iff leaves b).trans (owns b), fun m g m' hrun => ?_,
    fun m g m' hrun => readsBack m m' (ended hrun)⟩
  refine ⟨(ended hrun).coils, fun b hb => (ended hrun).outside b fun i hi hbi => ?_⟩
  exact hb ((owns b).1 ⟨i, hi, hbi⟩)

/-- The bits of a whole register are those with its number. -/
theorem within_register_iff {b : DeviceBit} {first : Nat} (aligned : first % 16 = 0) :
    b.Within first 16 ↔ (DeviceBit.ofNat first).register = b.register := by
  constructor
  · rintro ⟨i, hi, rfl⟩
    simp only [DeviceBit.ofNat]
    rw [show (first + i) / 16 = first / 16 by omega]
  · intro h
    refine ⟨b.bit, b.bit.isLt, ?_⟩
    obtain ⟨x, j⟩ := b
    obtain rfl := h
    have hj := j.isLt
    rw [DeviceBit.ofNat, DeviceBit.mk.injEq, Fin.mk.injEq]
    simp only [DeviceBit.ofNat]
    exact ⟨by rw [show (first + j.val) / 16 = first / 16 by omega], by omega⟩

/-- The registers that are written for a channel are the bits that it owns. -/
theorem owns_iff_registers (decodes : ∀ b, DecodesBit c n ch b ↔
      b.Within (d.firstBit + ch.position) ch.cls.width)
    (aligned : d.firstBit % 16 = 0) (whole : ch.cls.width % 8 = 0) (b : DeviceBit) :
    b.Within (d.firstBit + 16 * (ch.position / 16)) (16 * ((ch.cls.width + 15) / 16)) ↔
      Owns c n ch b := by
  rw [Owns]
  by_cases byte : ch.cls.width = 8
  · have hposition : ch.position % 16 = 0 ∨ ch.position % 16 = 8 := by
      rw [Channel.position, byte]
      omega
    have hregister : ∀ i < 8, (DeviceBit.ofNat (d.firstBit + ch.position + i)).register
        = (DeviceBit.ofNat (d.firstBit + 16 * (ch.position / 16))).register := by
      intro i hi
      simp only [DeviceBit.ofNat]
      rw [show (d.firstBit + ch.position + i) / 16 = (d.firstBit + 16 * (ch.position / 16)) / 16
        by omega]
    rw [if_pos byte, byte]
    refine (within_register_iff (by omega)).trans ⟨fun h => ?_, ?_⟩
    · exact ⟨_, (decodes _).2 ⟨0, by omega, rfl⟩, (hregister 0 (by omega)).trans h⟩
    · rintro ⟨b', hb', h⟩
      obtain ⟨i, hi, rfl⟩ := (decodes b').1 hb'
      exact (hregister i (byte ▸ hi)).symm.trans h
  · have hwidth : ch.cls.width = 16 ∨ ch.cls.width = 32 := by
      rcases hcls : ch.cls <;> rw [hcls] at whole byte <;> simp_all [ValueClass.width]
    have hposition : 16 * (ch.position / 16) = ch.position := by
      rw [Channel.position]
      rcases hwidth with h | h <;> rw [h] <;> omega
    rw [if_neg byte, decodes, hposition, show 16 * ((ch.cls.width + 15) / 16) = ch.cls.width by
      rcases hwidth with h | h <;> rw [h]]

variable {e : ChannelEntry} {entry : DatasetEntry} {v : Value} {field : Field} {unit : UnitId}

/-- Whole registers are written where they are read. -/
theorem agrees_registers {address : UInt16}
    (cls : entry.dataset.cls = .holdingRegister)
    (fit : e.channel.checkFootprint entry.dataset = .ok ())
    (hread : c.readAction e.channel.dataset
      = .ok (Action.ofDataset e.channel.dataset entry.dataset))
    (brings : Brings ⟨unit, .vendor⟩ e.channel.dataset entry.dataset)
    (hfield : e.channel.encoding.encode e.channel.cls v = .ok field)
    (fills : ∀ s, field = .bits s →
      Catalog.FillsRegisters entry.dataset e.channel.position s)
    (haddress : address.toNat = entry.dataset.address.toNat + e.channel.position / 16)
    {m m' : Image} {g : Gain}
    (ha : a = { Catalog.writeOf e.channel.dataset entry.dataset with
      address := address
      length := UInt16.ofNat
        ((Catalog.registersOf entry.cache e.channel.position field).length / 2)
      payload := some (.registers (Catalog.registersOf entry.cache e.channel.position field)) })
    (hrun : (a.session ⟨unit, .vendor⟩).run Image.carrier m = (.ok g, m')) :
    Agrees c ⟨unit, .vendor⟩ a e.channel v := by
  have fits := Encoding.encode_eq_ok hfield
  have registers : entry.dataset.cls.isRegisters = true := by rw [cls]; rfl
  obtain ⟨-, hlast⟩ := Channel.checkFootprint_eq_ok fit
  have hlength : entry.dataset.bitLength = 16 * entry.dataset.length.toNat := by
    simp [Dataset.bitLength, cls, MessageClass.isBits, MessageClass.isRegisters]
  have whole := Channel.width_mod fits fills
  have hend := e.channel.last_add_div whole
  obtain ⟨ws, hws, hcount, hextract⟩ := Channel.extract_registersOf fits fills entry.cache
  have hsmall : ws.length < 2 ^ 16 := by
    rw [hcount]
    cases e.channel.cls <;> decide
  have hfirst : entry.dataset.firstBit
      = 16 * (entry.dataset.address.toNat + entry.dataset.offset.toNat / 16) := by
    rw [Dataset.firstBit, cls]
    rfl
  have hplace : Extended.firstRegister a.range
      = entry.dataset.firstBit + 16 * (e.channel.position / 16) := by
    have hrange : Extended.firstRegister a.range
        = 16 * (address.toNat + entry.dataset.offset.toNat / 16) := by rw [ha]; rfl
    omega
  have leaves := leaves_of_run_registers (by rw [ha]; rfl) (by rw [ha]; exact cls)
    (by rw [ha, ← hws]) hsmall hrun
  rw [hplace] at leaves
  refine agrees_of_leaves leaves (fun b => ?_) fun m₁ m₂ patched => ?_
  · rw [hcount]
    exact owns_iff_registers (decodesBit_iff brings hread fit (.inr cls)) (by omega) whole b
  · exact readsBack_registers brings hread registers hfield (by omega) hlast hextract patched

/-- Bits in registers whose offset lies within a register are written as far after the place they
are read from. -/
theorem not_agrees_of_astray {first : Nat} {f : Nat → Bool} (few : ch.cls = .bit ∨ ch.cls = .modeSet)
    (within : d.offset.toNat % 16 ≠ 0)
    (decodes : ∀ b, DecodesBit c n ch b ↔ b.Within (d.firstBit + ch.position) ch.cls.width)
    (hfirst : first = d.firstBit + ch.position + d.offset.toNat % 16)
    (leaves : Leaves n a first ch.cls.width f) : ¬Agrees c n a ch v := by
  intro agrees
  have hwidth : ch.cls.width = 1 ∨ ch.cls.width = 4 := by
    rcases few with h | h <;> rw [h] <;> decide
  have hdecoded : Owns c n ch (.ofNat (d.firstBit + ch.position)) := by
    rw [Owns, if_neg (by omega), decodes]
    exact ⟨0, by omega, rfl⟩
  obtain ⟨i, hi, hb⟩ := (writesBit_iff leaves _).1 ((agrees.bits _).2 hdecoded)
  rw [DeviceBit.ofNat_eq_iff, show DeviceBit.count = 2 ^ 20 from rfl] at hb
  omega

/-- **Where the extended functions agree on the bits of a device.** Let a catalog come about in any
way, let it have an action for a value of one of its channels, and let a device take the write and
serve the read of the dataset. Then the write agrees with the read, on every device, exactly when the
channel does not go astray. -/
theorem extended_write_reads_back_iff (built : c.Built) {s : State} (ch : Channel) (d : Dataset)
    (hch : c.channel? s.channel = some ch) (hd : c.dataset? ch.dataset = some d)
    (hwrite : c.buildWrite s = .ok a) (unit : UnitId)
    (written : ∃ m g m', (a.session ⟨unit, .vendor⟩).run Image.carrier m = (.ok g, m'))
    (read : ∃ r m g m', c.readAction ch.dataset = .ok r ∧
      (r.session ⟨unit, .vendor⟩).run Image.carrier m = (.ok g, m')) :
    Agrees c ⟨unit, .vendor⟩ a ch s.value ↔ ¬ch.Astray d := by
  obtain ⟨e, entry, field, he, hentry, cls, hfield, placed⟩ := Catalog.buildWrite_eq_ok hwrite
  obtain rfl : e.channel = ch := by
    rw [Catalog.channel?, he] at hch
    exact Option.some.inj hch
  obtain rfl : entry.dataset = d := by
    rw [Catalog.dataset?, hentry] at hd
    exact Option.some.inj hd
  obtain ⟨entry', hentry', fit⟩ := Catalog.checkChannel_eq_ok (built.sound.fits he)
  obtain rfl := Option.some.inj (hentry.symm.trans hentry')
  obtain ⟨m, g, m', hrun⟩ := written
  obtain ⟨r, mr, gr, mr', hread, hbrought⟩ := read
  obtain rfl := Catalog.readAction_eq_ok hentry hread
  have brings := brings_of_run cls hbrought
  have decodes := decodesBit_iff brings hread fit cls
  have fits := Encoding.encode_eq_ok hfield
  obtain ⟨hkind, hlast⟩ := Channel.checkFootprint_eq_ok fit
  cases placed with
  | registers fills haddress =>
    have holding := Channel.cls_of_fills fits hkind cls fills
    refine iff_of_true ?_ fun astray => Channel.not_fills fits astray.2.1 fills
    exact agrees_registers holding fit hread brings hfield fills haddress rfl hrun
  | bits fills offset =>
    obtain ⟨bitField, f, rfl⟩ := fits
    have leaves := leaves_of_run_bits rfl cls rfl hrun
    have hposition : (UInt16.ofNat (entry.dataset.offset.toNat + e.channel.position)).toNat
        = entry.dataset.offset.toNat + e.channel.position := UInt16.toNat_ofNat_of_lt' offset
    have narrow : e.channel.cls.width ≠ 8 := by
      rcases hcls : e.channel.cls <;> rw [hcls] at bitField <;> simp_all [ValueClass.width,
        ValueClass.isBitField]
    by_cases astray : e.channel.Astray entry.dataset
    · refine iff_of_false ?_ (not_not_intro astray)
      obtain ⟨registers, few, within⟩ := astray
      refine not_agrees_of_astray few within decodes ?_ leaves
      have hbits : entry.dataset.cls.isBits = false := by
        rcases cls with cls | cls
        · rw [cls] at registers
          cases registers
        · rw [cls]
          rfl
      change 16 * entry.dataset.address.toNat + (UInt16.ofNat _).toNat = _
      rw [hposition, Dataset.firstBit, hbits, if_neg Bool.false_ne_true]
      omega
    · refine iff_of_true ?_ astray
      have hplace : 16 * entry.dataset.address.toNat
          + (UInt16.ofNat (entry.dataset.offset.toNat + e.channel.position)).toNat
          = entry.dataset.firstBit + e.channel.position := by
        rw [hposition, Dataset.firstBit]
        rcases cls with cls | cls
        · rw [if_pos (by rw [cls]; rfl)]
          omega
        · have registers : entry.dataset.cls.isRegisters = true := by rw [cls]; rfl
          have few := Channel.few_of_not_fills ⟨bitField, f, rfl⟩ registers fills
          have aligned : entry.dataset.offset.toNat % 16 = 0 :=
            Classical.not_not.1 fun within => astray ⟨registers, few, within⟩
          rw [if_neg (by rw [cls]; decide)]
          omega
      change Leaves _ _ (16 * entry.dataset.address.toNat + (UInt16.ofNat _).toNat) _ _ at leaves
      rw [hplace] at leaves
      refine agrees_of_leaves leaves (fun b => ?_) fun m₁ m₂ patched =>
        readsBack_bits brings hread fit bitField hfield patched
      rw [Owns, if_neg narrow]
      exact (decodes b).symm

/-! ## A lamp

One register, the lamp its fourth bit, given as the first bit from an offset of three on. -/

namespace Lamp

def dataset : Dataset where
  node := 1
  cls := .holdingRegister
  address := 40
  length := 1
  offset := 3

def lamp : Channel where
  id := "lamp"
  dataset := 1
  index := 0
  cls := .bit

def catalog : Catalog := ((({} : Catalog).addDataset "panel" dataset).2.1.addChannel lamp).2.1

theorem catalog_built : catalog.Built := .addChannel _ (.addDataset _ _ .empty)

/-- the write that turns the lamp on -/
def write : Action :=
  { Catalog.writeOf 1 dataset with
    offset := 3
    length := 1
    payload := some (.bits (BitSeq.ofList .lsb0 [true])) }

/-- The lamp is read at another bit than it is written. -/
theorem lamp_goes_astray : ¬Agrees catalog ⟨⟨17⟩, .vendor⟩ write lamp (.bool true) := by
  have agrees := extended_write_reads_back_iff catalog_built (s := ⟨"lamp", .bool true⟩) lamp
    dataset rfl rfl (a := write) rfl ⟨17⟩ ⟨.filled false, .nothing, _, rfl⟩
    ⟨_, .filled false, _, _, rfl, rfl⟩
  exact fun h => agrees.1 h ⟨rfl, .inl rfl, by decide⟩

end Lamp

end BusMaster
