import BusMaster.Plant.Catalog
import BusMaster.Proofs.Addressing
import BusMaster.Proofs.Words

/-!
# Where a value goes

A value is encoded to a field, and the field of a value has the shape of its class
(`Encoding.encode_eq_ok`), which is all that decoding asks for (`Encoding.decode_of_fits`). It is
written in one of two ways (`Catalog.Placed`): as bits, where the position of the channel adds to
the offset of the dataset, or as whole registers, where it adds to the address. Nothing is said here
of what a device makes of an address and an offset.
-/

namespace BusMaster

/-! ## Datasets of bits and of registers -/

theorem MessageClass.notBits_of_isRegisters (cls : MessageClass) (h : cls.isRegisters = true) :
    cls.isBits = false := by
  cases cls <;> first | rfl | cases h

/-- A dataset that holds data holds bits or registers. -/
theorem Dataset.kind_of_holds (d : Dataset) (holds : d.bitLength ≠ 0) :
    d.cls.isBits = true ∨ d.cls.isRegisters = true := by
  rw [bitLength] at holds
  split at holds
  · exact .inl ‹_›
  split at holds
  · exact .inr ‹_›
  · exact absurd rfl holds

/-- Bits and registers are polled by a read. -/
theorem Action.action_ofDataset (id : DatasetId) {d : Dataset}
    (kind : d.cls.isBits = true ∨ d.cls.isRegisters = true) : (ofDataset id d).action = .read := by
  have other : ¬d.cls.isStatus = true ∧ d.cls ≠ .setLogicalAddress := by
    revert kind
    cases d.cls <;> decide
  rw [ofDataset, if_neg other.1, if_neg other.2]

/-! ## Fields -/

/-- a field has the shape of its class: so many bits, least significant first, or so many bytes -/
def Field.Fits (cls : ValueClass) : Field → Prop
  | .bits s => cls.isBitField = true ∧ ∃ f, s = BitSeq.ofFn .lsb0 cls.width f
  | .bytes data => cls.isBitField = false ∧ 8 * data.length = cls.width

namespace Encoding

theorem length_writeWord (order : ByteOrder) (w : UInt16) : (order.writeWord w).length = 2 := by
  cases order <;> rfl

theorem length_writeDoubleWord (order : ByteOrder) (d : UInt32) :
    (order.writeDoubleWord d).length = 4 := by
  cases order <;> rfl

theorem scheduleBits_eq_ok {v : Value} {s : BitSeq} (h : scheduleBits v = .ok s) :
    ∃ f, s = BitSeq.ofFn .lsb0 ValueClass.schedule.width f := by
  unfold scheduleBits at h
  split at h
  · split at h
    · rename_i bits hbits
      split at h
      · rename_i hsize
        obtain rfl := Except.ok.inj h
        rw [BitSeq.ofText] at hbits
        rcases hdigits : BitSeq.readDigits _ with _ | digits
        · rw [hdigits] at hbits
          cases hbits
        · rw [hdigits] at hbits
          obtain rfl := Except.ok.inj hbits
          rw [BitSeq.ofList_eq_ofFn] at hsize ⊢
          exact ⟨_, by rw [← hsize, BitSeq.size_ofFn]⟩
      · cases h
    · cases h
  · cases h

/-- What a value is encoded to has the shape of its class. -/
theorem encode_eq_ok {e : Encoding} {cls : ValueClass} {v : Value} {field : Field}
    (h : e.encode cls v = .ok field) : field.Fits cls := by
  unfold encode at h
  split at h
  · cases h
  rename_i writable
  split at h
  case h_1 =>
    obtain ⟨b, -, h⟩ := bind_eq_ok h
    obtain rfl := Except.ok.inj h
    exact ⟨rfl, _, BitSeq.ofList_eq_ofFn ..⟩
  case h_2 =>
    obtain ⟨mode, -, h⟩ := bind_eq_ok h
    obtain rfl := Except.ok.inj h
    exact ⟨rfl, _, rfl⟩
  case h_3 =>
    obtain ⟨s, hs, h⟩ := bind_eq_ok h
    obtain rfl := Except.ok.inj h
    exact ⟨rfl, scheduleBits_eq_ok hs⟩
  case h_4 =>
    split at h
    · obtain rfl := Except.ok.inj h
      exact ⟨rfl, by rw [length_writeDoubleWord]; rfl⟩
    · cases h
  case h_5 hbit hmode hschedule hfloat =>
    obtain ⟨raw, -, h⟩ := bind_eq_ok h
    obtain rfl := Except.ok.inj h
    -- what is left are the classes of integers, one byte, one word or two
    cases cls <;>
      first
      | exact absurd rfl ‹_›
      | exact absurd rfl writable
      | exact ⟨rfl, by simp [integerBytes, length_writeWord, length_writeDoubleWord,
          ValueClass.width]⟩

/-- Bytes of the right number hold a raw integer, unless they hold no integer at all. -/
theorem rawInteger_of_fits (order : ByteOrder) {cls : ValueClass} {data : Bytes}
    (fits : (Field.bytes data).Fits cls) (power : cls ≠ .power) (float : cls ≠ .float32) :
    ∃ i, rawInteger order cls data = .ok i := by
  obtain ⟨bytes, hwidth⟩ := fits
  have hmax : cls.width ≤ 32 := by cases cls <;> decide
  match data with
  | [a] | [a, b] | [a, b, c, d] =>
    cases cls <;> simp_all [ValueClass.width, rawInteger, ValueClass.isBitField]
  | [] | [a, b, c] | _ :: _ :: _ :: _ :: _ :: rest =>
    cases cls <;> simp [ValueClass.width] at hwidth <;> omega

/-- A field of the shape of its class has a value. -/
theorem decode_of_fits (e : Encoding) {cls : ValueClass} {field : Field} (fits : field.Fits cls) :
    ∃ w, e.decode cls field = .ok w := by
  cases field with
  | bits s =>
    obtain ⟨bitField, f, rfl⟩ := fits
    cases cls <;> first | exact ⟨_, rfl⟩ | cases bitField
  | bytes data =>
    change ∃ w, e.decodeBytes cls data = .ok w
    unfold decodeBytes
    split
    · exact ⟨_, rfl⟩
    · exact ⟨_, rfl⟩
    · rename_i power float
      have hlength := fits.2
      -- a power or a float of the right width was caught above
      have notPower : cls ≠ .power := by
        rintro rfl
        obtain ⟨x, y, rfl⟩ := List.length_eq_two.1 (show data.length = 2 by
          rw [ValueClass.width] at hlength
          omega)
        exact power x y rfl rfl
      have notFloat : cls ≠ .float32 := by
        rintro rfl
        rw [ValueClass.width] at hlength
        match data with
        | [x, y, z, w] => exact float x y z w rfl rfl
        | [] | [_] | [_, _] | [_, _, _] => cases hlength
        | _ :: _ :: _ :: _ :: _ :: _ =>
          simp only [List.length_cons] at hlength
          omega
      obtain ⟨i, hi⟩ := rawInteger_of_fits e.order fits notPower notFloat
      rw [hi]
      cases e.scale with
      | none => exact ⟨_, rfl⟩
      | some places =>
        by_cases integer : cls.isInteger = true <;>
          simp [bind, Except.bind, integer, pure, Except.pure]

end Encoding

/-! ## What a write carries -/

namespace Catalog

/-- the registers written for a field: around a single byte, the other one as it was last read -/
def registersOf (cache : Option Payload) (position : Nat) : Field → Bytes
  | .bits s => s.toRegisters
  | .bytes [b] => mergeByte cache position b
  | .bytes data => data

/-- a run of bits fills whole registers of a register dataset -/
def FillsRegisters (d : Dataset) (position : Nat) (s : BitSeq) : Prop :=
  d.cls.isRegisters = true ∧ position % 16 = 0 ∧ s.size % 16 = 0

/-- the two ways to write a field at a bit position -/
inductive Placed (entry : DatasetEntry) (position : Nat) (write : Action) : Field → Action → Prop
  /-- bits, at the offset of the dataset and the position together -/
  | bits {s : BitSeq} :
      ¬FillsRegisters entry.dataset position s →
      entry.dataset.offset.toNat + position < 2 ^ 16 →
      Placed entry position write (.bits s) { write with
        offset := UInt16.ofNat (entry.dataset.offset.toNat + position)
        length := UInt16.ofNat s.size
        payload := some (.bits s) }
  /-- whole registers, so many registers after the address of the dataset -/
  | registers {field : Field} {address : UInt16} :
      (∀ s, field = .bits s → FillsRegisters entry.dataset position s) →
      address.toNat = entry.dataset.address.toNat + position / 16 →
      Placed entry position write field { write with
        address := address
        length := UInt16.ofNat ((registersOf entry.cache position field).length / 2)
        payload := some (.registers (registersOf entry.cache position field)) }

/-- Inversion for the placing of a field. -/
theorem place_eq_ok {entry : DatasetEntry} {position : Nat} {write a : Action} {field : Field}
    (h : place entry position write field = .ok a) : Placed entry position write field a := by
  rw [place] at h
  dsimp only at h
  split at h
  · rename_i hposition
    have hregister {address : UInt16}
        (haddress : addAddress entry.dataset.address (UInt16.ofNat (position / 16))
          = .ok address) : address.toNat = entry.dataset.address.toNat + position / 16 := by
      rw [addAddress_eq_ok haddress, UInt16.toNat_ofNat_of_lt' hposition]
    split at h
    · rename_i s
      split at h
      · rename_i fills
        obtain ⟨address, haddress, h⟩ := bind_eq_ok h
        obtain rfl := Except.ok.inj h
        exact .registers (fun t ht => Field.bits.inj ht ▸ fills) (hregister haddress)
      · rename_i fills
        split at h
        · rename_i hoffset
          obtain rfl := Except.ok.inj h
          exact .bits fills hoffset
        · cases h
    · rename_i b
      obtain ⟨address, haddress, h⟩ := bind_eq_ok h
      obtain rfl := Except.ok.inj h
      have hlength : (registersOf entry.cache position (.bytes [b])).length = 2 := by
        change (mergeByte ..).length = 2
        unfold mergeByte
        dsimp only
        split <;> rfl
      have placed : Placed entry position write (.bytes [b]) _ :=
        .registers (fun t ht => by cases ht) (hregister haddress)
      rwa [hlength] at placed
    · rename_i data single
      obtain ⟨address, haddress, h⟩ := bind_eq_ok h
      obtain rfl := Except.ok.inj h
      have hdata : registersOf entry.cache position (.bytes data) = data := by
        unfold registersOf
        split <;> simp_all
      have placed : Placed entry position write (.bytes data) _ :=
        .registers (fun t ht => by cases ht) (hregister haddress)
      rwa [hdata] at placed
  · cases h

/-- One byte of a register around a byte is that byte, at the place where it is read. -/
theorem mergeByte_eq (cache : Option Payload) (position : Nat) (b : UInt8) :
    ∃ hi lo, mergeByte cache position b = [hi, lo] ∧
      (if position % 16 = 0 then lo else hi) = b := by
  unfold mergeByte bytePosition
  dsimp only
  by_cases low : position % 16 = 0
  · rw [if_pos low, if_neg (Nat.succ_ne_self _)]
    exact ⟨_, _, rfl, if_pos low⟩
  · rw [if_neg low, if_pos rfl]
    exact ⟨_, _, rfl, if_neg low⟩

/-- the write of a field, before it has a place -/
def writeOf (id : DatasetId) (d : Dataset) : Action :=
  { Action.ofDataset id d with action := .write, repeats := .once, internal := false }

/-- Inversion for the write of a value. -/
theorem buildWrite_eq_ok {c : Catalog} {s : State} {a : Action} (h : c.buildWrite s = .ok a) :
    ∃ e entry field, c.channels[s.channel]? = some e ∧
      c.datasets[e.channel.dataset]? = some entry ∧
      (entry.dataset.cls = .coil ∨ entry.dataset.cls = .holdingRegister) ∧
      e.channel.encoding.encode e.channel.cls s.value = .ok field ∧
      Placed entry e.channel.position (writeOf e.channel.dataset entry.dataset) field a := by
  rw [buildWrite] at h
  split at h
  · cases h
  rename_i ch current previous he
  split at h
  · cases h
  rename_i entry hentry
  dsimp only at h
  split at h
  · rename_i hcls
    obtain ⟨field, hfield, h⟩ := bind_eq_ok h
    refine ⟨_, entry, field, he, hentry, ?_, hfield, place_eq_ok h⟩
    rcases hd : entry.dataset.cls <;> rw [hd] at hcls <;> simp_all [MessageClass.isWritable,
      MessageClass.isBits, MessageClass.isRegisters]
  · cases h

end Catalog

end BusMaster
