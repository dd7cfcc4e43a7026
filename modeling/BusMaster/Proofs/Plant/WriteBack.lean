import BusMaster.Proofs.Plant.Canonical
import BusMaster.Proofs.Plant.Entries
import BusMaster.Proofs.Plant.Extraction
import BusMaster.Proofs.Plant.Halves

/-!
# Writing back what was read

A value that was read, when it is written again, is written as it was: the action carries the part of
the payload that lies where the action goes to (`Action.Restores`). Three things come together for
that. A channel cuts one of three kinds of field out of a payload (`Channel.Cut`), encoding gives each
back (`Encoding.encode_decode`), and the place of the write is the place of the cut. A byte takes
along the other one of its register, which is right as long as the catalog keeps the payload that
was read (`Catalog.kept_run`).
-/

namespace BusMaster

/-- the payload is one that a read of the dataset brings, of its kind and size -/
structure Dataset.Shapes (d : Dataset) (p : Payload) : Prop where
  kind : p.isRegisters = d.cls.isRegisters
  size : p.bitLength = d.bitLength

/-- What an action writes is what a payload of its dataset has at the same place: so many registers
after the address of the dataset, or so many bits after its offset. -/
inductive Action.Restores (a : Action) (d : Dataset) : Payload → Prop
  | registers {bytes data : Bytes} {k : Nat} : a.payload = some (.registers data) →
      a.address.toNat = d.address.toNat + k → a.offset = d.offset →
      data.length = 2 * a.length.toNat → 2 * k + data.length ≤ bytes.length →
      data = Channel.slice bytes (2 * k) data.length → a.Restores d (.registers bytes)
  | bits {p : Payload} {s : BitSeq} {k : Nat} : a.payload = some (.bits s) →
      a.address = d.address → a.offset.toNat = d.offset.toNat + k →
      s.size = a.length.toNat → k + s.size ≤ p.bitLength →
      (∀ i < s.size, s.bit i = p.toBits.bit (k + i)) → a.Restores d p

/-! ## What is cut out -/

namespace Channel

/-- the field that a channel cuts out of a payload -/
inductive Cut (ch : Channel) (p : Payload) : Field → Prop
  /-- a run of bits -/
  | bits : ch.cls.isBitField = true → ch.Cut p (.bits (p.toBits.range ch.position ch.last))
  /-- half of a register -/
  | byte {us : List UInt16} {w : UInt16} : ch.cls.isBitField = false → ch.cls.width = 8 →
      p = .registers (wordsBytes us) → us[ch.position / 16]? = some w →
      ch.Cut p (.bytes [byteAt w ch.position])
  /-- whole registers -/
  | words {us : List UInt16} {count : Nat} : ch.cls.isBitField = false → 0 < count →
      ch.cls.width = 16 * count → p = .registers (wordsBytes us) →
      ch.Cut p (.bytes (wordsBytes ((us.drop (ch.position / 16)).take count)))

/-- Inversion for what is cut out of bits or of whole registers. -/
theorem extract_eq_ok {ch : Channel} {p : Payload} {field : Field}
    (even : ∀ bytes, p = .registers bytes → bytes.length % 2 = 0) (h : ch.extract p = .ok field) :
    ch.last ≤ p.bitLength ∧ ch.Cut p field := by
  have within : ch.last ≤ p.bitLength := by
    by_contra out
    unfold extract at h
    rw [if_pos (Nat.not_le.1 out)] at h
    cases h
  refine ⟨within, ?_⟩
  cases bitField : ch.cls.isBitField with
  | true =>
    unfold extract at h
    rw [if_neg (Nat.not_lt.2 within), if_pos bitField] at h
    obtain rfl := Except.ok.inj h
    exact .bits bitField
  | false =>
    cases p with
    | bits s =>
      unfold extract at h
      rw [if_neg (Nat.not_lt.2 within), bitField] at h
      cases h
    | registers bytes =>
      obtain ⟨us, rfl⟩ : ∃ us, bytes = wordsBytes us :=
        ⟨_, (wordsBytes_wordsOf (even _ rfl)).symm⟩
      have fits : ch.last ≤ 16 * us.length := by
        rw [Payload.bitLength, length_wordsBytes] at within
        omega
      by_cases byte : ch.cls.width = 8
      · have hin : ch.position / 16 < us.length := by
          rw [last, byte] at fits
          omega
        have hw := List.getElem?_eq_getElem hin
        rw [extract_byte byte bitField fits hw] at h
        obtain rfl := Except.ok.inj h
        exact .byte bitField byte rfl hw
      · obtain ⟨count, pos, whole⟩ := ch.cls.width_eq bitField byte
        rw [extract_words bitField whole fits] at h
        obtain rfl := Except.ok.inj h
        exact .words bitField pos whole rfl

theorem Cut.spans {ch : Channel} {p : Payload} {field : Field} (cut : ch.Cut p field)
    (within : ch.last ≤ p.bitLength) : field.Spans ch.cls := by
  cases cut with
  | bits bitField => exact ⟨bitField, ch.last_sub_position⟩
  | byte bytes byte _ _ => exact ⟨bytes, byte.symm⟩
  | words bytes _ whole hp =>
    subst hp
    refine ⟨bytes, ?_⟩
    rw [Payload.bitLength, length_wordsBytes, last, whole] at within
    rw [length_wordsBytes, List.length_take, List.length_drop, whole]
    omega

/-- Runs that fill registers have the words of the registers with the same bits. -/
theorem words_eq_take_drop {us : List UInt16} {t : BitSeq} {first : Nat} (whole : t.size % 16 = 0)
    (within : 16 * first + t.size ≤ 16 * us.length)
    (bits : ∀ i < t.size, t.bit i = (Payload.registers (wordsBytes us)).toBits.bit (16 * first + i)) :
    (us.drop first).take t.words.length = t.words := by
  have length : t.words.length = t.size / 16 := by
    rw [BitSeq.length_words]
    omega
  refine take_drop_eq_iff.2 fun k hk => ?_
  rw [length] at hk
  have hw : us[first + k]? = some us[first + k] := List.getElem?_eq_getElem (by omega)
  rw [hw, List.getElem?_eq_getElem (length ▸ hk), Option.some_inj, word_eq_iff]
  intro j hj
  have hdigit := BitSeq.testBit_words (s := t) (i := 16 * k + j) (by omega)
  rw [show (16 * k + j) / 16 = k by omega, show (16 * k + j) % 16 = j by omega,
    List.getD_eq_getElem _ _ (length ▸ hk), bits _ (by omega),
    show 16 * first + (16 * k + j) = 16 * (first + k) + j by omega, bit_toBits hw hj] at hdigit
  exact hdigit.symm

/-- **The registers that are written for what was cut out are those it was cut out of**, provided
that the catalog keeps them. -/
theorem Cut.registersOf {ch : Channel} {d : Dataset} {us : List UInt16} {field field' : Field}
    (cut : ch.Cut (.registers (wordsBytes us)) field) (within : ch.last ≤ 16 * us.length)
    (same : field'.Same field) (fits : field'.Fits ch.cls)
    (fills : ∀ s, field' = .bits s → Catalog.FillsRegisters d ch.position s) :
    Catalog.registersOf (some (.registers (wordsBytes us))) ch.position field'
      = wordsBytes ((us.drop (ch.position / 16)).take ((ch.cls.width + 15) / 16)) := by
  cases cut with
  | bits bitField =>
    cases same with
    | @bits t _ bits =>
      obtain ⟨-, aligned, whole⟩ := fills t rfl
      obtain ⟨-, f, rfl⟩ := fits
      have start : 16 * (ch.position / 16) = ch.position := by omega
      have room : 16 * (ch.position / 16) + (BitSeq.ofFn .lsb0 ch.cls.width f).size
          ≤ 16 * us.length := by
        rw [start]
        exact within
      have words := words_eq_take_drop whole room fun i hi => by
        replace hi : i < ch.cls.width := hi
        rw [bits, BitSeq.bit_range, last_sub_position, decide_eq_true hi, Bool.true_and, start]
      rw [Catalog.registersOf, BitSeq.toRegisters_eq, ← words]
      rw [BitSeq.length_words, BitSeq.size_ofFn]
  | @byte vs w bytes byte hp hw =>
    obtain rfl := wordsBytes_inj.1 (Payload.registers.inj hp)
    cases same
    have aligned : ch.position % 16 = 0 ∨ ch.position % 16 = 8 := by
      rw [position, byte]
      omega
    obtain ⟨w', hmerge, here, beside⟩ :=
      Catalog.mergeByte_of_holds (.read hw) aligned (byteAt w ch.position)
    obtain rfl := eq_of_byteAt_eq aligned here beside
    rw [byte, List.take_one, List.head?_drop, hw]
    exact hmerge
  | @words vs count bytes pos whole hp =>
    obtain rfl := wordsBytes_inj.1 (Payload.registers.inj hp)
    cases same
    have hdata : 1 < (wordsBytes ((us.drop (ch.position / 16)).take count)).length := by
      rw [length_wordsBytes, List.length_take, List.length_drop]
      rw [last, whole] at within
      omega
    have hcount : (ch.cls.width + 15) / 16 = count := by omega
    rw [hcount, Catalog.registersOf]
    rintro b hb
    rw [hb] at hdata
    simp at hdata

end Channel

/-! ## Where it is written -/

theorem Dataset.Shapes.even {d : Dataset} {p : Payload} (h : d.Shapes p) (bytes : Bytes)
    (hp : p = .registers bytes) : bytes.length % 2 = 0 := by
  subst hp
  have registers : d.cls.isRegisters = true := h.kind.symm
  have bits := d.cls.notBits_of_isRegisters registers
  have size : 8 * bytes.length = d.bitLength := h.size
  rw [Dataset.bitLength, bits, registers] at size
  change 8 * bytes.length = 16 * d.length.toNat at size
  omega

namespace Catalog

variable {c : Catalog} {ch : Channel} {entry : DatasetEntry}

/-- A field that cannot be placed lies past the last address. -/
theorem place_eq_error {position : Nat} {write : Action} {field : Field} {fault : ConfigFault}
    (h : place entry position write field = .error fault) : fault = .addressOverflow := by
  have overflow {k : UInt16} {f : UInt16 → Action}
      (h : (do let x ← addAddress entry.dataset.address k; pure (f x)) = Except.error fault) :
      fault = .addressOverflow := by
    rw [addAddress] at h
    split at h <;> cases h
    rfl
  rw [place] at h
  dsimp only at h
  split at h
  · split at h
    · split at h
      · exact overflow h
      · split at h <;> cases h
        rfl
    · exact overflow h
    · exact overflow h
  · cases h
    rfl

/-- The write of a value that has a field is the field in its place. -/
theorem buildWrite_eq_place {id : ChannelId} {e : ChannelEntry} {v : Value} {field : Field}
    (he : c.channels[id]? = some e) (hentry : c.datasets[e.channel.dataset]? = some entry)
    (cls : entry.dataset.cls = .coil ∨ entry.dataset.cls = .holdingRegister)
    (hfield : e.channel.encoding.encode e.channel.cls v = .ok field) :
    c.buildWrite ⟨id, v⟩
      = place entry e.channel.position (writeOf e.channel.dataset entry.dataset) field := by
  have writable : (entry.dataset.cls.isWritable
      && (entry.dataset.cls.isBits || entry.dataset.cls.isRegisters)) = true := by
    rcases cls with cls | cls <;> rw [cls] <;> rfl
  rw [buildWrite, he]
  dsimp only
  rw [hentry]
  dsimp only
  rw [if_pos writable, hfield]
  rfl

/-- A field that was cut out is restored where it is placed. -/
theorem Placed.restores {p : Payload} {field field' : Field} {id : DatasetId} {a : Action}
    (placed : Placed entry ch.position (writeOf id entry.dataset) field' a)
    (cut : ch.Cut p field) (within : ch.last ≤ p.bitLength) (same : field'.Same field)
    (fits : field'.Fits ch.cls) (shape : entry.dataset.Shapes p) (cache : entry.cache = some p) :
    a.Restores entry.dataset p := by
  have narrow : ch.cls.width < 2 ^ 16 := by cases ch.cls <;> decide
  cases placed with
  | @bits t fills offset =>
    obtain ⟨-, f, rfl⟩ := fits
    cases same with
    | bits bits =>
      cases cut
      refine .bits rfl rfl (UInt16.toNat_ofNat_of_lt' offset) ?_ within fun i hi => ?_
      · exact (UInt16.toNat_ofNat_of_lt' narrow).symm
      · replace hi : i < ch.cls.width := hi
        rw [bits, BitSeq.bit_range, Channel.last_sub_position, decide_eq_true hi, Bool.true_and]
  | @registers _ address fills haddress =>
    obtain ⟨us, rfl⟩ : ∃ us, p = .registers (wordsBytes us) := by
      have registers : p.isRegisters = true := by
        cases cut with
        | bits _ =>
          cases same
          exact shape.kind.trans (fills _ rfl).1
        | byte _ _ hp _ => exact hp ▸ rfl
        | words _ _ _ hp => exact hp ▸ rfl
      cases p with
      | bits _ => cases registers
      | registers bytes => exact ⟨_, congrArg _ (wordsBytes_wordsOf (shape.even _ rfl)).symm⟩
    rw [Payload.bitLength, length_wordsBytes] at within
    have room : ch.last ≤ 16 * us.length := by omega
    have hend := ch.last_add_div (Channel.width_mod fits fills)
    have data := cut.registersOf room same fits fills
    rw [← cache] at data
    have length : (registersOf entry.cache ch.position field').length
        = 2 * ((ch.cls.width + 15) / 16) := by
      rw [data, length_wordsBytes, List.length_take, List.length_drop]
      omega
    refine .registers rfl haddress rfl ?_ ?_ ?_
    · have small : (ch.cls.width + 15) / 16 < UInt16.size := by
        change _ < 65536
        omega
      change _ = 2 * (UInt16.ofNat _).toNat
      rw [length, Nat.mul_div_cancel_left _ Nat.two_pos, UInt16.toNat_ofNat_of_lt' small]
    · rw [length, length_wordsBytes]
      omega
    · rw [length, slice_wordsBytes]
      exact data

/-- A dataset keeps its entry as long as no message comes in for it. -/
theorem kept_run (built : c.Built) {id : DatasetId} {e e' : DatasetEntry}
    (he : c.datasets[id]? = some e) {ops : List Operation}
    (quiet : ∀ m, .apply m ∈ ops → m.dataset ≠ id) (he' : (c.run ops).datasets[id]? = some e') :
    e' = e := by
  induction ops generalizing c with
  | nil => exact Option.some.inj (he'.symm.trans he)
  | cons o ops ih =>
    have given := built.sound.given he
    have step := (change_perform c o).precedes
    have later := precedes_run (c.perform o).2 ops
    -- the dataset is there at the end, so it is there after the first operation
    rcases hnext : (c.perform o).2.datasets[id]? with _ | next
    · have gone : ((c.perform o).2.run ops).definition? id = none :=
        later.gone (given.trans step.lastId) (by rw [definition?, hnext]; rfl)
      rw [definition?, show ((c.perform o).2.run ops).datasets[id]? = some e' from he'] at gone
      cases gone
    · have same : next = e := by
        cases entered_perform hnext with
        | before hold _ => exact Option.some.inj (hold.symm.trans he)
        | read ho hid _ => exact absurd hid (quiet _ (ho ▸ List.mem_cons_self ..))
        | new _ hid => exact absurd (hid ▸ given) (Nat.not_succ_le_self _)
      exact ih (built.perform o) (same ▸ hnext) (fun m hm => quiet m (List.mem_cons_of_mem _ hm)) he'

/-- **A value that was read is written back as it was.** Let a message come in for a dataset, whatever
came before, and let the host do what it likes but for taking in another one. Then the value that a
writable channel of the dataset reads from the message, unless it is a binary fraction or scaled, is
written where it was read: the write goes past the last address, or it carries the very bits that
the message has there, those of the other byte of a register included. -/
theorem read_is_written_back {c' : Catalog} (built : c.Built) {m : Message} {u : Update}
    {lines : List LogLine} (h : c.apply m = .ok (u, c', lines)) {later : List Operation}
    (quiet : ∀ m', .apply m' ∈ later → m'.dataset ≠ m.dataset) {id : ChannelId} {d : Dataset}
    (hch : (c'.run later).channel? id = some ch) (bound : ch.dataset = m.dataset)
    (hd : (c'.run later).dataset? m.dataset = some d)
    (cls : d.cls = .coil ∨ d.cls = .holdingRegister) (shape : d.Shapes m.payload)
    (writable : ch.cls.isWritable = true) (float : ch.cls ≠ .float32)
    (scale : ch.encoding.scale = none) {v : Value} (hv : ch.read m.payload = .ok v) :
    (c'.run later).buildWrite ⟨id, v⟩ = .error .addressOverflow ∨
      ∃ a, (c'.run later).buildWrite ⟨id, v⟩ = .ok a ∧ a.action = .write ∧ a.repeats = .once ∧
        a.internal = false ∧ a.Restores d m.payload := by
  obtain ⟨e, he, rfl⟩ := Option.map_eq_some_iff.1 hch
  obtain ⟨entry, hentry, rfl⟩ := Option.map_eq_some_iff.1 hd
  obtain ⟨before, hbefore, hdatasets⟩ := (applied_of_apply h).kept
  have kept : c'.datasets[m.dataset]? = some { before with cache := some m.payload } := by
    rw [hdatasets, Std.TreeMap.getElem?_insert_self]
  obtain rfl := kept_run (built.apply h) kept quiet hentry
  obtain ⟨field, hfield, hdecode⟩ := bind_eq_ok hv
  obtain ⟨within, cut⟩ := Channel.extract_eq_ok shape.even hfield
  obtain ⟨field', hencode, same⟩ :=
    Encoding.encode_decode writable float scale (cut.spans within) hdecode
  rw [buildWrite_eq_place he (bound ▸ hentry) cls hencode]
  rcases hplace : place _ e.channel.position _ field' with fault | a
  · exact .inl (congrArg _ (place_eq_error hplace))
  · have placed := place_eq_ok hplace
    have restores := placed.restores cut within same (Encoding.encode_eq_ok hencode) shape rfl
    refine .inr ⟨a, rfl, ?_, ?_, ?_, restores⟩ <;> cases placed <;> rfl

/-! ## A dial

The upper half of the second of two registers. -/

namespace Dial

def dataset : Dataset where
  node := 1
  cls := .holdingRegister
  address := 40
  length := 2

def dial : Channel where
  id := "dial"
  dataset := 1
  index := 3
  cls := .int8

def catalog : Catalog := ((({} : Catalog).addDataset "panel" dataset).2.1.addChannel dial).2.1

theorem catalog_built : catalog.Built := .addChannel _ (.addDataset _ _ .empty)

def reading : Message where
  dataset := 1
  payload := .registers [0x01, 0x02, 0xF0, 0x55]

/-- A dial at minus sixteen is written back with the byte below it. -/
theorem dial_is_written_back : ∃ u c' lines a, catalog.apply reading = .ok (u, c', lines) ∧
    c'.buildWrite ⟨"dial", .int (-16)⟩ = .ok a ∧ a.Restores dataset reading.payload ∧
      a.payload = some (.registers [0xF0, 0x55]) := by
  have written := read_is_written_back catalog_built (m := reading) rfl
    (fun _ h => absurd h List.not_mem_nil) (show channel? _ "dial" = some dial from rfl) rfl
    (show dataset? _ 1 = some dataset from rfl) (.inr rfl) ⟨rfl, rfl⟩ rfl (by decide) rfl
    (v := .int (-16)) rfl
  rcases written with overflow | ⟨a, ha, -, -, -, restores⟩
  · cases overflow
  · refine ⟨_, _, _, a, rfl, ha, restores, ?_⟩
    cases ha
    rfl

end Dial

end Catalog

end BusMaster
