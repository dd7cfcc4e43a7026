import BusMaster.Proofs.Query.Grammar

/-!
# The responses that an operation accepts

A query takes from a response to its request what a grammar says (`Query.Takes`). That is one lemma
for each function of both layers, and none of them looks at the bytes again: they come down to the
reading of the function, after the checks that come before the request. An operation that asks is
the session of one such query, so it ends well exactly on the responses of its grammar, whoever
carries its request (`Operation.run_eq_ok_iff`).

On a transceiver whose framing delimits responses these are the delimited ones. No operation finds
one of them too short or going on behind its end, and a result was read from the whole of it
(`operation_finds_no_misshapen_body`).
-/

namespace BusMaster

/-! ## Queries -/

/-- from a response to its request the query takes what the grammar says -/
def Query.Takes {α : Type} (e : Except RequestFault (Query α)) (G : Grammar α) : Prop :=
  ∀ q, e = .ok q → ∃ unit function data, q.request = unit :: function :: data ∧
    ∀ body a, q.accept (unit :: function :: body) = .ok a ↔
      G q.request (unit :: function :: body) a

namespace Query.Takes

variable {α β : Type} {G : Grammar α}

theorem make {unit : UnitId} {f : FunctionCode} {data : Bytes}
    {accept : Bytes → Bytes → Except RequestFault α}
    (h : ∀ body a, accept (unit.value :: f.wire :: data) (unit.value :: f.wire :: body) = .ok a ↔
      G (unit.value :: f.wire :: data) (unit.value :: f.wire :: body) a) :
    Takes (Query.make unit f data accept) G := by
  intro q hq
  obtain rfl := Query.make_eq_ok hq
  exact ⟨unit.value, f.wire, data, rfl, h⟩

theorem check {e : Except ConfigFault β} {f : β → Except RequestFault (Query α)}
    (h : ∀ b, e = .ok b → Takes (f b) G) : Takes (ofConfig e >>= f) G := by
  intro q hq
  obtain ⟨b, hb, hq⟩ := bind_eq_ok hq
  exact h b (ofConfig_eq_ok hb) q hq

theorem map {e : Except RequestFault (Query α)} (h : Takes e G) (g : α → β) :
    Takes (e >>= fun q => .ok (q.map g)) fun request adu b => ∃ a, G request adu a ∧ b = g a := by
  intro q' hq'
  obtain ⟨q, hq, hq'⟩ := bind_eq_ok hq'
  obtain rfl := Except.ok.inj hq'
  obtain ⟨unit, function, data, hrequest, accepts⟩ := h q hq
  refine ⟨unit, function, data, hrequest, fun body b => ?_⟩
  constructor
  · intro hb
    change (q.accept _).map g = _ at hb
    rcases haccept : q.accept (unit :: function :: body) with fault | a
    · rw [haccept] at hb
      cases hb
    · rw [haccept] at hb
      exact ⟨a, (accepts body a).1 haccept, (Except.ok.inj hb).symm⟩
  · rintro ⟨a, ha, rfl⟩
    change (q.accept _).map g = _
    rw [(accepts body a).2 ha]
    rfl

theorem congr {e : Except RequestFault (Query α)} {G' : Grammar α} (h : Takes e G)
    (same : ∀ request adu a, G request adu a ↔ G' request adu a) : Takes e G' := by
  intro q hq
  obtain ⟨unit, function, data, hrequest, accepts⟩ := h q hq
  exact ⟨unit, function, data, hrequest, fun body a => (accepts body a).trans (same ..)⟩

end Query.Takes

namespace Standard

open Grammar
open Query (Takes checkEcho_eq_ok_iff countedData_eq_ok_iff)

variable (unit : UnitId) (r : AddressRange)

theorem takes_readBits (f : FunctionCode) :
    Takes (readBits f unit r) (Bits (bytesForBits r.count.toNat) 0 r.count.toNat) := by
  refine .check fun start hstart => .make fun body bits => ?_
  obtain ⟨-, -, few, -⟩ := AddressRange.validate_eq_ok hstart
  have small : bytesForBits r.count.toNat < 256 := by
    rw [show maxReadBits.toNat = 2000 from rfl] at few
    rw [bytesForBits]
    omega
  simp only [Bits, Nat.zero_add]
  constructor
  · intro h
    obtain ⟨data, hdata, h⟩ := bind_eq_ok h
    obtain ⟨hbody, hlength⟩ := (countedData_eq_ok_iff small).1 hdata
    refine ⟨data, counted_iff.2 ⟨hbody, hlength⟩, (BitSeq.ofBytes_eq_ok_iff hlength).1 ?_⟩
    split at h
    · rename_i hbits
      rw [hbits, Except.ok.inj h]
    · cases h
  · rintro ⟨data, counted, hbits⟩
    obtain ⟨hbody, hlength⟩ := counted_iff.1 counted
    rw [(countedData_eq_ok_iff small).2 ⟨hbody, hlength⟩]
    refine (pure_bind data _).trans ?_
    rw [(BitSeq.ofBytes_eq_ok_iff hlength).2 hbits]
    rfl

theorem takes_readRegisters (f : FunctionCode) :
    Takes (readRegisters f unit r) (Counted (2 * r.count.toNat)) := by
  refine .check fun start hstart => .make fun body data => ?_
  obtain ⟨-, -, few, -⟩ := AddressRange.validate_eq_ok hstart
  rw [show maxReadRegisters.toNat = 125 from rfl] at few
  rw [counted_iff, countedData_eq_ok_iff (by omega)]

theorem takes_writeCoil (value : Bool) : Takes (writeCoil unit r value) Same :=
  .check fun start _ => .make fun body _ => acceptCoil_eq_ok_iff (by cases value <;> simp)

theorem takes_writeCoils (bits : BitSeq) : Takes (writeCoils unit r bits) (Echo 6) :=
  .check fun _ _ => .make fun _ _ => checkEcho_eq_ok_iff

theorem takes_writeRegister (value : UInt16) : Takes (writeRegister unit r value) Same :=
  .check fun _ _ => .make fun _ _ => by rw [checkEcho_eq_ok_iff, List.take_length, Same]

theorem takes_writeRegisters (data : Bytes) : Takes (writeRegisters unit r data) (Echo 6) := by
  rw [writeRegisters]
  split
  · intro q hq
    cases hq
  · exact .check fun _ _ => .make fun _ _ => checkEcho_eq_ok_iff

theorem takes_exceptionStatus :
    Takes (exceptionStatus unit) (Written (fun b => [b]) fun _ => True) :=
  .make fun _ _ => by rw [written_iff, acceptByte_eq_ok_iff, and_true]

theorem takes_commEventCounter :
    Takes (commEventCounter unit) (Written CommEventCounter.bytes fun _ => True) := by
  refine .make fun body counter => ?_
  rw [written_iff, and_true]
  constructor
  · intro h
    obtain ⟨⟨status, eventCount⟩, hwords, h⟩ := bind_eq_ok h
    obtain rfl := Except.ok.inj h
    exact acceptWords_eq_ok_iff.1 hwords
  · rintro rfl
    dsimp only
    rw [CommEventCounter.bytes, acceptWords_eq_ok_iff.2 rfl]
    rfl

theorem takes_commEventLog :
    Takes (commEventLog unit) (Written CommEventLog.bytes CommEventLog.Writable) :=
  .make fun _ _ => by rw [written_iff, acceptLog_eq_ok_iff]

theorem takes_serverId :
    Takes (serverId unit) (Written (fun data => UInt8.ofNat data.length :: data)
      fun data => data.length < 256) := by
  refine .make fun body data => ?_
  rw [written_iff]
  rcases body with _ | ⟨count, rest⟩
  · simp [Query.countedData]
  change Query.countedData count.toNat _ = _ ↔ _
  rw [countedData_eq_ok_iff count.toNat_lt]
  constructor
  · rintro ⟨hbody, hlength⟩
    exact ⟨hlength ▸ hbody, hlength ▸ count.toNat_lt⟩
  · rintro ⟨hbody, small⟩
    have hcount := (byte_eq_ofNat_iff small).1 (List.cons.inj hbody).1
    exact ⟨hcount.symm ▸ hbody, hcount.symm⟩

theorem takes_deviceIdentification (object : UInt8) :
    Takes (deviceIdentification unit object) Identification :=
  .make fun _ _ => acceptObjects_eq_ok_iff

end Standard

namespace Extended

open Grammar
open Query (Takes checkEcho_eq_ok_iff countedData_eq_ok_iff)

variable (unit : UnitId)

theorem takes_readFromIndex (address : PackedAddress) (count : UInt16) :
    Takes (readFromIndex unit address count) fun request adu registers =>
      Counted (2 * count.toNat) request adu (swapWords registers) := by
  refine .check fun _ hcount => .make fun body registers => ?_
  obtain ⟨-, few⟩ := checkCount_eq_ok hcount
  rw [show maxReadRegisters.toNat = 125 from rfl] at few
  rw [counted_iff]
  constructor
  · intro h
    obtain ⟨data, hdata, h⟩ := bind_eq_ok h
    rw [← Except.ok.inj h, swapWords_swapWords]
    exact (countedData_eq_ok_iff (by omega)).1 hdata
  · intro h
    rw [(countedData_eq_ok_iff (by omega)).2 h]
    exact congrArg Except.ok (swapWords_swapWords registers)

theorem takes_writeToIndex (address : PackedAddress) (registers : Bytes) :
    Takes (writeToIndex unit address registers) (Echo 7) := by
  rw [writeToIndex]
  split
  · intro q hq
    cases hq
  · exact .check fun _ _ => .make fun _ _ => checkEcho_eq_ok_iff

theorem takes_writeMaskedToIndex (address : PackedAddress) (pairs : List (UInt16 × UInt16)) :
    Takes (writeMaskedToIndex unit address pairs) (Echo 7) :=
  .check fun _ _ => .make fun _ _ => checkEcho_eq_ok_iff

variable (r : AddressRange)

theorem takes_readBits : Takes (readBits unit r)
    (Bits (2 * ((r.offset.toNat % 16 + r.count.toNat + 15) / 16)) (r.offset.toNat % 16)
      r.count.toNat) := by
  refine .check fun _ _ => .check fun span hspan => ?_
  obtain ⟨-, -, hfirst, hregisters, -⟩ := BitSpan.cover_eq_ok hspan
  refine ((takes_readFromIndex unit span.start span.registers).map _).congr
    fun request adu bits => ?_
  rw [hregisters, hfirst]
  constructor
  · rintro ⟨registers, counted, rfl⟩
    refine ⟨swapWords registers, counted, BitSeq.range_ofRegisters ?_⟩
    rw [← length_swapWords, counted.2]
    omega
  · rintro ⟨data, counted, rfl⟩
    refine ⟨swapWords data, by rwa [swapWords_swapWords], ?_⟩
    rw [BitSeq.range_ofRegisters, swapWords_swapWords]
    rw [length_swapWords, counted.2]
    omega

theorem takes_readRegisters : Takes (readRegisters unit r) fun request adu registers =>
    Counted (2 * r.count.toNat) request adu (swapWords registers) :=
  .check fun span _ => takes_readFromIndex unit span.start r.count

theorem takes_writeBits (bits : BitSeq) : Takes (writeBits unit r bits) (Echo 7) :=
  .check fun span _ => takes_writeMaskedToIndex unit span.start (span.maskedPairs bits)

theorem takes_writeRegisters (data : Bytes) : Takes (writeRegisters unit r data) (Echo 7) :=
  .check fun span _ => takes_writeToIndex unit span.start data

end Extended

/-! ## Operations -/

namespace Grammar

/-- bits of a range: a standard device sends them alone, an extended one the registers they lie in,
low byte first -/
def ofBits (r : AddressRange) : Protocol → Grammar BitSeq
  | .standard => Bits (bytesForBits r.count.toNat) 0 r.count.toNat
  | .vendor => Bits (2 * ((r.offset.toNat % 16 + r.count.toNat + 15) / 16)) (r.offset.toNat % 16)
      r.count.toNat

/-- registers, from an extended device low byte first -/
def ofRegisters (count : UInt16) : Protocol → Grammar Bytes
  | .standard => Counted (2 * count.toNat)
  | .vendor => fun request adu registers =>
      Counted (2 * count.toNat) request adu (swapWords registers)

/-- the echo of a write, with the grammar of the standard one -/
def ofWrite (standard : Grammar Unit) : Protocol → Grammar Unit
  | .standard => standard
  | .vendor => Echo 7

end Grammar

namespace Operation

/-- the grammar of the responses to the one request of an operation -/
def grammar : {α : Type} → Operation α → Grammar α
  | _, readCoils p _ r => .ofBits r p
  | _, readDiscreteInputs p _ r => .ofBits r p
  | _, readHoldingRegisters p _ r => .ofRegisters r.count p
  | _, readInputRegisters p _ r => .ofRegisters r.count p
  | _, writeCoil p _ _ _ => .ofWrite .Same p
  | _, writeCoils p _ _ _ => .ofWrite (.Echo 6) p
  | _, writeRegister p _ _ _ => .ofWrite .Same p
  | _, writeRegisters p _ _ _ => .ofWrite (.Echo 6) p
  | _, exceptionStatus _ => .Written (fun b => [b]) fun _ => True
  | _, commEventCounter _ => .Written CommEventCounter.bytes fun _ => True
  | _, commEventLog _ => .Written CommEventLog.bytes CommEventLog.Writable
  | _, serverId _ => .Written (fun data => UInt8.ofNat data.length :: data)
      fun data => data.length < 256
  | _, deviceIdentification _ _ => .Identification
  | _, readFromIndex _ _ count => .ofRegisters count .vendor
  | _, writeToIndex _ _ _ => .Echo 7
  | _, writeMaskedToIndex _ _ _ => .Echo 7
  | _, enumerate _ _ => fun _ _ _ => False

/-- An operation that asks is the session of one query, which takes what its grammar says. -/
theorem exists_takes {α : Type} (o : Operation α) {request : Bytes}
    {next : Except RequestFault Bytes → Session α} (asks : o.session = .ask request next) :
    ∃ e, o.session = .ofQuery e ∧ Query.Takes e o.grammar := by
  cases o with
  | readCoils p unit r =>
    cases p with
    | standard => exact ⟨_, rfl, Standard.takes_readBits unit r .readCoils⟩
    | vendor => exact ⟨_, rfl, Extended.takes_readBits unit r⟩
  | readDiscreteInputs p unit r =>
    cases p with
    | standard => exact ⟨_, rfl, Standard.takes_readBits unit r .readDiscreteInputs⟩
    | vendor => exact ⟨_, rfl, Extended.takes_readBits unit r⟩
  | readHoldingRegisters p unit r =>
    cases p with
    | standard => exact ⟨_, rfl, Standard.takes_readRegisters unit r .readHoldingRegisters⟩
    | vendor => exact ⟨_, rfl, Extended.takes_readRegisters unit r⟩
  | readInputRegisters p unit r =>
    cases p with
    | standard => exact ⟨_, rfl, Standard.takes_readRegisters unit r .readInputRegisters⟩
    | vendor => exact ⟨_, rfl, Extended.takes_readRegisters unit r⟩
  | writeCoil p unit r value =>
    cases p with
    | standard => exact ⟨_, rfl, Standard.takes_writeCoil unit r value⟩
    | vendor => exact ⟨_, rfl, Extended.takes_writeBits unit r _⟩
  | writeCoils p unit r bits =>
    cases p with
    | standard => exact ⟨_, rfl, Standard.takes_writeCoils unit r bits⟩
    | vendor => exact ⟨_, rfl, Extended.takes_writeBits unit r bits⟩
  | writeRegister p unit r value =>
    cases p with
    | standard => exact ⟨_, rfl, Standard.takes_writeRegister unit r value⟩
    | vendor => exact ⟨_, rfl, Extended.takes_writeRegisters unit r _⟩
  | writeRegisters p unit r data =>
    cases p with
    | standard => exact ⟨_, rfl, Standard.takes_writeRegisters unit r data⟩
    | vendor => exact ⟨_, rfl, Extended.takes_writeRegisters unit r data⟩
  | exceptionStatus unit => exact ⟨_, rfl, Standard.takes_exceptionStatus unit⟩
  | commEventCounter unit => exact ⟨_, rfl, Standard.takes_commEventCounter unit⟩
  | commEventLog unit => exact ⟨_, rfl, Standard.takes_commEventLog unit⟩
  | serverId unit => exact ⟨_, rfl, Standard.takes_serverId unit⟩
  | deviceIdentification unit object =>
    exact ⟨_, rfl, Standard.takes_deviceIdentification unit object⟩
  | readFromIndex unit address count =>
    exact ⟨_, rfl, Extended.takes_readFromIndex unit address count⟩
  | writeToIndex unit address registers =>
    exact ⟨_, rfl, Extended.takes_writeToIndex unit address registers⟩
  | writeMaskedToIndex unit address pairs =>
    exact ⟨_, rfl, Extended.takes_writeMaskedToIndex unit address pairs⟩
  | enumerate p first =>
    cases p with
    | standard => cases asks
    | vendor =>
      -- the first thing is a reset, which nobody answers
      change Extended.enumerate first = _ at asks
      rw [Extended.enumerate] at asks
      split at asks <;> cases asks

variable {α σ : Type} {o : Operation α} {request : Bytes}
  {next : Except RequestFault Bytes → Session α}

/-- The query of an operation that asks. -/
theorem query_of_asks (asks : o.session = .ask request next) :
    ∃ q : Query α, o.session = .ofQuery (.ok q) ∧ q.request = request ∧
      ∃ unit function data, request = unit :: function :: data ∧
        ∀ body a, q.accept (unit :: function :: body) = .ok a ↔
          o.grammar request (unit :: function :: body) a := by
  obtain ⟨e, hsession, takes⟩ := o.exists_takes asks
  rw [hsession] at asks
  cases e with
  | error fault => cases asks
  | ok q =>
    obtain ⟨rfl, -⟩ := Session.ask.inj asks
    exact ⟨q, hsession, rfl, takes q rfl⟩

/-- An operation that asks ends well only if it is answered. -/
theorem answered_of_run (asks : o.session = .ask request next) {c : Carrier σ} {s : σ} {a : α}
    (ended : (o.session.run c s).1 = .ok a) : ∃ adu, (c.ask s request).1 = .ok adu := by
  obtain ⟨q, hsession, rfl, -⟩ := query_of_asks asks
  rcases hask : c.ask s q.request with ⟨fault | adu, s'⟩
  · rw [hsession, Session.ofQuery, Session.run, hask] at ended
    cases ended
  · exact ⟨adu, rfl⟩

/-- An operation ends well on the responses of its grammar, and with their results. -/
theorem run_eq_ok_iff (asks : o.session = .ask request next) {c : Carrier σ} {s : σ} {adu : Bytes}
    (answered : (c.ask s request).1 = .ok adu) (addressed : adu.take 2 = request.take 2) (a : α) :
    (o.session.run c s).1 = .ok a ↔ o.grammar request adu a := by
  obtain ⟨q, hsession, rfl, unit, function, data, hrequest, accepts⟩ := query_of_asks asks
  -- the response has the head of the request, so the reading of the query is about its body
  have hadu : adu = unit :: function :: adu.drop 2 := by
    rw [hrequest] at addressed
    conv_lhs => rw [← List.take_append_drop 2 adu, addressed]
    rfl
  rcases hask : c.ask s q.request with ⟨result, s'⟩
  rw [hask] at answered
  obtain rfl : result = .ok adu := answered
  have hrun : (o.session.run c s).1 = q.accept adu := by
    rw [hsession, Session.ofQuery, Session.run, hask]
    exact Session.run_settle ..
  rw [hrun, hadu]
  exact accepts _ a

end Operation

/-- **An operation accepts the responses of its grammar, with their results, and no others.** Of the
bits that a standard read brings each is the digit in its place, and what stands behind the last one
makes no difference. -/
theorem operation_accepts_its_grammar :
    (∀ (α σ : Type) (o : Operation α) (request : Bytes)
        (next : Except RequestFault Bytes → Session α) (c : Carrier σ) (s : σ) (adu : Bytes),
      o.session = .ask request next → (c.ask s request).1 = .ok adu →
      adu.take 2 = request.take 2 →
      (∀ a, (o.session.run c s).1 = .ok a ↔ o.grammar request adu a) ∧
        ((¬∃ a, o.grammar request adu a) → ∃ fault, (o.session.run c s).1 = .error fault)) ∧
    ∀ (unit : UnitId) (r : AddressRange) (o : Operation BitSeq) (request : Bytes)
        (next : Except RequestFault Bytes → Session BitSeq),
      o = .readCoils .standard unit r ∨ o = .readDiscreteInputs .standard unit r →
      o.session = .ask request next →
      ∀ adu adu' bits bits', o.grammar request adu bits → o.grammar request adu' bits' →
        bits.size = r.count.toNat ∧
        (∀ i < r.count.toNat,
          bits.bit i = ((adu.drop 3).getD (i / 8) 0).toNat.testBit (i % 8)) ∧
        ((∀ i < r.count.toNat, ((adu.drop 3).getD (i / 8) 0).toNat.testBit (i % 8)
            = ((adu'.drop 3).getD (i / 8) 0).toNat.testBit (i % 8)) →
          (bits == bits') = true) := by
  refine ⟨?_, ?_⟩
  · intro α σ o request next c s adu asks answered addressed
    have ends := Operation.run_eq_ok_iff asks answered addressed
    refine ⟨ends, fun none => ?_⟩
    rcases hresult : (o.session.run c s).1 with fault | a
    · exact ⟨fault, rfl⟩
    · exact absurd ⟨a, (ends a).1 hresult⟩ none
  · intro unit r o request next reads asks adu adu' bits bits' h h'
    obtain ⟨-, -, -, _, _, _, rfl, -⟩ := Operation.query_of_asks asks
    have standard : o.grammar = .Bits (bytesForBits r.count.toNat) 0 r.count.toNat := by
      rcases reads with rfl | rfl <;> rfl
    rw [standard] at h h'
    obtain ⟨data, counted, rfl⟩ := h
    obtain ⟨data', counted', rfl⟩ := h'
    rw [counted.drop (by simp), counted'.drop (by simp)]
    simp only [Nat.zero_add]
    refine ⟨rfl, fun i hi => ?_, fun agree => ?_⟩
    · rw [BitSeq.bit_ofFn, decide_eq_true hi, Bool.true_and]
    · rw [BitSeq.ofFn_congr agree]
      exact (BitSeq.beq_iff_toList _ _).2 rfl

/-- the far end of a link that gives one answer to everything -/
def Carrier.answering (adu : Bytes) : Carrier Unit where
  ask s _ := (.ok adu, s)
  tell s _ := (.ok (), s)
  note s _ := s

/-- Two objects, the second without a value, and ten bits with and without something behind them;
and an object that is cut short. -/
theorem operation_accepts_its_grammar_objects_and_bits :
    let identification : Operation (List DeviceObject) := .deviceIdentification ⟨17⟩ 0
    let inputs : Operation BitSeq := .readDiscreteInputs .standard ⟨17⟩ ⟨196, 0, 10⟩
    (identification.session.run (.answering
        [17, 0x2B, 0x0E, 4, 0x81, 0xFF, 3, 2, 0, 2, 0x41, 0x42, 1, 0]) ()).1
      = .ok [⟨0, [0x41, 0x42]⟩, ⟨1, []⟩] ∧
    (∃ fault, (identification.session.run (.answering
        [17, 0x2B, 0x0E, 4, 0x81, 0xFF, 3, 1, 0, 2, 0x41]) ()).1 = .error fault) ∧
    ∃ bits bits', (inputs.session.run (.answering [17, 2, 2, 0xAC, 0x01]) ()).1 = .ok bits ∧
      (inputs.session.run (.answering [17, 2, 2, 0xAC, 0xFD]) ()).1 = .ok bits' ∧
      (bits == bits') = true := by
  obtain ⟨accepts, digits⟩ := operation_accepts_its_grammar
  intro identification inputs
  have objects : ∀ adu : Bytes, adu.take 2 = [17, 0x2B] → _ := fun adu addressed =>
    accepts _ _ identification [17, 0x2B, 0x0E, 4, 0] _ (.answering adu) () adu rfl rfl addressed
  have bits : ∀ adu : Bytes, adu.take 2 = [17, 2] → _ := fun adu addressed =>
    accepts _ _ inputs [17, 2, 0, 196, 0, 10] _ (.answering adu) () adu rfl rfl addressed
  have plain : inputs.grammar [17, 2, 0, 196, 0, 10] [17, 2, 2, 0xAC, 0x01] _ :=
    ⟨[0xAC, 0x01], ⟨rfl, rfl⟩, rfl⟩
  have padded : inputs.grammar [17, 2, 0, 196, 0, 10] [17, 2, 2, 0xAC, 0xFD] _ :=
    ⟨[0xAC, 0xFD], ⟨rfl, rfl⟩, rfl⟩
  refine ⟨((objects _ rfl).1 _).2 ⟨4, 0x81, 0xFF, 3, rfl, by decide, by decide⟩,
    (objects _ rfl).2 ?_, _, _, ((bits _ rfl).1 _).2 plain, ((bits _ rfl).1 _).2 padded,
    (digits ⟨17⟩ ⟨196, 0, 10⟩ inputs _ _ (.inr rfl) rfl _ _ _ _ plain padded).2.2 (by decide)⟩
  rintro ⟨found, h⟩
  have read := Standard.acceptObjects_eq_ok_iff.2 h
  have cut : Standard.acceptObjects [17, 0x2B, 0x0E, 4, 0x81, 0xFF, 3, 1, 0, 2, 0x41]
      = .error (.body .tooShort) := rfl
  cases cut.symm.trans read

/-- **No operation finds the body of a response too short or going on behind its end**, whatever the
device sends, where the framing delimits responses. Of its length an operation complains only when
the byte count that the response gives is another than the one asked for. And what an operation that
asks hands out was read from all the bytes that the framing delimited: with its grammar they are the
head of the request, the result, and nothing else. -/
theorem operation_finds_no_misshapen_body {α : Type} (o : Operation α) (t : Transceiver)
    (delimited : t.settings.framing ≠ .ascii) :
    (o.session.run Transceiver.carrier t).1 ≠ .error (.body .tooShort) ∧
      (o.session.run Transceiver.carrier t).1 ≠ .error (.body .trailingBytes) ∧
      (o.counts = false → ∀ expected actual,
        (o.session.run Transceiver.carrier t).1 ≠ .error (.length expected actual)) ∧
      ∀ request next a, o.session = .ask request next →
        (o.session.run Transceiver.carrier t).1 = .ok a →
        ∃ adu, (t.transact request).1 = .ok adu ∧
          responseLength adu = .ok (.exact adu.length) ∧ o.grammar request adu a := by
  have shapely := o.fits.run delimited
  refine ⟨fun h => ?_, fun h => ?_, fun uncounted expected actual h => ?_,
    fun request next a asks ended => ?_⟩
  · rw [h] at shapely
    exact shapely trivial
  · rw [h] at shapely
    exact shapely trivial
  · rw [h] at shapely
    exact shapely uncounted
  · obtain ⟨adu, answered⟩ := Operation.answered_of_run asks ended
    have regular := Transceiver.regular_of_transact delimited answered
    exact ⟨adu, answered, regular.whole,
      (Operation.run_eq_ok_iff asks answered regular.addressed a).1 ended⟩

/-! ## A nameplate of two objects

A unit gives its name and its version, one byte and two bytes long.
-/

namespace Nameplate

/-- the response of unit 17, in the frame of the first exchange -/
def response : Bytes :=
  [0, 1, 0, 0, 0, 15, 17, 0x2B, 0x0E, 4, 1, 0, 0, 2, 0, 1, 65, 1, 2, 66, 67]

def transceiver : Transceiver where
  settings := { framing := .bridge, endpoint := .tcp "bus" 502 }
  line := some { writes := [.taken [.bytes response]] }
  state := .connected

/-- ask unit 17 for its identification -/
def operation : Operation (List DeviceObject) := .deviceIdentification ⟨17⟩ 0

/-- Both objects are read, from the whole response, and nothing is left behind them. -/
theorem nameplate_is_read :
    transceiver.settings.framing ≠ .ascii ∧
      (operation.session.run Transceiver.carrier transceiver).1 =
        .ok [⟨0, [65]⟩, ⟨1, [66, 67]⟩] ∧
      (operation.session.run Transceiver.carrier transceiver).1 ≠ .error (.body .trailingBytes) ∧
      ∃ adu, responseLength adu = .ok (.exact adu.length) ∧
        operation.grammar [17, 0x2B, 0x0E, 4, 0] adu [⟨0, [65]⟩, ⟨1, [66, 67]⟩] := by
  have ended : (operation.session.run Transceiver.carrier transceiver).1 =
      .ok [⟨0, [65]⟩, ⟨1, [66, 67]⟩] := by decide +kernel
  obtain ⟨-, whole, -, read⟩ :=
    operation_finds_no_misshapen_body operation transceiver (by decide)
  obtain ⟨adu, -, delimited, grammar⟩ := read _ _ _ rfl ended
  exact ⟨by decide, ended, whole, adu, delimited, grammar⟩

end Nameplate

end BusMaster
