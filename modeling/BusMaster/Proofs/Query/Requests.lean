import BusMaster.Proofs.Query.Transfer

/-!
# What operations hand over

The requests that a session hands to its carrier are read off its run (`Session.handed`), or said of
all its runs at once (`Session.Sends`). An operation that moves data is the session of one query, so
it hands over the request that its function makes of the transfer, or nothing
(`operation_hands_over_well_formed_requests`).
-/

namespace BusMaster

/-! ## What is handed over -/

namespace Session

variable {α β σ : Type} {P : Bytes → Prop}

/-- the requests that a run hands to its carrier, in order -/
def handed (c : Carrier σ) : Session α → σ → List Bytes
  | .done _, _ => []
  | .ask request next, s =>
    let (result, s) := c.ask s request
    request :: (next result).handed c s
  | .tell request next, s =>
    let (result, s) := c.tell s request
    request :: (next result).handed c s
  | .note line next, s => next.handed c (c.note s line)

theorem handed_settle (c : Carrier σ) (q : Query α) (response : Bytes) (s : σ) :
    (settle q response).handed c s = [] := by
  rw [settle]
  split <;> rfl

/-- A query that was made hands over its request. -/
theorem handed_ofQuery (c : Carrier σ) (q : Query α) (s : σ) :
    (ofQuery (.ok q)).handed c s = [q.request] := by
  rw [ofQuery, handed]
  dsimp only
  rcases (c.ask s q.request).1 with fault | response
  · rfl
  · exact congrArg (q.request :: ·) (handed_settle ..)

/-- all requests of the session are such, whatever is brought for them -/
def Sends (P : Bytes → Prop) : Session α → Prop
  | .done _ => True
  | .ask request next => P request ∧ ∀ result, (next result).Sends P
  | .tell request next => P request ∧ ∀ result, (next result).Sends P
  | .note _ next => next.Sends P

theorem Sends.handed {session : Session α} (h : session.Sends P) (c : Carrier σ) (s : σ) :
    ∀ request ∈ session.handed c s, P request := by
  induction session generalizing s with
  | done result => exact fun _ hmem => nomatch hmem
  | ask request next ih => exact List.forall_mem_cons.2 ⟨h.1, ih _ (h.2 _) _⟩
  | tell request next ih => exact List.forall_mem_cons.2 ⟨h.1, ih _ (h.2 _) _⟩
  | note line next ih => exact ih h _

theorem Sends.bind {session : Session β} (h : session.Sends P) {f : β → Session α}
    (next : ∀ b, (f b).Sends P) : (session.bind f).Sends P := by
  induction session with
  | done result =>
    cases result with
    | ok b => exact next b
    | error fault => exact trivial
  | ask request follow ih => exact ⟨h.1, fun result => ih result (h.2 result)⟩
  | tell request follow ih => exact ⟨h.1, fun result => ih result (h.2 result)⟩
  | note line follow ih => exact ih h

theorem sends_settle (q : Query α) (response : Bytes) : (settle q response).Sends P := by
  rw [settle]
  split <;> exact trivial

theorem sends_ofQuery {e : Except RequestFault (Query α)} (h : ∀ q, e = .ok q → P q.request) :
    (ofQuery e).Sends P := by
  cases e with
  | error fault => exact trivial
  | ok q =>
    refine ⟨h q rfl, fun result => ?_⟩
    cases result with
    | error fault => exact trivial
    | ok response => exact sends_settle ..

end Session

/-! ## The transfers of operations -/

namespace Transfer

variable {α σ : Type} {x : Transfer} {e : Except RequestFault (Query α)}

/-- What is not refused is handed over, and nothing else is. -/
theorem Yields.refused_or_handed (h : x.Yields e) (c : Carrier σ) (s : σ) :
    ((Session.ofQuery e).handed c s = [] ∧ ∃ cause, x.RefusedFor cause ∧
      (Session.ofQuery e).run c s = (.error (.configuration cause), s)) ∨
    x.Allowed ∧ ∃ request fields, (Session.ofQuery e).handed c s = [request] ∧
      request.length ≤ maxAdu ∧ RequestFields.of? request = some fields ∧ x.Told fields := by
  cases e with
  | error fault =>
    obtain ⟨cause, rfl, refused⟩ := h
    exact .inl ⟨rfl, cause, refused, rfl⟩
  | ok q =>
    obtain ⟨allowed, fits, fields, hfields, told⟩ := h
    exact .inr ⟨allowed, q.request, fields, Session.handed_ofQuery .., fits, hfields, told⟩

end Transfer

namespace Operation

variable {α : Type}

/-- what an operation that moves data is asked for; diagnostic functions and the enumeration move
none -/
def transfer? : Operation α → Option Transfer
  | readCoils .standard unit r => some (.standard unit .readCoils r r.count.toNat maxReadBits)
  | readCoils .vendor unit r =>
    some (.extended unit .readFromIndex r (r.spanned r.count.toNat) maxReadRegisters)
  | readDiscreteInputs .standard unit r =>
    some (.standard unit .readDiscreteInputs r r.count.toNat maxReadBits)
  | readDiscreteInputs .vendor unit r =>
    some (.extended unit .readFromIndex r (r.spanned r.count.toNat) maxReadRegisters)
  | readHoldingRegisters .standard unit r =>
    some (.standard unit .readHoldingRegisters r r.count.toNat maxReadRegisters)
  | readHoldingRegisters .vendor unit r =>
    some (.extended unit .readFromIndex r r.count.toNat maxReadRegisters)
  | readInputRegisters .standard unit r =>
    some (.standard unit .readInputRegisters r r.count.toNat maxReadRegisters)
  | readInputRegisters .vendor unit r =>
    some (.extended unit .readFromIndex r r.count.toNat maxReadRegisters)
  | writeCoil .standard unit r _ => some (.standard unit .writeSingleCoil r 1 1)
  | writeCoil .vendor unit r _ =>
    some (.extended unit .writeMaskedToIndex r (r.spanned 1) maxMaskedRegisters)
  | writeCoils .standard unit r bits =>
    some (.standard unit .writeMultipleCoils r bits.size maxWriteBits)
  | writeCoils .vendor unit r bits =>
    some (.extended unit .writeMaskedToIndex r (r.spanned bits.size) maxMaskedRegisters)
  | writeRegister .standard unit r _ => some (.standard unit .writeSingleRegister r 1 1)
  | writeRegister .vendor unit r _ => some (.extended unit .writeToIndex r 1 maxWriteRegisters)
  | writeRegisters .standard unit r data =>
    some (.standard unit .writeMultipleRegisters r (data.length / 2) maxWriteRegisters
      (data.length % 2 = 0))
  | writeRegisters .vendor unit r data =>
    some (.extended unit .writeToIndex r (data.length / 2) maxWriteRegisters
      (data.length % 2 = 0))
  | readFromIndex unit address count =>
    some (.indexed unit .readFromIndex address count.toNat maxReadRegisters)
  | writeToIndex unit address registers =>
    some (.indexed unit .writeToIndex address (registers.length / 2) maxWriteRegisters
      (registers.length % 2 = 0))
  | writeMaskedToIndex unit address pairs =>
    some (.indexed unit .writeMaskedToIndex address pairs.length maxMaskedRegisters)
  | _ => none

/-- the bits that are to be written are held in their bytes -/
def Held : Operation α → Prop
  | writeCoils _ _ _ bits => bits.size ≤ bits.capacity
  | _ => True

/-- An operation that moves data is the session of one query, which its transfer yields. -/
theorem exists_query {o : Operation α} (held : o.Held) {x : Transfer} (h : o.transfer? = some x) :
    ∃ e : Except RequestFault (Query α), o.session = .ofQuery e ∧ x.Yields e := by
  cases o with
  | readCoils p unit r =>
    cases p <;> obtain rfl := Option.some.inj h
    · exact ⟨_, rfl, Standard.yields_readBits unit r (.inl rfl)⟩
    · exact ⟨_, rfl, Extended.yields_readBits unit r⟩
  | readDiscreteInputs p unit r =>
    cases p <;> obtain rfl := Option.some.inj h
    · exact ⟨_, rfl, Standard.yields_readBits unit r (.inr rfl)⟩
    · exact ⟨_, rfl, Extended.yields_readBits unit r⟩
  | readHoldingRegisters p unit r =>
    cases p <;> obtain rfl := Option.some.inj h
    · exact ⟨_, rfl, Standard.yields_readRegisters unit r (.inl rfl)⟩
    · exact ⟨_, rfl, Extended.yields_readRegisters unit r⟩
  | readInputRegisters p unit r =>
    cases p <;> obtain rfl := Option.some.inj h
    · exact ⟨_, rfl, Standard.yields_readRegisters unit r (.inr rfl)⟩
    · exact ⟨_, rfl, Extended.yields_readRegisters unit r⟩
  | writeCoil p unit r value =>
    cases p <;> obtain rfl := Option.some.inj h
    · exact ⟨_, rfl, Standard.yields_writeCoil unit r value⟩
    · exact ⟨_, rfl, Extended.yields_writeBits unit r _⟩
  | writeCoils p unit r bits =>
    cases p <;> obtain rfl := Option.some.inj h
    · exact ⟨_, rfl, Standard.yields_writeCoils unit r held⟩
    · exact ⟨_, rfl, Extended.yields_writeBits unit r bits⟩
  | writeRegister p unit r value =>
    cases p <;> obtain rfl := Option.some.inj h
    · exact ⟨_, rfl, Standard.yields_writeRegister unit r value⟩
    · have yields := Extended.yields_writeRegisters unit r (wordBytes value)
      rw [show (wordBytes value).length = 2 from rfl] at yields
      exact ⟨_, rfl, yields⟩
  | writeRegisters p unit r data =>
    cases p <;> obtain rfl := Option.some.inj h
    · exact ⟨_, rfl, Standard.yields_writeRegisters unit r data⟩
    · exact ⟨_, rfl, Extended.yields_writeRegisters unit r data⟩
  | readFromIndex unit address count =>
    obtain rfl := Option.some.inj h
    exact ⟨_, rfl, Extended.yields_readFromIndex unit address count⟩
  | writeToIndex unit address registers =>
    obtain rfl := Option.some.inj h
    exact ⟨_, rfl, Extended.yields_writeToIndex unit address registers⟩
  | writeMaskedToIndex unit address pairs =>
    obtain rfl := Option.some.inj h
    exact ⟨_, rfl, Extended.yields_writeMaskedToIndex unit address pairs⟩
  | _ => cases h

end Operation

/-! ## All requests fit a frame -/

/-- the request fits a frame -/
def Fitting (request : Bytes) : Prop := request.length ≤ maxAdu

theorem Query.fitting_of_make {α : Type} {unit : UnitId} {f : FunctionCode} {data : Bytes}
    {accept : Bytes → Bytes → Except RequestFault α} {q : Query α}
    (h : Query.make unit f data accept = .ok q) : Fitting q.request := by
  rw [Query.make] at h
  split at h
  · rename_i fits
    obtain rfl := Except.ok.inj h
    exact fits
  · cases h

namespace Extended

open Query (fitting_of_make)
open Session (sends_ofQuery sends_settle)

theorem sends_assigned (done : List Assignment) : (assigned done).Sends Fitting := trivial

theorem sends_assignFrom (more : Nat) (next : UInt8) (done : List Assignment) :
    (assignFrom more next done).Sends Fitting := by
  induction more generalizing next done with
  | zero => exact sends_assigned done
  | succ more ih =>
    rw [assignFrom]
    rcases hq : serialQuery with fault | q
    · exact trivial
    refine ⟨fitting_of_make hq, fun result => ?_⟩
    cases result with
    | error fault =>
      cases fault with
      | noReply => exact sends_assigned done
      | _ => exact trivial
    | ok response =>
      refine (sends_settle q response).bind fun serial => ?_
      refine (sends_ofQuery fun _ => fitting_of_make).bind fun () => ?_
      change (ite _ _ _ : Session _).Sends Fitting
      split
      · exact sends_assigned _
      · exact ih ..

theorem sends_enumerate (first : UnitId) : (enumerate first).Sends Fitting := by
  rw [enumerate]
  rcases hq : reset with fault | q
  · exact trivial
  refine ⟨fitting_of_make hq, fun result => ?_⟩
  cases result with
  | error fault => exact trivial
  | ok u => exact sends_assignFrom ..

end Extended

open Query (fitting_of_make) in
open Session (sends_ofQuery) in
theorem Operation.sends {α : Type} {o : Operation α} (held : o.Held) :
    o.session.Sends Fitting := by
  rcases htransfer : o.transfer? with _ | x
  · cases o with
    | exceptionStatus | commEventCounter | commEventLog | serverId | deviceIdentification =>
      rw [session]
      exact sends_ofQuery fun _ h => fitting_of_make h
    | enumerate p first =>
      cases p with
      | standard => exact trivial
      | vendor => exact Extended.sends_enumerate first
    | readFromIndex | writeToIndex | writeMaskedToIndex => cases htransfer
    | readCoils p | readDiscreteInputs p | readHoldingRegisters p | readInputRegisters p
    | writeCoil p | writeCoils p | writeRegister p | writeRegisters p =>
      cases p <;> cases htransfer
  · obtain ⟨e, hsession, yields⟩ := exists_query held htransfer
    rw [hsession]
    refine sends_ofQuery fun q hq => ?_
    rw [hq] at yields
    exact yields.2.1

/-- **Only well-formed requests are handed over.** Whoever carries them, the requests of an
operation fit a frame. An operation that moves data is refused as a fault of the configuration and
hands over nothing, whenever it is asked for more or less than its function takes, however much that
is. Else it hands over one request, in which the count is the number of coils, registers or pairs
that were asked for, from one up to the limit, and the byte count the number of bytes that follow. -/
theorem operation_hands_over_well_formed_requests {α σ : Type} (o : Operation α) (held : o.Held)
    (c : Carrier σ) (s : σ) :
    (∀ request ∈ o.session.handed c s, request.length ≤ maxAdu) ∧
      ∀ x, o.transfer? = some x →
        (¬x.Allowed ∧ o.session.handed c s = [] ∧
          ∃ cause, o.session.run c s = (.error (.configuration cause), s)) ∨
        x.Allowed ∧ ∃ request fields, o.session.handed c s = [request] ∧
          request.length ≤ maxAdu ∧ RequestFields.of? request = some fields ∧ x.Told fields ∧
          1 ≤ fields.covered ∧ fields.covered ≤ x.limit ∧
          ∀ n data, fields.data = some (n, data) → n.toNat = data.length := by
  refine ⟨(Operation.sends held).handed c s, fun x hx => ?_⟩
  obtain ⟨e, hsession, yields⟩ := Operation.exists_query held hx
  rw [hsession]
  rcases yields.refused_or_handed c s with ⟨none, cause, refused, hrun⟩ |
    ⟨allowed, request, fields, hrequest, fits, hfields, told⟩
  · exact .inl ⟨refused.notAllowed, none, cause, hrun⟩
  refine .inr ⟨allowed, request, fields, hrequest, fits, hfields, told, ?_, ?_, fun n data h => ?_⟩
  · rw [told.covered]
    exact allowed.1.2.1
  · rw [told.covered]
    exact allowed.1.2.2
  · have counted := told.counted
    rw [← told.carried, h] at counted
    exact Option.some.inj counted

/-- brings no answers and keeps the requests -/
def Carrier.silent : Carrier (List Bytes) where
  ask requests request := (.error .noReply, requests ++ [request])
  tell requests request := (.ok (), requests ++ [request])
  note requests _ := requests

/-! ## A row of lamps too long

Unit 17 switches off the lamps of a row. When there are 65537 of them, 16 bits of their number read
as a single one.
-/

namespace Row

/-- switch off a row of so many lamps, from the third coil on -/
def operation (lamps : Nat) : Operation Unit :=
  .writeCoils .standard ⟨17⟩ ⟨2, 0, 0⟩ (BitSeq.zeros .lsb0 lamps)

theorem held (lamps : Nat) : (operation lamps).Held := by
  change lamps ≤ 8 * (Array.ofFn _).size
  rw [Array.size_ofFn, bytesForBits]
  omega

/-- One lamp is switched off. The long row, which reads as one, is refused. -/
theorem long_row_is_refused :
    ((operation 65537).Held ∧ UInt16.ofNat 65537 = 1) ∧
      ((operation 1).session.run .silent []).2 = [[17, 0x0F, 0, 2, 0, 1, 1, 0]] ∧
      ∃ cause, (operation 65537).session.run .silent [] = (.error (.configuration cause), []) := by
  refine ⟨⟨held 65537, by decide⟩, by decide +kernel, ?_⟩
  obtain ⟨-, h⟩ :=
    operation_hands_over_well_formed_requests (operation 65537) (held 65537) .silent []
  rcases h _ rfl with ⟨-, -, hrun⟩ | ⟨⟨⟨-, -, few⟩, -⟩, -⟩
  · exact hrun
  · exact absurd few (by decide)

end Row

end BusMaster
