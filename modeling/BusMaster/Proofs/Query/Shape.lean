import BusMaster.Proofs.Query.Session
import BusMaster.Proofs.Transceiver.Exception
import BusMaster.Query.Layer

/-!
# The shape of responses

How long a response is gets worked out twice: by the framing, from the first bytes of it, and by the
query that reads it, from its own offsets. The two agree. A response that the framing delimits has,
for each function, the bytes that the query takes and no more (`Response.delimited` and the lemmas
behind it), down to the objects of a device identification, which both walk one by one
(`Standard.readObjects_of_walkObjects`). So what a query makes of a response is never that its body
is too short or goes on (`Query.Fits`), no session over such queries ends so (`Session.Fits`), and no
operation does on a transceiver (`Operation.fits` with `Session.Fits.run`).
-/

namespace BusMaster

/-- a body ends too early, or goes on behind its end, or has not the length of its function; of the
length of a body that gives its own byte count (`counted`) there may be a complaint -/
def RequestFault.Misshapen (counted : Bool) : RequestFault → Prop
  | .body .tooShort => True
  | .body .trailingBytes => True
  | .length _ _ => counted = false
  | _ => False

/-- the result is not that a body was misshapen -/
def Shapely {α : Type} (counted : Bool) : Except RequestFault α → Prop
  | .ok _ => True
  | .error fault => ¬fault.Misshapen counted

variable {counted : Bool}

namespace Shapely

variable {α β : Type}

theorem of_eq_ok {result : Except RequestFault α} (h : ∃ a, result = .ok a) :
    Shapely counted result := by
  obtain ⟨a, rfl⟩ := h
  exact trivial

theorem ofConfig (e : Except ConfigFault α) : Shapely counted (BusMaster.ofConfig e) := by
  cases e with
  | ok a => exact trivial
  | error fault => exact not_false

theorem bind {result : Except RequestFault α} {f : α → Except RequestFault β}
    (h : Shapely counted result) (next : ∀ a, Shapely counted (f a)) :
    Shapely counted (result >>= f) := by
  cases result with
  | ok a => exact next a
  | error fault => exact h

theorem map {result : Except RequestFault α} (h : Shapely counted result) (g : α → β) :
    Shapely counted (result.map g) := by
  cases result with
  | ok a => exact trivial
  | error fault => exact h

end Shapely

/-! ## Responses of a function -/

theorem FunctionCode.ofWire?_wire (f : FunctionCode) : FunctionCode.ofWire? f.wire = some f := by
  cases f <;> rfl

theorem FunctionCode.wire_regular (f : FunctionCode) : f.wire &&& exceptionBit = 0 := by
  cases f <;> rfl

/-- the bytes are the response of a function as the framing delimits it -/
structure Delimited (f : FunctionCode) (adu : Bytes) : Prop where
  length : Length.ofFunction? adu f = some (.exact adu.length)
  fits : adu.length ≤ maxAdu

/-- A response that is no exception is delimited by its function. -/
theorem Response.delimited {unit : UInt8} {f : FunctionCode} {adu : Bytes}
    (h : Response unit f.wire adu) (regular : adu[1]? = some f.wire) : Delimited f adu := by
  have whole := h.whole
  refine ⟨?_, le_of_responseLength whole⟩
  rcases adu with _ | ⟨u, _ | ⟨g, rest⟩⟩
  · cases regular
  · cases regular
  obtain rfl := Option.some.inj regular
  rw [responseLength, if_neg (not_not_intro f.wire_regular), f.ofWire?_wire, Option.bind_some] at whole
  split at whole
  · cases whole
  rename_i length hlength
  split at whole
  · cases whole
  · rw [hlength, Except.ok.inj whole]

namespace Delimited

variable {f : FunctionCode} {adu : Bytes} {n : Nat}

/-- Of a function with a fixed length. -/
theorem length_eq (h : Delimited f adu)
    (fixed : Length.ofFunction? adu f = some (.exact n)) : adu.length = n :=
  (Length.exact.inj (Option.some.inj (fixed.symm.trans h.length))).symm

/-- Of a function that gives its byte count first. -/
theorem exists_data (h : Delimited f adu)
    (counts : Length.ofFunction? adu f = some (Length.ofCounted adu)) :
    ∃ count data, adu.drop 2 = count :: data ∧ data.length = count.toNat := by
  have hlength := Option.some.inj (counts.symm.trans h.length)
  rw [Length.ofCounted] at hlength
  rcases adu with _ | ⟨u, _ | ⟨g, _ | ⟨count, data⟩⟩⟩
  · cases hlength
  · cases hlength
  · cases hlength
  · refine ⟨count, data, rfl, ?_⟩
    have hexact := Length.exact.inj hlength
    simp only [List.length_cons] at hexact
    omega

end Delimited

/-! ## The readings of single functions -/

namespace Query

variable {f : FunctionCode} {adu : Bytes}

/-- An echo is as long as the part of the request that it repeats. -/
theorem shapely_checkEcho {n : Nat} {request response : Bytes}
    (h : response.length = (request.take n).length) :
    Shapely counted (checkEcho n request response) := by
  rw [checkEcho]
  rw [if_neg (not_not_intro h)]
  split
  · exact not_false
  · trivial

/-- Counted data ends where its count says. -/
theorem shapely_countedData (h : Delimited f adu)
    (counts : Length.ofFunction? adu f = some (Length.ofCounted adu)) (expected : Nat) :
    Shapely true (countedData expected adu) := by
  obtain ⟨count, data, hdrop, hlength⟩ := h.exists_data counts
  rw [countedData, hdrop]
  dsimp only
  split
  · exact Bool.noConfusion
  rename_i heq
  rw [if_neg (by omega), if_neg (by omega)]
  trivial

end Query

namespace Standard

variable {f : FunctionCode} {adu : Bytes}

theorem shapely_acceptCoil {request response : Bytes} (h : response.length = request.length) :
    Shapely counted (acceptCoil request response) := by
  have echo : Shapely counted (Query.checkEcho request.length request response) :=
    Query.shapely_checkEcho (by rw [List.take_length, h])
  rw [acceptCoil.eq_def]
  split
  · dsimp only
    split
    · exact not_false
    · exact echo
  · exact echo

theorem shapely_acceptByte (h : adu.length = 3) : Shapely counted (acceptByte adu) := by
  obtain ⟨a, b, c, rfl⟩ := List.length_eq_three.1 h
  trivial

theorem shapely_acceptWords (h : adu.length = 6) : Shapely counted (acceptWords adu) := by
  rcases adu with _ | ⟨u, _ | ⟨g, _ | ⟨a, _ | ⟨b, _ | ⟨c, _ | ⟨d, _ | ⟨e, rest⟩⟩⟩⟩⟩⟩⟩ <;>
    first | trivial | simp at h

/-- The log goes on for as many bytes as it says, and six of them are there. -/
theorem shapely_acceptLog (h : Delimited .getCommEventLog adu) : Shapely true (acceptLog adu) := by
  obtain ⟨count, data, hdrop, hlength⟩ := h.exists_data rfl
  rw [acceptLog, hdrop]
  dsimp only
  split
  · exact Bool.noConfusion
  rename_i six
  rcases data with _ | ⟨a, _ | ⟨b, _ | ⟨c, _ | ⟨d, _ | ⟨e, _ | ⟨f, events⟩⟩⟩⟩⟩⟩ <;>
    first | trivial | (simp at hlength; omega)

/-- The objects that the framing has walked over are read, and nothing is left behind them. -/
theorem readObjects_of_walkObjects {count position : Nat} (fits : adu.length ≤ maxAdu)
    (walked : Length.walkObjects adu count position = .exact adu.length) :
    ∃ objects, readObjects count (adu.drop position) = .ok objects := by
  induction count generalizing position with
  | zero =>
    obtain rfl := Length.exact.inj walked
    rw [List.drop_length]
    exact ⟨[], rfl⟩
  | succ count ih =>
    rw [Length.walkObjects] at walked
    rcases hlength : adu[position + 1]? with _ | length
    · rw [hlength] at walked
      cases walked
    rw [hlength] at walked
    dsimp only at walked
    split at walked
    · rename_i long
      -- the framing takes no walk past the end of a frame for a length
      rw [Length.exact.inj walked] at long
      exact absurd fits (Nat.not_le.2 long)
    obtain ⟨objects, hobjects⟩ := ih walked
    have hle : position + 2 + length.toNat ≤ adu.length := by
      have hwalk := Length.le_walkObjects adu count (position + 2 + length.toNat)
      rw [walked] at hwalk
      exact hwalk
    have hdrop : adu.drop position = adu[position] :: length :: adu.drop (position + 2) := by
      rw [List.drop_eq_getElem_cons (by omega), List.drop_eq_getElem_cons (by omega)]
      rw [List.getElem?_eq_getElem (by omega)] at hlength
      rw [Option.some.inj hlength]
    rw [hdrop, readObjects, if_neg (by rw [List.length_drop]; omega), List.drop_drop, hobjects]
    exact ⟨_, rfl⟩

theorem shapely_acceptObjects (h : Delimited .readDeviceIdentification adu) :
    Shapely counted (acceptObjects adu) := by
  have hlength : Length.ofIdentification adu = .exact adu.length := Option.some.inj h.length
  rw [Length.ofIdentification] at hlength
  rcases hcount : adu[7]? with _ | count
  · rw [hcount] at hlength
    cases hlength
  rw [hcount] at hlength
  obtain ⟨objects, hobjects⟩ := readObjects_of_walkObjects h.fits hlength
  rcases adu with _ | ⟨u, _ | ⟨g, _ | ⟨kind, _ | ⟨a, _ | ⟨b, _ | ⟨c, _ | ⟨d, _ | ⟨e, data⟩⟩⟩⟩⟩⟩⟩⟩ <;>
    try cases hcount
  rw [acceptObjects]
  change Shapely counted (if kind ≠ identificationKind then _ else readObjects count.toNat data)
  split
  · exact not_false
  · exact .of_eq_ok ⟨objects, hobjects⟩

end Standard

/-! ## Queries -/

/-- the bytes are a response to a request as the framing delimits it, and no exception -/
def Regular (request adu : Bytes) : Prop :=
  ∃ unit function data, request = unit :: function :: data ∧ Response unit function adu ∧
    adu[1]? = some function

/-- They end where the framing ends a response. -/
theorem Regular.whole {request adu : Bytes} (h : Regular request adu) :
    responseLength adu = .ok (.exact adu.length) := by
  obtain ⟨_, _, _, -, response, -⟩ := h
  exact response.whole

/-- Their head is the head of the request. -/
theorem Regular.addressed {request adu : Bytes} (h : Regular request adu) :
    adu.take 2 = request.take 2 := by
  obtain ⟨unit, function, data, rfl, response, hfunction⟩ := h
  have hunit := response.unit
  rcases adu with _ | ⟨received, _ | ⟨code, body⟩⟩
  · cases hfunction
  · cases hfunction
  · obtain rfl := Option.some.inj hunit
    obtain rfl := Option.some.inj hfunction
    rfl

/-- what is made of a request, and of a response to it, is never that a body was misshapen -/
structure Query.Fits {α : Type} (counted : Bool) (e : Except RequestFault (Query α)) : Prop where
  made : Shapely counted e
  accepted : ∀ q, e = .ok q → ∀ adu, Regular q.request adu → Shapely counted (q.accept adu)

namespace Query.Fits

variable {α β : Type}

theorem make {unit : UnitId} {f : FunctionCode} {data : Bytes}
    {accept : Bytes → Bytes → Except RequestFault α}
    (h : ∀ adu, Delimited f adu → Shapely counted (accept (unit.value :: f.wire :: data) adu)) :
    Fits counted (Query.make unit f data accept) := by
  refine ⟨?_, fun q hq adu regular => ?_⟩
  · rw [Query.make]
    split
    · trivial
    · exact not_false
  · obtain rfl := Query.make_eq_ok hq
    obtain ⟨_, _, _, hrequest, response, hfunction⟩ := regular
    obtain ⟨-, hrest⟩ := List.cons.inj hrequest
    obtain ⟨rfl, -⟩ := List.cons.inj hrest
    exact h adu (response.delimited hfunction)

theorem bind {e : Except RequestFault β} {f : β → Except RequestFault (Query α)}
    (shapely : Shapely counted e) (h : ∀ b, Fits counted (f b)) : Fits counted (e >>= f) := by
  cases e with
  | ok b => exact h b
  | error fault => exact ⟨shapely, fun _ hq => nomatch hq⟩

theorem error {fault : RequestFault} (shapely : ¬fault.Misshapen counted) :
    Fits counted (.error fault : Except RequestFault (Query α)) :=
  ⟨shapely, fun _ hq => nomatch hq⟩

theorem map {e : Except RequestFault (Query β)} (h : Fits counted e) (g : β → α) :
    Fits counted (e >>= fun q => .ok (q.map g)) := by
  cases e with
  | ok q =>
    refine ⟨trivial, fun q' hq' adu regular => ?_⟩
    obtain rfl := Except.ok.inj hq'
    exact (h.accepted q rfl adu regular).map g
  | error fault => exact error h.made

end Query.Fits

namespace Standard

open Query (Fits shapely_checkEcho shapely_countedData)

variable (unit : UnitId) (r : AddressRange)

theorem fits_readBits {f : FunctionCode}
    (counts : ∀ adu, Length.ofFunction? adu f = some (Length.ofCounted adu)) :
    Fits true (readBits f unit r) :=
  .bind (.ofConfig _) fun _ => .make fun adu h =>
    (shapely_countedData h (counts adu) _).bind fun data => by
      split
      · trivial
      · exact not_false

theorem fits_readRegisters {f : FunctionCode}
    (counts : ∀ adu, Length.ofFunction? adu f = some (Length.ofCounted adu)) :
    Fits true (readRegisters f unit r) :=
  .bind (.ofConfig _) fun _ => .make fun adu h => shapely_countedData h (counts adu) _

theorem fits_writeCoil (value : Bool) : Fits counted (writeCoil unit r value) :=
  .bind (.ofConfig _) fun _ => .make fun _ h => shapely_acceptCoil (h.length_eq rfl)

theorem fits_writeCoils (bits : BitSeq) : Fits counted (writeCoils unit r bits) :=
  .bind (.ofConfig _) fun _ => .make fun _ h => shapely_checkEcho (h.length_eq rfl)

theorem fits_writeRegister (value : UInt16) : Fits counted (writeRegister unit r value) :=
  .bind (.ofConfig _) fun _ => .make fun _ h => shapely_checkEcho (h.length_eq rfl)

theorem fits_writeRegisters (data : Bytes) : Fits counted (writeRegisters unit r data) := by
  rw [writeRegisters]
  split
  · exact .error not_false
  · exact .bind (.ofConfig _) fun _ => .make fun _ h => shapely_checkEcho (h.length_eq rfl)

theorem fits_exceptionStatus : Fits counted (exceptionStatus unit) :=
  .make fun _ h => shapely_acceptByte (h.length_eq rfl)

theorem fits_commEventCounter : Fits counted (commEventCounter unit) :=
  .make fun _ h => (shapely_acceptWords (h.length_eq rfl)).bind fun _ => trivial

theorem fits_commEventLog : Fits true (commEventLog unit) :=
  .make fun _ h => shapely_acceptLog h

theorem fits_serverId : Fits true (serverId unit) :=
  .make fun _ h => shapely_countedData h rfl _

theorem fits_deviceIdentification (object : UInt8) :
    Fits counted (deviceIdentification unit object) :=
  .make fun _ h => shapely_acceptObjects h

end Standard

namespace Extended

open Query (Fits shapely_checkEcho shapely_countedData)

variable (unit : UnitId)

theorem fits_readFromIndex (address : PackedAddress) (count : UInt16) :
    Fits true (readFromIndex unit address count) :=
  .bind (.ofConfig _) fun _ => .make fun _ h =>
    (shapely_countedData h rfl _).bind fun _ => trivial

theorem fits_writeToIndex (address : PackedAddress) (registers : Bytes) :
    Fits counted (writeToIndex unit address registers) := by
  rw [writeToIndex]
  split
  · exact .error not_false
  · exact .bind (.ofConfig _) fun _ => .make fun _ h => shapely_checkEcho (h.length_eq rfl)

theorem fits_writeMaskedToIndex (address : PackedAddress) (pairs : List (UInt16 × UInt16)) :
    Fits counted (writeMaskedToIndex unit address pairs) :=
  .bind (.ofConfig _) fun _ => .make fun _ h => shapely_checkEcho (h.length_eq rfl)

theorem fits_serialQuery : Fits counted serialQuery :=
  .make fun _ h => (Standard.shapely_acceptWords (h.length_eq rfl)).bind fun _ => trivial

theorem fits_assignment (a : Assignment) : Fits counted (assignment a) :=
  .make fun _ h => shapely_checkEcho (h.length_eq rfl)

theorem fits_reset : Fits counted reset := .make fun _ _ => trivial

variable (r : AddressRange)

theorem fits_readBits : Fits true (readBits unit r) :=
  .bind (.ofConfig _) fun _ => .bind (.ofConfig _) fun _ => .map (fits_readFromIndex ..) _

theorem fits_readRegisters : Fits true (readRegisters unit r) :=
  .bind (.ofConfig _) fun _ => fits_readFromIndex ..

theorem fits_writeBits (bits : BitSeq) : Fits counted (writeBits unit r bits) :=
  .bind (.ofConfig _) fun _ => fits_writeMaskedToIndex ..

theorem fits_writeRegisters (data : Bytes) : Fits counted (writeRegisters unit r data) :=
  .bind (.ofConfig _) fun _ => fits_writeToIndex ..

end Extended

/-! ## Sessions -/

/-- a transceiver whose framing delimits responses may bring this for a request -/
def Carried (counted : Bool) (request : Bytes) : Except RequestFault Bytes → Prop
  | .ok adu => Regular request adu
  | .error fault => ¬fault.Misshapen counted

namespace Session

variable {α β : Type}

/-- no end of the session is that a body was misshapen, whatever is brought for its requests -/
def Fits (counted : Bool) : Session α → Prop
  | .done result => Shapely counted result
  | .ask request next => ∀ result, Carried counted request result → (next result).Fits counted
  | .tell _ next => ∀ result, Shapely counted result → (next result).Fits counted
  | .note _ next => next.Fits counted

theorem Fits.bind {session : Session β} (h : session.Fits counted) {f : β → Session α}
    (next : ∀ b, (f b).Fits counted) : (session.bind f).Fits counted := by
  induction session with
  | done result =>
    cases result with
    | ok b => exact next b
    | error fault => exact h
  | ask request follow ih => exact fun result carried => ih result (h result carried)
  | tell request follow ih => exact fun result shapely => ih result (h result shapely)
  | note line follow ih => exact ih h

theorem fits_settle {q : Query α} {response : Bytes} (h : Shapely counted (q.accept response)) :
    (settle q response).Fits counted := by
  rw [settle]
  split
  · exact not_false
  · exact h

theorem fits_ofQuery {e : Except RequestFault (Query α)} (h : Query.Fits counted e) :
    (ofQuery e).Fits counted := by
  cases e with
  | error fault => exact h.made
  | ok q =>
    intro result carried
    cases result with
    | error fault => exact carried
    | ok response => exact fits_settle (h.accepted q rfl response carried)

end Session

namespace Extended

theorem fits_assigned (done : List Assignment) : (assigned done).Fits counted := trivial

theorem fits_assignFrom (more : Nat) (next : UInt8) (done : List Assignment) :
    (assignFrom more next done).Fits counted := by
  induction more generalizing next done with
  | zero => exact fits_assigned done
  | succ more ih =>
    rw [assignFrom]
    have fits : Query.Fits counted serialQuery := fits_serialQuery
    rcases hq : serialQuery with fault | q <;> rw [hq] at fits
    · exact fits.made
    intro result carried
    cases result with
    | error fault =>
      cases fault with
      | noReply => exact fits_assigned done
      | _ => exact carried
    | ok response =>
      refine (Session.fits_settle (fits.accepted q rfl response carried)).bind fun serial => ?_
      refine (Session.fits_ofQuery (fits_assignment _)).bind fun () => ?_
      change (ite _ _ _ : Session _).Fits counted
      split
      · exact fits_assigned _
      · exact ih ..

theorem fits_enumerate (first : UnitId) : (enumerate first).Fits counted := by
  rw [enumerate]
  have fits : Query.Fits counted reset := fits_reset
  rcases hq : reset with fault | q <;> rw [hq] at fits
  · exact fits.made
  intro result shapely
  cases result with
  | error fault => exact shapely
  | ok u => exact fits_assignFrom ..

end Extended

/-! ## On a transceiver -/

namespace Transceiver

variable {t : Transceiver} {request : Bytes}

theorem Unsent.not_misshapen {fault : RequestFault} (h : t.Unsent request fault) :
    ¬fault.Misshapen counted := by
  cases h with
  | closed => exact not_false
  | failed f => exact not_false
  | refused hcheck =>
    rw [checkRequest] at hcheck
    split at hcheck
    · obtain rfl := Except.error.inj hcheck
      exact not_false
    · split at hcheck
      · obtain rfl := Except.error.inj hcheck
        exact not_false
      · cases hcheck

theorem shapely_checkException (adu : Bytes) : Shapely counted (checkException adu) := by
  rw [checkException.eq_def]
  split
  · split
    · exact not_false
    · trivial
  · trivial

/-- A receiver faults with the frame, the line with itself, or nothing comes in. -/
theorem shapely_receive {σ : Type} (receiver : Receiver σ) (raw : RawDetail) (deadline : Moment)
    (state : σ) (queue : List Arrival) (now : Moment) (lines : List LogLine) :
    Shapely counted (receive receiver raw deadline state queue now lines).result := by
  obtain ⟨_, _, -, ends, -⟩ := receive_delivered receiver raw deadline state queue now lines
  generalize (receive receiver raw deadline state queue now lines).result = result at ends ⊢
  cases ends with
  | @through result =>
    cases result with
    | ok adu => trivial
    | error fault => exact not_false
  | silence => exact not_false
  | failure => exact not_false

theorem shapely_listen (t : Transceiver) (p : Pending) (queue : List Arrival) :
    Shapely counted (t.listen p queue).result := by
  rw [listen]
  split <;> exact shapely_receive ..

theorem shapely_transact (t : Transceiver) (request : Bytes) :
    Shapely counted (t.transact request).1 := by
  rw [transact]
  rcases hbegin : t.begin request true with ⟨result | p, t'⟩
  · obtain ⟨-, -, unsent, -⟩ := begin_finished hbegin
    cases result with
    | ok adu => trivial
    | error fault => exact (unsent fault rfl).not_misshapen
  · dsimp only
    rw [finish]
    split
    · exact not_false
    · exact (shapely_listen ..).bind shapely_checkException

theorem shapely_send (t : Transceiver) (request : Bytes) :
    Shapely counted (t.send request).1 := by
  rw [send]
  rcases hbegin : t.begin request false with ⟨result | p, t'⟩
  · obtain ⟨-, -, unsent, -⟩ := begin_finished hbegin
    cases result with
    | ok adu => trivial
    | error fault => exact (unsent fault rfl).not_misshapen
  · trivial

/-- What is handed out of a framing that delimits responses is a response, and no exception. -/
theorem regular_of_transact (delimited : t.settings.framing ≠ .ascii) {adu : Bytes}
    (h : (t.transact request).1 = .ok adu) : Regular request adu := by
  rw [transact_eq_received] at h
  rcases hreceived : t.received request with fault | adu'
  · rw [hreceived] at h
    cases h
  rw [hreceived] at h
  obtain rfl : adu' = adu := eq_of_checkException h
  rcases request with _ | ⟨unit, _ | ⟨function, data⟩⟩
  · cases hreceived
  · cases hreceived
  have response := response_of_received hreceived delimited
  refine ⟨unit, function, data, rfl, response, ?_⟩
  rcases response.function with hfunction | hfunction
  · exact hfunction
  -- an exception has a code, and with one it is a fault
  by_cases marked : (function ||| FunctionCode.exceptionBit) &&& FunctionCode.exceptionBit = 0
  · rw [or_exceptionBit_and] at marked
    exact absurd marked (by decide)
  rcases checkException_of_refusal response.unit hfunction marked with ⟨bare, -⟩ | ⟨code, -, hfault⟩
  · have three := response.length_of_exception hfunction marked
    rw [bare] at three
    cases three
  · cases hfault.symm.trans h

theorem carried_transact (delimited : t.settings.framing ≠ .ascii) (request : Bytes) :
    Carried counted request (t.transact request).1 := by
  have shapely : Shapely counted (t.transact request).1 := t.shapely_transact request
  rcases hresult : (t.transact request).1 with fault | adu
  · rw [hresult] at shapely
    exact shapely
  · exact regular_of_transact delimited hresult

end Transceiver

/-- A session runs on a transceiver as it may end. -/
theorem Session.Fits.run {α : Type} {session : Session α} (h : session.Fits counted)
    {t : Transceiver} (delimited : t.settings.framing ≠ .ascii) :
    Shapely counted (session.run Transceiver.carrier t).1 := by
  induction session generalizing t with
  | done result => exact h
  | ask request next ih =>
    refine ih _ (h _ (t.carried_transact delimited request)) ?_
    change (t.transact request).2.settings.framing ≠ .ascii
    rwa [show (t.transact request).2.settings = t.settings from
      t.settings_perform (.transact request)]
  | tell request next ih =>
    refine ih _ (h _ (t.shapely_send request)) ?_
    change (t.send request).2.settings.framing ≠ .ascii
    rwa [show (t.send request).2.settings = t.settings from t.settings_perform (.send request)]
  | note line next ih => exact ih h delimited

/-! ## The operations of the layers -/

/-- what can be asked of a unit, with the type of its result -/
inductive Operation : Type → Type where
  | readCoils (p : Protocol) (unit : UnitId) (r : AddressRange) : Operation BitSeq
  | readDiscreteInputs (p : Protocol) (unit : UnitId) (r : AddressRange) : Operation BitSeq
  | readHoldingRegisters (p : Protocol) (unit : UnitId) (r : AddressRange) : Operation Bytes
  | readInputRegisters (p : Protocol) (unit : UnitId) (r : AddressRange) : Operation Bytes
  | writeCoil (p : Protocol) (unit : UnitId) (r : AddressRange) (value : Bool) : Operation Unit
  | writeCoils (p : Protocol) (unit : UnitId) (r : AddressRange) (bits : BitSeq) : Operation Unit
  | writeRegister (p : Protocol) (unit : UnitId) (r : AddressRange) (value : UInt16) :
    Operation Unit
  | writeRegisters (p : Protocol) (unit : UnitId) (r : AddressRange) (data : Bytes) :
    Operation Unit
  | exceptionStatus (unit : UnitId) : Operation UInt8
  | commEventCounter (unit : UnitId) : Operation CommEventCounter
  | commEventLog (unit : UnitId) : Operation CommEventLog
  | serverId (unit : UnitId) : Operation Bytes
  | deviceIdentification (unit : UnitId) (object : UInt8) : Operation (List DeviceObject)
  | readFromIndex (unit : UnitId) (address : PackedAddress) (count : UInt16) : Operation Bytes
  | writeToIndex (unit : UnitId) (address : PackedAddress) (registers : Bytes) : Operation Unit
  | writeMaskedToIndex (unit : UnitId) (address : PackedAddress)
    (pairs : List (UInt16 × UInt16)) : Operation Unit
  | enumerate (p : Protocol) (first : UnitId) : Operation (List Assignment)

namespace Operation

/-- the session of an operation -/
def session {α : Type} : Operation α → Session α
  | readCoils p unit r => .ofQuery (p.readCoils unit r)
  | readDiscreteInputs p unit r => .ofQuery (p.readDiscreteInputs unit r)
  | readHoldingRegisters p unit r => .ofQuery (p.readHoldingRegisters unit r)
  | readInputRegisters p unit r => .ofQuery (p.readInputRegisters unit r)
  | writeCoil p unit r value => .ofQuery (p.writeCoil unit r value)
  | writeCoils p unit r bits => .ofQuery (p.writeCoils unit r bits)
  | writeRegister p unit r value => .ofQuery (p.writeRegister unit r value)
  | writeRegisters p unit r data => .ofQuery (p.writeRegisters unit r data)
  | exceptionStatus unit => .ofQuery (Standard.exceptionStatus unit)
  | commEventCounter unit => .ofQuery (Standard.commEventCounter unit)
  | commEventLog unit => .ofQuery (Standard.commEventLog unit)
  | serverId unit => .ofQuery (Standard.serverId unit)
  | deviceIdentification unit object => .ofQuery (Standard.deviceIdentification unit object)
  | readFromIndex unit address count => .ofQuery (Extended.readFromIndex unit address count)
  | writeToIndex unit address registers => .ofQuery (Extended.writeToIndex unit address registers)
  | writeMaskedToIndex unit address pairs =>
    .ofQuery (Extended.writeMaskedToIndex unit address pairs)
  | enumerate p first => p.enumerate first

/-- the response gives a byte count -/
def counts {α : Type} : Operation α → Bool
  | readCoils .. | readDiscreteInputs .. | readHoldingRegisters .. | readInputRegisters ..
  | commEventLog _ | serverId _ | readFromIndex .. => true
  | _ => false

open Session (fits_ofQuery)

theorem fits {α : Type} (o : Operation α) : o.session.Fits o.counts := by
  cases o with
  | readCoils p unit r =>
    cases p with
    | standard => exact fits_ofQuery (Standard.fits_readBits unit r fun _ => rfl)
    | vendor => exact fits_ofQuery (Extended.fits_readBits unit r)
  | readDiscreteInputs p unit r =>
    cases p with
    | standard => exact fits_ofQuery (Standard.fits_readBits unit r fun _ => rfl)
    | vendor => exact fits_ofQuery (Extended.fits_readBits unit r)
  | readHoldingRegisters p unit r =>
    cases p with
    | standard => exact fits_ofQuery (Standard.fits_readRegisters unit r fun _ => rfl)
    | vendor => exact fits_ofQuery (Extended.fits_readRegisters unit r)
  | readInputRegisters p unit r =>
    cases p with
    | standard => exact fits_ofQuery (Standard.fits_readRegisters unit r fun _ => rfl)
    | vendor => exact fits_ofQuery (Extended.fits_readRegisters unit r)
  | writeCoil p unit r value =>
    cases p with
    | standard => exact fits_ofQuery (Standard.fits_writeCoil unit r value)
    | vendor => exact fits_ofQuery (Extended.fits_writeBits unit r _)
  | writeCoils p unit r bits =>
    cases p with
    | standard => exact fits_ofQuery (Standard.fits_writeCoils unit r bits)
    | vendor => exact fits_ofQuery (Extended.fits_writeBits unit r bits)
  | writeRegister p unit r value =>
    cases p with
    | standard => exact fits_ofQuery (Standard.fits_writeRegister unit r value)
    | vendor => exact fits_ofQuery (Extended.fits_writeRegisters unit r _)
  | writeRegisters p unit r data =>
    cases p with
    | standard => exact fits_ofQuery (Standard.fits_writeRegisters unit r data)
    | vendor => exact fits_ofQuery (Extended.fits_writeRegisters unit r data)
  | exceptionStatus unit => exact fits_ofQuery (Standard.fits_exceptionStatus unit)
  | commEventCounter unit => exact fits_ofQuery (Standard.fits_commEventCounter unit)
  | commEventLog unit => exact fits_ofQuery (Standard.fits_commEventLog unit)
  | serverId unit => exact fits_ofQuery (Standard.fits_serverId unit)
  | deviceIdentification unit object =>
    exact fits_ofQuery (Standard.fits_deviceIdentification unit object)
  | readFromIndex unit address count =>
    exact fits_ofQuery (Extended.fits_readFromIndex unit address count)
  | writeToIndex unit address registers =>
    exact fits_ofQuery (Extended.fits_writeToIndex unit address registers)
  | writeMaskedToIndex unit address pairs =>
    exact fits_ofQuery (Extended.fits_writeMaskedToIndex unit address pairs)
  | enumerate p first =>
    cases p with
    | standard => exact not_false
    | vendor => exact Extended.fits_enumerate first

end Operation

end BusMaster
