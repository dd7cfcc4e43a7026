import BusMaster.Engine.Execution
import BusMaster.Proofs.Query.Session

/-!
# Where the fault of a session comes from

A session fails for one of two reasons. A query found something wrong by itself, with the request it
was to make or with the response it got (`RequestFault.IsComplaint`), or an exchange ended in a
fault, and the session handed that on. So if the exchanges of a session end in none but certain
faults, the session does as well, complaints apart (`Session.EndsIn`). That an exchange got no answer
is no complaint: an action ends so only if an exchange of it did (`Action.endsIn_session`). The
reverse fails, as the enumeration takes the first query without an answer for the end of its work.
-/

namespace BusMaster

/-- A query can find this by itself, whatever became of its exchange. -/
def RequestFault.IsComplaint : RequestFault → Prop
  | .configuration _ | .unsupported | .echo | .body _ | .length _ _ => True
  | _ => False

/-- the result is no fault, or one of these -/
def FaultIn {α : Type} (P : RequestFault → Prop) : Except RequestFault α → Prop
  | .ok _ => True
  | .error fault => P fault

/-- a result of a query itself -/
def Complains {α : Type} (result : Except RequestFault α) : Prop :=
  FaultIn RequestFault.IsComplaint result

variable {α β : Type}

namespace Complains

theorem bind {result : Except RequestFault α} {f : α → Except RequestFault β}
    (h : Complains result) (next : ∀ a, Complains (f a)) : Complains (result >>= f) := by
  cases result with
  | ok a => exact next a
  | error fault => exact h

theorem map {result : Except RequestFault α} (h : Complains result) (g : α → β) :
    Complains (result.map g) := by
  cases result with
  | ok a => exact trivial
  | error fault => exact h

end Complains

/-! ## Readings of responses -/

theorem Query.complains_checkEcho (n : Nat) (request response : Bytes) :
    Complains (checkEcho n request response) := by
  rw [checkEcho]
  split
  · trivial
  · split <;> trivial

theorem Query.complains_countedData (expected : Nat) (response : Bytes) :
    Complains (countedData expected response) := by
  rw [countedData]
  split
  · trivial
  split
  · trivial
  split
  · trivial
  split <;> trivial

namespace Standard

theorem complains_acceptCoil (request response : Bytes) :
    Complains (acceptCoil request response) := by
  rw [acceptCoil.eq_def]
  split
  · dsimp only
    split
    · trivial
    · exact Query.complains_checkEcho ..
  · exact Query.complains_checkEcho ..

theorem complains_acceptByte (response : Bytes) : Complains (acceptByte response) := by
  rw [acceptByte.eq_def]
  split <;> trivial

theorem complains_acceptWords (response : Bytes) : Complains (acceptWords response) := by
  rw [acceptWords.eq_def]
  split <;> trivial

theorem complains_acceptLog (response : Bytes) : Complains (acceptLog response) := by
  rw [acceptLog.eq_def]
  split
  · trivial
  split
  · trivial
  split <;> trivial

end Standard

/-! ## Queries -/

/-- what can be wrong with a query that is made, or with a response to it, is a complaint -/
structure Query.Plain (e : Except RequestFault (Query α)) : Prop where
  made : Complains e
  accepted : ∀ q, e = .ok q → ∀ response, Complains (q.accept response)

namespace Query.Plain

theorem error {fault : RequestFault} (complaint : fault.IsComplaint) :
    Plain (.error fault : Except RequestFault (Query α)) :=
  ⟨complaint, fun _ hq => nomatch hq⟩

theorem make {unit : UnitId} {f : FunctionCode} {data : Bytes}
    {accept : Bytes → Bytes → Except RequestFault α}
    (h : ∀ request response, Complains (accept request response)) :
    Plain (Query.make unit f data accept) := by
  refine ⟨?_, fun q hq response => ?_⟩
  · rw [Query.make]
    split <;> trivial
  · obtain rfl := Query.make_eq_ok hq
    exact h ..

/-- A query whose data is checked before it is made. -/
theorem bind {e : Except ConfigFault β} {f : β → Except RequestFault (Query α)}
    (h : ∀ b, Plain (f b)) : Plain (ofConfig e >>= f) := by
  cases e with
  | ok b => exact h b
  | error fault => exact error trivial

theorem map {e : Except RequestFault (Query β)} (h : Plain e) (g : β → α) :
    Plain (e >>= fun q => .ok (q.map g)) := by
  cases e with
  | ok q =>
    refine ⟨trivial, fun q' hq' response => ?_⟩
    obtain rfl := Except.ok.inj hq'
    exact (h.accepted q rfl response).map g
  | error fault => exact error h.made

end Query.Plain

namespace Standard

open Query (Plain complains_checkEcho complains_countedData)

variable (unit : UnitId) (r : AddressRange)

theorem plain_readBits (f : FunctionCode) : Plain (readBits f unit r) :=
  .bind fun _ => .make fun _ _ => (complains_countedData ..).bind fun _ => by split <;> trivial

theorem plain_readRegisters (f : FunctionCode) : Plain (readRegisters f unit r) :=
  .bind fun _ => .make fun _ _ => complains_countedData ..

theorem plain_writeCoil (value : Bool) : Plain (writeCoil unit r value) :=
  .bind fun _ => .make complains_acceptCoil

theorem plain_writeCoils (bits : BitSeq) : Plain (writeCoils unit r bits) :=
  .bind fun _ => .make (complains_checkEcho _)

theorem plain_writeRegisters (data : Bytes) : Plain (writeRegisters unit r data) := by
  rw [writeRegisters]
  split
  · exact .error trivial
  · exact .bind fun _ => .make (complains_checkEcho _)

theorem plain_exceptionStatus : Plain (exceptionStatus unit) :=
  .make fun _ => complains_acceptByte

theorem plain_commEventCounter : Plain (commEventCounter unit) :=
  .make fun _ _ => (complains_acceptWords _).bind fun _ => trivial

theorem plain_commEventLog : Plain (commEventLog unit) := .make fun _ => complains_acceptLog

end Standard

namespace Extended

open Query (Plain complains_checkEcho complains_countedData)

variable (unit : UnitId) (r : AddressRange)

theorem plain_readFromIndex (address : PackedAddress) (count : UInt16) :
    Plain (readFromIndex unit address count) :=
  .bind fun _ => .make fun _ _ => (complains_countedData ..).bind fun _ => trivial

theorem plain_writeToIndex (address : PackedAddress) (registers : Bytes) :
    Plain (writeToIndex unit address registers) := by
  rw [writeToIndex]
  split
  · exact .error trivial
  · exact .bind fun _ => .make (complains_checkEcho _)

theorem plain_writeMaskedToIndex (address : PackedAddress) (pairs : List (UInt16 × UInt16)) :
    Plain (writeMaskedToIndex unit address pairs) :=
  .bind fun _ => .make (complains_checkEcho _)

theorem plain_readBits : Plain (readBits unit r) :=
  .bind fun _ => .bind fun _ => .map (plain_readFromIndex ..) _

theorem plain_readRegisters : Plain (readRegisters unit r) :=
  .bind fun _ => plain_readFromIndex ..

theorem plain_writeBits (bits : BitSeq) : Plain (writeBits unit r bits) :=
  .bind fun _ => plain_writeMaskedToIndex ..

theorem plain_writeRegisters (data : Bytes) : Plain (writeRegisters unit r data) :=
  .bind fun _ => plain_writeToIndex ..

theorem plain_serialQuery : Plain serialQuery :=
  .make fun _ _ => (Standard.complains_acceptWords _).bind fun _ => trivial

theorem plain_assignment (a : Assignment) : Plain (assignment a) :=
  .make fun _ _ => complains_checkEcho ..

theorem plain_reset : Plain reset := .make fun _ _ => trivial

end Extended

namespace Protocol

open Query (Plain)

variable (p : Protocol) (unit : UnitId) (r : AddressRange)

theorem plain_readCoils : Plain (p.readCoils unit r) := by
  cases p with
  | standard => exact Standard.plain_readBits ..
  | vendor => exact Extended.plain_readBits ..

theorem plain_readDiscreteInputs : Plain (p.readDiscreteInputs unit r) := by
  cases p with
  | standard => exact Standard.plain_readBits ..
  | vendor => exact Extended.plain_readBits ..

theorem plain_readHoldingRegisters : Plain (p.readHoldingRegisters unit r) := by
  cases p with
  | standard => exact Standard.plain_readRegisters ..
  | vendor => exact Extended.plain_readRegisters ..

theorem plain_readInputRegisters : Plain (p.readInputRegisters unit r) := by
  cases p with
  | standard => exact Standard.plain_readRegisters ..
  | vendor => exact Extended.plain_readRegisters ..

theorem plain_writeCoil (value : Bool) : Plain (p.writeCoil unit r value) := by
  cases p with
  | standard => exact Standard.plain_writeCoil ..
  | vendor => exact Extended.plain_writeBits ..

theorem plain_writeCoils (bits : BitSeq) : Plain (p.writeCoils unit r bits) := by
  cases p with
  | standard => exact Standard.plain_writeCoils ..
  | vendor => exact Extended.plain_writeBits ..

theorem plain_writeRegisters (data : Bytes) : Plain (p.writeRegisters unit r data) := by
  cases p with
  | standard => exact Standard.plain_writeRegisters ..
  | vendor => exact Extended.plain_writeRegisters ..

end Protocol

/-! ## Sessions -/

variable {P : RequestFault → Prop}

namespace Session

/-- As long as its exchanges end in none but these faults, the session does. -/
def EndsIn (P : RequestFault → Prop) : Session α → Prop
  | .done result => FaultIn P result
  | .ask _ next => ∀ result, FaultIn P result → (next result).EndsIn P
  | .tell _ next => ∀ result, FaultIn P result → (next result).EndsIn P
  | .note _ next => next.EndsIn P

theorem EndsIn.bind {session : Session β} (h : session.EndsIn P) {f : β → Session α}
    (next : ∀ b, (f b).EndsIn P) : (session.bind f).EndsIn P := by
  induction session with
  | done result =>
    cases result with
    | ok b => exact next b
    | error fault => exact h
  | ask request follow ih => exact fun result within => ih result (h result within)
  | tell request follow ih => exact fun result within => ih result (h result within)
  | note line follow ih => exact ih h

theorem EndsIn.map {session : Session β} (h : session.EndsIn P) (g : β → α) :
    (session.map g).EndsIn P := h.bind fun _ => trivial

variable (complaints : ∀ fault : RequestFault, fault.IsComplaint → P fault)
include complaints

theorem endsIn_done {result : Except RequestFault α} (h : Complains result) :
    (done result).EndsIn P := by
  cases result with
  | ok a => exact trivial
  | error fault => exact complaints fault h

theorem endsIn_settle {q : Query α} {response : Bytes} (h : Complains (q.accept response)) :
    (settle q response).EndsIn P := by
  rw [settle]
  split
  · exact complaints .echo trivial
  · exact endsIn_done complaints h

theorem endsIn_ofQuery {e : Except RequestFault (Query α)} (h : Query.Plain e) :
    (ofQuery e).EndsIn P := by
  cases e with
  | error fault => exact complaints fault h.made
  | ok q =>
    intro result within
    cases result with
    | error fault => exact within
    | ok response => exact endsIn_settle complaints (h.accepted q rfl response)

end Session

section

variable (complaints : ∀ fault : RequestFault, fault.IsComplaint → P fault)
include complaints

namespace Extended

/-- One turn of query and assignment hands on the faults of its exchanges, but for the query that
nobody answers. -/
theorem endsIn_assignFrom (more : Nat) (next : UInt8) (done : List Assignment) :
    (assignFrom more next done).EndsIn P := by
  induction more generalizing next done with
  | zero => exact trivial
  | succ more ih =>
    rw [assignFrom]
    have plain := plain_serialQuery
    rcases hq : serialQuery with fault | q <;> rw [hq] at plain
    · exact complaints fault plain.made
    intro result within
    cases result with
    | error fault =>
      -- the one fault that is not handed on, because the enumeration ends well with it
      cases fault with
      | noReply => exact trivial
      | _ => exact within
    | ok response =>
      refine (Session.endsIn_settle complaints (plain.accepted q rfl response)).bind
        fun serial => ?_
      refine (Session.endsIn_ofQuery complaints (plain_assignment _)).bind fun () => ?_
      change (ite _ _ _ : Session _).EndsIn P
      split
      · exact trivial
      · exact ih ..

theorem endsIn_enumerate (first : UnitId) : (enumerate first).EndsIn P := by
  rw [enumerate]
  have plain := plain_reset
  rcases hq : reset with fault | q <;> rw [hq] at plain
  · exact complaints fault plain.made
  intro result within
  cases result with
  | error fault => exact within
  | ok u => exact endsIn_assignFrom complaints ..

end Extended

namespace Action

open Session (endsIn_ofQuery)

variable (n : Node) (a : Action)

theorem endsIn_refuse (fault : ConfigFault) : (refuse fault : Session Gain).EndsIn P :=
  complaints _ trivial

theorem endsIn_readSession : (a.readSession n).EndsIn P := by
  rw [readSession]
  split
  · exact (endsIn_ofQuery complaints (Protocol.plain_readCoils ..)).map _
  · exact (endsIn_ofQuery complaints (Protocol.plain_readDiscreteInputs ..)).map _
  · exact (endsIn_ofQuery complaints (Protocol.plain_readHoldingRegisters ..)).map _
  · exact (endsIn_ofQuery complaints (Protocol.plain_readInputRegisters ..)).map _
  · exact endsIn_refuse complaints _

omit complaints in
theorem plain_coilQuery (s : BitSeq) : Query.Plain (a.coilQuery n s) := by
  rw [coilQuery]
  split
  · split
    · exact Protocol.plain_writeCoil ..
    · exact .error trivial
  · exact Protocol.plain_writeCoils ..

theorem endsIn_writeSession : (a.writeSession n).EndsIn P := by
  rw [writeSession]
  dsimp only
  split
  · refine Session.EndsIn.map ?_ _
    cases n.protocol with
    | standard => exact complaints _ trivial
    | vendor => exact Extended.endsIn_enumerate complaints _
  · exact (endsIn_ofQuery complaints (plain_coilQuery ..)).map _
  · exact (endsIn_ofQuery complaints (Protocol.plain_writeRegisters ..)).map _
  · split
    · exact (endsIn_ofQuery complaints (Protocol.plain_writeCoils ..)).map _
    · exact complaints _ trivial
  · exact endsIn_refuse complaints _

theorem endsIn_statusSession : (a.statusSession n).EndsIn P := by
  rw [statusSession]
  dsimp only
  split
  · exact (endsIn_ofQuery complaints (Standard.plain_exceptionStatus _)).bind fun _ => trivial
  · exact (endsIn_ofQuery complaints (Standard.plain_commEventCounter _)).bind fun _ => trivial
  · exact (endsIn_ofQuery complaints (Standard.plain_commEventLog _)).bind fun _ => trivial
  · exact endsIn_refuse complaints _

/-- **An action fails by a complaint of its own, or hands on the fault of an exchange.** -/
theorem endsIn_session : (a.session n).EndsIn P := by
  rw [session]
  split
  · exact endsIn_readSession complaints ..
  · exact endsIn_writeSession complaints ..
  · exact endsIn_statusSession complaints ..

end Action

end

end BusMaster
