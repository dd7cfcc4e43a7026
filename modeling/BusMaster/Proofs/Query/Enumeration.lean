import BusMaster.Engine.Execution
import BusMaster.Proofs.Query.Session
import BusMaster.Proofs.Words

/-!
# What units confirm

A unit that is given a logical address confirms it by repeating the request, so whoever hears the
exchanges knows which units took one (`Assignment.confirmed?`). `Session.Ends` follows a session
through all it may be answered and says of each end what was confirmed on the way there. An
enumeration that ends well ends with the units that confirmed, in their order
(`Extended.ends_enumerate`). No other query has a unit take an address (`Unassigning`), so what any
action brings when it ends well is all that was confirmed meanwhile (`Action.ends_session`). Of an
enumeration that fails there is nothing to say: it brings nothing, whatever was confirmed.
-/

namespace BusMaster

/-- the assignment that an exchange confirms -/
def Assignment.confirmed? (request : Bytes) (result : Except RequestFault Bytes) :
    Option Assignment :=
  match request, result with
  | [unit, function, a, b, c, d, address], .ok response =>
    if unit = UnitId.broadcast.value ∧ function = FunctionCode.assignLogicalAddress.wire
        ∧ response = request then
      some ⟨doubleWordOf (wordOf a b) (wordOf c d), ⟨address⟩⟩
    else none
  | _, _ => none

namespace Assignment

@[simp] theorem confirmed?_error (request : Bytes) (fault : RequestFault) :
    confirmed? request (.error fault) = none := by
  rw [confirmed?]
  rintro _ _ _ _ _ _ _ _ _ ⟨⟩

/-- Only requests of the function that assigns are confirmed. -/
theorem confirmed?_of_ne {f : FunctionCode} (other : f ≠ .assignLogicalAddress) (unit : UInt8)
    (data : Bytes) (result : Except RequestFault Bytes) :
    confirmed? (unit :: f.wire :: data) result = none := by
  have hwire : f.wire ≠ FunctionCode.assignLogicalAddress.wire := by
    cases f <;> first | decide | exact absurd rfl other
  rw [confirmed?.eq_def]
  split
  · rename_i hrequest
    simp only [List.cons.injEq] at hrequest
    obtain ⟨-, rfl, -⟩ := hrequest
    exact if_neg fun h => hwire h.2.1
  · rfl

/-- An assignment is confirmed by the echo of its request. -/
theorem confirmed?_assignment {a : Assignment} {q : Query Unit}
    (h : Extended.assignment a = .ok q) : confirmed? q.request (.ok q.request) = some a := by
  obtain rfl := Query.make_eq_ok h
  change (if _ then some (⟨doubleWordOf (wordOf _ _) (wordOf _ _), ⟨a.unit.value⟩⟩ : Assignment)
    else none) = _
  rw [if_pos ⟨rfl, rfl, rfl⟩, doubleWordOf_doubleWordBytes]

end Assignment

namespace Session

variable {α β : Type} {P : Except RequestFault α → List Assignment → Prop}

/-- every end of the session satisfies `P` of its result and of what was confirmed until then, some
of it before the session -/
def Ends (P : Except RequestFault α → List Assignment → Prop) :
    Session α → List Assignment → Prop
  | .done result, confirmed => P result confirmed
  | .ask request next, confirmed => ∀ result,
    (next result).Ends P (confirmed ++ (Assignment.confirmed? request result).toList)
  | .tell _ next, confirmed => ∀ result, (next result).Ends P confirmed
  | .note _ next, confirmed => next.Ends P confirmed

/-- A session ends as what follows on its own end does. -/
theorem ends_bind {f : β → Session α} (session : Session β) (confirmed : List Assignment) :
    (session.bind f).Ends P confirmed ↔ session.Ends (fun result confirmed =>
      (bind (.done result) f).Ends P confirmed) confirmed := by
  induction session generalizing confirmed with
  | done result => exact Iff.rfl
  | ask request next ih => exact forall_congr' fun result => ih result _
  | tell request next ih => exact forall_congr' fun result => ih result _
  | note line next ih => exact ih _

theorem Ends.mono {Q : Except RequestFault α → List Assignment → Prop} {session : Session α}
    {confirmed : List Assignment} (h : session.Ends P confirmed)
    (weaker : ∀ result confirmed, P result confirmed → Q result confirmed) :
    session.Ends Q confirmed := by
  induction session generalizing confirmed with
  | done result => exact weaker _ _ h
  | ask request next ih => exact fun result => ih result (h result)
  | tell request next ih => exact fun result => ih result (h result)
  | note line next ih => exact ih h

theorem ends_map {g : β → α} (session : Session β) (confirmed : List Assignment) :
    (session.map g).Ends P confirmed ↔
      session.Ends (fun result confirmed => P (result.map g) confirmed) confirmed := by
  rw [map, ends_bind]
  suffices (fun result => (bind (.done result) fun b : β => .done (.ok (g b))).Ends P)
      = fun result => P (result.map g) by rw [this]
  funext result
  cases result <;> rfl

/-- A query ends with its reading of the response, whether it complains or not. -/
theorem ends_settle (q : Query α) (response : Bytes) (confirmed : List Assignment) :
    (settle q response).Ends P confirmed ↔ P (q.accept response) confirmed := by
  rw [settle]
  split
  · rename_i hecho
    rw [hecho]
    exact Iff.rfl
  · exact Iff.rfl

end Session

/-- the query, if there is one, has no unit take an address -/
structure Unassigning {α : Type} (e : Except RequestFault (Query α)) : Prop where
  unconfirmed : ∀ q, e = .ok q → ∀ result, Assignment.confirmed? q.request result = none

namespace Unassigning

variable {α β : Type}

theorem error (fault : RequestFault) :
    Unassigning (.error fault : Except RequestFault (Query α)) := ⟨fun _ h => nomatch h⟩

theorem make {f : FunctionCode} (other : f ≠ .assignLogicalAddress) (unit : UnitId) (data : Bytes)
    (accept : Bytes → Bytes → Except RequestFault α) :
    Unassigning (Query.make unit f data accept) := by
  refine ⟨fun q hq result => ?_⟩
  obtain rfl := Query.make_eq_ok hq
  exact Assignment.confirmed?_of_ne other ..

theorem bind {e : Except RequestFault β} {f : β → Except RequestFault (Query α)}
    (h : ∀ b, Unassigning (f b)) : Unassigning (e >>= f) := by
  cases e with
  | ok b => exact h b
  | error fault => exact error fault

theorem map {e : Except RequestFault (Query β)} (h : Unassigning e) (g : β → α) :
    Unassigning (e >>= fun q => .ok (q.map g)) := by
  cases e with
  | ok q =>
    refine ⟨fun q' hq' result => ?_⟩
    obtain rfl := Except.ok.inj hq'
    exact h.unconfirmed q rfl result
  | error fault => exact error fault

/-- Whatever such a query brings, nothing was confirmed. -/
theorem ends {e : Except RequestFault (Query α)} (h : Unassigning e)
    {P : Except RequestFault α → List Assignment → Prop} {confirmed : List Assignment}
    (all : ∀ result, P result confirmed) : (Session.ofQuery e).Ends P confirmed := by
  cases e with
  | error fault => exact all _
  | ok q =>
    intro result
    rw [h.unconfirmed q rfl result, Option.toList_none, List.append_nil]
    cases result with
    | error fault => exact all _
    | ok response => exact (Session.ends_settle ..).2 (all _)

end Unassigning

/-! ## Enumerations -/

namespace Extended

theorem serialQuery_unassigning : Unassigning serialQuery :=
  .make (by decide) ..

/-- A unit that is given an address has confirmed it, or the query fails. -/
theorem ends_assignment (a : Assignment) (confirmed : List Assignment) :
    (Session.ofQuery (assignment a)).Ends
      (fun result seen => result = .ok () → seen = confirmed ++ [a]) confirmed := by
  cases hq : assignment a with
  | error fault => exact fun h => nomatch h
  | ok q =>
    intro result
    cases result with
    | error fault => exact fun h => nomatch h
    | ok response =>
      refine (Session.ends_settle ..).2 fun haccept => ?_
      have hecho : response = q.request := by
        obtain rfl := Query.make_eq_ok hq
        exact (Query.eq_take_of_checkEcho haccept).trans List.take_length
      rw [hecho, Assignment.confirmed?_assignment hq, Option.toList_some]

/-- the units, if they are brought, are those that confirmed -/
def Exact (result : Except RequestFault (List Assignment)) (confirmed : List Assignment) : Prop :=
  ∀ units, result = .ok units → units = confirmed

theorem ends_assigned (done : List Assignment) : (assigned done).Ends Exact done :=
  fun _ h => (Except.ok.inj h).symm

/-- One turn of query and assignment adds the unit that confirmed. -/
theorem ends_assignFrom (more : Nat) (next : UInt8) (done : List Assignment) :
    (assignFrom more next done).Ends Exact done := by
  induction more generalizing next done with
  | zero => exact ends_assigned done
  | succ more ih =>
    rw [assignFrom]
    cases hq : serialQuery with
    | error fault => exact fun _ h => nomatch h
    | ok q =>
      intro result
      rw [serialQuery_unassigning.unconfirmed q hq result, Option.toList_none, List.append_nil]
      cases result with
      | error fault =>
        cases fault with
        | noReply => exact ends_assigned done
        | _ => exact fun _ h => nomatch h
      | ok response =>
        refine (Session.ends_bind ..).2 ((Session.ends_settle ..).2 ?_)
        cases q.accept response with
        | error fault => exact fun _ h => nomatch h
        | ok serial =>
          change ((Session.ofQuery (assignment ⟨serial, ⟨next⟩⟩)).bind _).Ends Exact done
          refine (Session.ends_bind ..).2 ((ends_assignment _ _).mono ?_)
          intro result seen hseen
          cases result with
          | error fault => exact fun _ h => nomatch h
          | ok u =>
            rw [hseen rfl]
            change (ite _ _ _ : Session _).Ends Exact _
            split
            · exact ends_assigned _
            · exact ih ..

/-- **An enumeration that ends well brings the units that confirmed, in their order.** -/
theorem ends_enumerate (first : UnitId) : (enumerate first).Ends Exact [] := by
  rw [enumerate]
  cases reset with
  | error fault => exact fun _ h => nomatch h
  | ok q =>
    intro result
    cases result with
    | error fault => exact fun _ h => nomatch h
    | ok u => exact ends_assignFrom ..

end Extended

/-! ## All other queries -/

namespace Standard

variable (unit : UnitId) (r : AddressRange)

theorem unassigning_readBits {f : FunctionCode} (other : f ≠ .assignLogicalAddress) :
    Unassigning (readBits f unit r) :=
  .bind fun _ => .make other ..

theorem unassigning_readRegisters {f : FunctionCode} (other : f ≠ .assignLogicalAddress) :
    Unassigning (readRegisters f unit r) :=
  .bind fun _ => .make other ..

theorem unassigning_writeCoil (value : Bool) : Unassigning (writeCoil unit r value) :=
  .bind fun _ => .make (by decide) ..

theorem unassigning_writeCoils (bits : BitSeq) : Unassigning (writeCoils unit r bits) :=
  .bind fun _ => .make (by decide) ..

theorem unassigning_writeRegisters (data : Bytes) : Unassigning (writeRegisters unit r data) := by
  rw [writeRegisters]
  split
  · exact .error _
  · exact .bind fun _ => .make (by decide) ..

end Standard

namespace Extended

variable (unit : UnitId)

theorem unassigning_readFromIndex (address : PackedAddress) (count : UInt16) :
    Unassigning (readFromIndex unit address count) :=
  .bind fun _ => .make (by decide) ..

theorem unassigning_writeToIndex (address : PackedAddress) (registers : Bytes) :
    Unassigning (writeToIndex unit address registers) := by
  rw [writeToIndex]
  split
  · exact .error _
  · exact .bind fun _ => .make (by decide) ..

theorem unassigning_writeMaskedToIndex (address : PackedAddress) (pairs : List (UInt16 × UInt16)) :
    Unassigning (writeMaskedToIndex unit address pairs) :=
  .bind fun _ => .make (by decide) ..

variable (r : AddressRange)

theorem unassigning_readBits : Unassigning (readBits unit r) :=
  .bind fun _ => .bind fun _ => .map (unassigning_readFromIndex ..) _

theorem unassigning_readRegisters : Unassigning (readRegisters unit r) :=
  .bind fun _ => unassigning_readFromIndex ..

theorem unassigning_writeBits (bits : BitSeq) : Unassigning (writeBits unit r bits) :=
  .bind fun _ => unassigning_writeMaskedToIndex ..

theorem unassigning_writeRegisters (data : Bytes) : Unassigning (writeRegisters unit r data) :=
  .bind fun _ => unassigning_writeToIndex ..

end Extended

namespace Protocol

variable (p : Protocol) (unit : UnitId) (r : AddressRange)

theorem unassigning_readCoils : Unassigning (p.readCoils unit r) := by
  cases p with
  | standard => exact Standard.unassigning_readBits _ _ (by decide)
  | vendor => exact Extended.unassigning_readBits ..

theorem unassigning_readDiscreteInputs : Unassigning (p.readDiscreteInputs unit r) := by
  cases p with
  | standard => exact Standard.unassigning_readBits _ _ (by decide)
  | vendor => exact Extended.unassigning_readBits ..

theorem unassigning_readHoldingRegisters : Unassigning (p.readHoldingRegisters unit r) := by
  cases p with
  | standard => exact Standard.unassigning_readRegisters _ _ (by decide)
  | vendor => exact Extended.unassigning_readRegisters ..

theorem unassigning_readInputRegisters : Unassigning (p.readInputRegisters unit r) := by
  cases p with
  | standard => exact Standard.unassigning_readRegisters _ _ (by decide)
  | vendor => exact Extended.unassigning_readRegisters ..

theorem unassigning_writeCoil (value : Bool) : Unassigning (p.writeCoil unit r value) := by
  cases p with
  | standard => exact Standard.unassigning_writeCoil ..
  | vendor => exact Extended.unassigning_writeBits ..

theorem unassigning_writeCoils (bits : BitSeq) : Unassigning (p.writeCoils unit r bits) := by
  cases p with
  | standard => exact Standard.unassigning_writeCoils ..
  | vendor => exact Extended.unassigning_writeBits ..

theorem unassigning_writeRegisters (data : Bytes) : Unassigning (p.writeRegisters unit r data) := by
  cases p with
  | standard => exact Standard.unassigning_writeRegisters ..
  | vendor => exact Extended.unassigning_writeRegisters ..

end Protocol

/-! ## Actions -/

/-- the units that were given an address -/
def Gain.assignments : Gain → List Assignment
  | .assigned units => units
  | .nothing | .payload _ => []

/-- what is brought, if anything is, is all that was confirmed -/
def Gain.Accounts (result : Except RequestFault Gain) (confirmed : List Assignment) : Prop :=
  ∀ gain, result = .ok gain → gain.assignments = confirmed

theorem Gain.accounts_error (fault : RequestFault) (confirmed : List Assignment) :
    Accounts (.error fault) confirmed := fun _ h => nomatch h

namespace Unassigning

variable {α : Type} {e : Except RequestFault (Query α)}

theorem ends_map (h : Unassigning e) {g : α → Gain} (nothing : ∀ a, (g a).assignments = []) :
    ((Session.ofQuery e).map g).Ends Gain.Accounts [] := by
  refine (Session.ends_map ..).2 (h.ends fun result => ?_)
  cases result with
  | error fault => exact Gain.accounts_error _ _
  | ok a =>
    rintro gain ⟨⟩
    exact nothing a

theorem ends_bind (h : Unassigning e) {f : α → Session Gain}
    (rest : ∀ a, (f a).Ends Gain.Accounts []) :
    ((Session.ofQuery e).bind f).Ends Gain.Accounts [] := by
  refine (Session.ends_bind ..).2 (h.ends fun result => ?_)
  cases result with
  | error fault => exact Gain.accounts_error _ _
  | ok a => exact rest a

end Unassigning

namespace Action

variable (n : Node) (a : Action)

theorem ends_refuse (fault : ConfigFault) :
    (refuse fault : Session Gain).Ends Gain.Accounts [] := Gain.accounts_error _ _

theorem ends_readSession : (a.readSession n).Ends Gain.Accounts [] := by
  rw [readSession]
  split
  · exact (Protocol.unassigning_readCoils ..).ends_map fun _ => rfl
  · exact (Protocol.unassigning_readDiscreteInputs ..).ends_map fun _ => rfl
  · exact (Protocol.unassigning_readHoldingRegisters ..).ends_map fun _ => rfl
  · exact (Protocol.unassigning_readInputRegisters ..).ends_map fun _ => rfl
  · exact ends_refuse _

theorem unassigning_coilQuery (s : BitSeq) : Unassigning (a.coilQuery n s) := by
  rw [coilQuery]
  split
  · split
    · exact Protocol.unassigning_writeCoil ..
    · exact .error _
  · exact Protocol.unassigning_writeCoils ..

/-- The hand-out of addresses is the one action that units confirm. -/
theorem ends_enumeration (first : UnitId) :
    ((n.protocol.enumerate first).map Gain.assigned).Ends Gain.Accounts [] := by
  refine (Session.ends_map ..).2 ?_
  cases n.protocol with
  | standard => exact Gain.accounts_error _ _
  | vendor =>
    refine (Extended.ends_enumerate first).mono fun result confirmed exact => ?_
    cases result with
    | error fault => exact Gain.accounts_error _ _
    | ok units =>
      rintro gain ⟨⟩
      exact exact units rfl

theorem ends_writeSession : (a.writeSession n).Ends Gain.Accounts [] := by
  rw [writeSession]
  dsimp only
  split
  · exact ends_enumeration ..
  · exact (unassigning_coilQuery ..).ends_map fun _ => rfl
  · exact (Protocol.unassigning_writeRegisters ..).ends_map fun _ => rfl
  · split
    · exact (Protocol.unassigning_writeCoils ..).ends_map fun _ => rfl
    · exact Gain.accounts_error _ _
  · exact ends_refuse _

theorem ends_statusSession : (a.statusSession n).Ends Gain.Accounts [] := by
  have reported (line : LogLine) :
      (Session.note line (.done (.ok Gain.nothing))).Ends Gain.Accounts [] := by
    rintro gain ⟨⟩
    rfl
  rw [statusSession]
  dsimp only
  split
  · exact Unassigning.ends_bind (.make (by decide) ..) fun _ => reported _
  · exact Unassigning.ends_bind (.make (by decide) ..) fun _ => reported _
  · exact Unassigning.ends_bind (.make (by decide) ..) fun _ => reported _
  · exact ends_refuse _

/-- **What an action brings when it ends well is all that units confirmed meanwhile.** -/
theorem ends_session : (a.session n).Ends Gain.Accounts [] := by
  rw [session]
  split
  · exact ends_readSession ..
  · exact ends_writeSession ..
  · exact ends_statusSession ..

end Action

end BusMaster
