import BusMaster.Proofs.Query.Course
import BusMaster.Proofs.Query.Enumeration

/-!
# The addresses that are handed out

A request that assigns an address names it, so the addresses that a session hands out are read off
its requests (`assignedAddresses`), whether a unit takes them or not. An enumeration begins with the
reset, and from then on the addresses are its first one and those after it, each once and in order
(`Enumerates`). It ends at the highest unit id or after so many units, so the count of addresses
does not run over (`Extended.throughout_enumerate`). What it does not look at is where it starts:
the first address is the low byte of the address of the action, whatever that is. No other action
hands out addresses (`Action.sends_session`).
-/

namespace BusMaster

/-- the assignment that a request asks for: the one that its echo confirms -/
def Assignment.asked? (request : Bytes) : Option Assignment :=
  Assignment.confirmed? request (.ok request)

/-- the addresses that the requests assign, in order -/
def assignedAddresses (requests : List Bytes) : List Nat :=
  (requests.filterMap Assignment.asked?).map fun a => a.unit.value.toNat

theorem assignedAddresses_append (requests more : List Bytes) :
    assignedAddresses (requests ++ more) =
      assignedAddresses requests ++ assignedAddresses more := by
  simp [assignedAddresses]

theorem assignedAddresses_of_none {requests : List Bytes}
    (none : ∀ request ∈ requests, Assignment.asked? request = none) :
    assignedAddresses requests = [] := by
  rw [assignedAddresses, List.filterMap_eq_nil_iff.2 none, List.map_nil]

/-- the request for all units to forget their addresses -/
def resetRequest : Bytes := [UnitId.broadcast.value, FunctionCode.enumerationReset.wire]

/-- the requests of an enumeration: nothing, or the reset and then consecutive addresses -/
structure Enumerates (first : Nat) (begun : List Bytes) : Prop where
  reset : begun = [] ∨ ∃ rest, begun = resetRequest :: rest
  addresses : ∃ count, assignedAddresses begun = List.range' first count ∧
    count ≤ Extended.maxAssigned ∧ first + count ≤ 256

namespace Extended

/-- an enumeration after the reset, with so many addresses handed out -/
structure Handed (first count : Nat) (begun : List Bytes) : Prop where
  reset : ∃ rest, begun = resetRequest :: rest
  addresses : assignedAddresses begun = List.range' first count
  few : count ≤ maxAssigned
  last : first + count ≤ 256

namespace Handed

variable {first count : Nat} {begun : List Bytes}

theorem enumerates (h : Handed first count begun) : Enumerates first begun :=
  ⟨.inr h.reset, count, h.addresses, h.few, h.last⟩

/-- A request that assigns nothing. -/
theorem other (h : Handed first count begun) {request : Bytes}
    (none : Assignment.asked? request = none) : Handed first count (begun ++ [request]) := by
  obtain ⟨rest, rfl⟩ := h.reset
  refine ⟨⟨rest ++ [request], rfl⟩, ?_, h.few, h.last⟩
  rw [assignedAddresses_append, h.addresses, assignedAddresses_of_none (by simpa using none),
    List.append_nil]

/-- A request that assigns the next address. -/
theorem next (h : Handed first count begun) {request : Bytes} {a : Assignment}
    (asked : Assignment.asked? request = some a) (unit : a.unit.value.toNat = first + count)
    (more : count < maxAssigned) : Handed first (count + 1) (begun ++ [request]) := by
  obtain ⟨rest, rfl⟩ := h.reset
  refine ⟨⟨rest ++ [request], rfl⟩, ?_, more, ?_⟩
  · have one : assignedAddresses [request] = [first + count] := by
      rw [assignedAddresses, List.filterMap_cons_some asked]
      exact congrArg (· :: []) unit
    rw [assignedAddresses_append, h.addresses, one, List.range'_1_concat]
  · have small := a.unit.value.toNat_lt
    omega

end Handed

theorem asked?_serialQuery {q : Query UInt32} (h : serialQuery = .ok q) :
    Assignment.asked? q.request = none :=
  serialQuery_unassigning.unconfirmed q h _

theorem toNat_next {next : UInt8} (notLast : next ≠ 255) : (next + 1).toNat = next.toNat + 1 := by
  have inside : next.toNat ≠ 255 := fun h => notLast (UInt8.toNat_inj.1 h)
  have small : next.toNat < 256 := next.toNat_lt
  rw [UInt8.toNat_add]
  change (next.toNat + 1) % 256 = _
  omega

/-- **One address after the other.** What is still to do of an enumeration goes on with the next
address, and never past the highest unit id. -/
theorem throughout_assignFrom {first : Nat} (more : Nat) {next : UInt8} {done : List Assignment}
    {count : Nat} {begun : List Bytes} (handed : Handed first count begun)
    (hnext : next.toNat = first + count) (limit : count + more = maxAssigned) :
    (assignFrom more next done).Throughout (fun begun _ => Enumerates first begun) begun := by
  induction more generalizing next done count begun with
  | zero => exact ⟨handed.enumerates, handed.enumerates⟩
  | succ more ih =>
    rw [assignFrom]
    rcases hq : serialQuery with fault | q
    · exact ⟨handed.enumerates, handed.enumerates⟩
    have queried := handed.other (asked?_serialQuery hq)
    refine ⟨handed.enumerates, fun fault => ?_, fun result => ?_⟩
    · cases fault <;> exact ⟨handed.enumerates, handed.enumerates⟩
    rcases result with fault | response
    · cases fault <;> exact ⟨queried.enumerates, queried.enumerates⟩
    refine Session.throughout_bind (Session.throughout_settle queried.enumerates ?_)
    rcases q.accept response with fault | serial
    · exact queried.enumerates
    refine Session.throughout_bind (Session.throughout_ofQuery queried.enumerates
      (fun _ => queried.enumerates) fun qa ha => ?_)
    have assigned := queried.next (Assignment.confirmed?_assignment ha) hnext (by omega)
    refine ⟨assigned.enumerates, fun result => ?_⟩
    rcases result.bind qa.accept with fault | _
    · exact assigned.enumerates
    rw [Session.Onward, Session.Throughout]
    split
    · exact ⟨assigned.enumerates, assigned.enumerates⟩
    · rename_i notLast
      refine ih assigned ?_ (by omega)
      rw [toNat_next notLast, hnext, Nat.add_assoc]

/-- **An enumeration begins with the reset, and then hands out consecutive addresses.** -/
theorem throughout_enumerate (first : UnitId) :
    (enumerate first).Throughout (fun begun _ => Enumerates first.value.toNat begun) [] := by
  have small : first.value.toNat < 256 := first.value.toNat_lt
  have nothing : Enumerates first.value.toNat [] :=
    ⟨.inl rfl, 0, rfl, Nat.zero_le _, by omega⟩
  rw [enumerate]
  rcases hq : reset with fault | q
  · exact ⟨nothing, nothing⟩
  obtain rfl := Query.make_eq_ok hq
  have handed : Handed first.value.toNat 0 [resetRequest] :=
    ⟨⟨[], rfl⟩, rfl, Nat.zero_le _, by omega⟩
  refine ⟨nothing, fun fault => ⟨nothing, nothing⟩, fun result => ?_⟩
  rcases result with fault | _
  · exact ⟨handed.enumerates, handed.enumerates⟩
  · exact throughout_assignFrom maxAssigned handed rfl (Nat.zero_add _)

end Extended

/-! ## Actions -/

theorem Unassigning.sends {α : Type} {e : Except RequestFault (Query α)} (h : Unassigning e) :
    (Session.ofQuery e).Sends fun request => Assignment.asked? request = none :=
  Session.sends_ofQuery fun q hq => h.unconfirmed q hq _

namespace Action

/-- the action hands out logical addresses -/
def IsHandOut (a : Action) : Prop := a.action = .write ∧ a.cls = .setLogicalAddress

instance (a : Action) : Decidable a.IsHandOut := inferInstanceAs (Decidable (_ ∧ _))

variable (n : Node) (a : Action)

/-- No other action assigns an address. -/
theorem sends_session (other : ¬a.IsHandOut) :
    (a.session n).Sends fun request => Assignment.asked? request = none := by
  have query {α : Type} {e : Except RequestFault (Query α)} (h : Unassigning e) (g : α → Gain) :
      ((Session.ofQuery e).map g).Sends fun request => Assignment.asked? request = none :=
    h.sends.bind fun _ => trivial
  rw [session]
  split
  case h_1 =>
    rw [readSession]
    dsimp only
    split
    · exact query (Protocol.unassigning_readCoils ..) _
    · exact query (Protocol.unassigning_readDiscreteInputs ..) _
    · exact query (Protocol.unassigning_readHoldingRegisters ..) _
    · exact query (Protocol.unassigning_readInputRegisters ..) _
    · exact trivial
  case h_2 write =>
    rw [writeSession]
    dsimp only
    split
    · rename_i cls
      exact absurd ⟨write, cls⟩ other
    · exact query (unassigning_coilQuery ..) _
    · exact query (Protocol.unassigning_writeRegisters ..) _
    · split
      · exact query (Protocol.unassigning_writeCoils ..) _
      · exact trivial
    · exact trivial
  case h_3 =>
    rw [statusSession]
    dsimp only
    split
    · exact (Unassigning.make (by decide) ..).sends.bind fun _ => trivial
    · exact (Unassigning.make (by decide) ..).sends.bind fun _ => trivial
    · exact (Unassigning.make (by decide) ..).sends.bind fun _ => trivial
    · exact trivial

/-- A hand-out of addresses is an enumeration from the low byte of its address on, if its node knows
how. -/
theorem throughout_handOut (handOut : a.IsHandOut) :
    (a.session n).Throughout
      (fun begun _ => Enumerates (a.address.toNat % 256) begun) [] := by
  obtain ⟨write, cls⟩ := handOut
  have hfirst : a.address.toUInt8.toNat = a.address.toNat % 256 := UInt16.toNat_toUInt8 _
  have nothing : Enumerates (a.address.toNat % 256) [] :=
    ⟨.inl rfl, 0, rfl, Nat.zero_le _, by omega⟩
  simp only [session, write, writeSession, cls]
  cases n.protocol with
  | standard => exact ⟨nothing, nothing⟩
  | vendor =>
    rw [← hfirst]
    exact Session.throughout_map (Extended.throughout_enumerate ⟨a.address.toUInt8⟩)

end Action

end BusMaster
