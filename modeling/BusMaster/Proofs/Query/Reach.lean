import BusMaster.Proofs.Query.Requests

/-!
# The end of the address space

Addresses end at `0xFFFF`. The standard functions look at the last address of a range, so they hand
over nothing that goes past the end. The extended functions look at no more than the first register
of a range, and at nothing when the packed address is given to them. A range that starts before the
end and goes past it is handed over as it is, and only a range that starts past the end is refused
(`requests_reach_past_last_address_iff`).
-/

namespace BusMaster

/-- the number of the last coil or register that a request covers -/
def RequestFields.last (fields : RequestFields) : Nat := fields.start + fields.covered - 1

namespace Transfer

variable {α σ : Type} {x : Transfer} {e : Except RequestFault (Query α)}

/-- the number of the last coil or register that is asked for -/
def last (x : Transfer) : Nat := x.start + x.count - 1

theorem Told.last {fields : RequestFields} (h : x.Told fields) : fields.last = x.last := by
  rw [RequestFields.last, Transfer.last, h.start, h.covered]

/-- Where all addresses are checked, the last one exists. -/
theorem Allowed.last_le (h : x.Allowed) (whole : x.checked = x.count) : x.last ≤ 0xFFFF := by
  obtain ⟨⟨-, pos, -⟩, addressable⟩ := h
  rw [Addressable, whole] at addressable
  rw [show UInt16.size = 0x10000 from rfl] at addressable
  rw [Transfer.last]
  omega

/-- What is handed over tells a transfer that is allowed. -/
theorem Yields.allowed_of_handed (h : x.Yields e) {c : Carrier σ} {s : σ} {request : Bytes}
    {fields : RequestFields} (handed : request ∈ (Session.ofQuery e).handed c s)
    (hfields : RequestFields.of? request = some fields) : x.Allowed ∧ x.Told fields := by
  rcases h.refused_or_handed c s with ⟨none, -⟩ | ⟨allowed, q, told, hq, -, htold, htells⟩
  · rw [none] at handed
    cases handed
  · rw [hq] at handed
    obtain rfl := List.mem_singleton.1 handed
    obtain rfl := Option.some.inj (hfields.symm.trans htold)
    exact ⟨allowed, htells⟩

/-- A transfer that is refused for its addresses only is refused as such. -/
theorem Yields.run_of_not_addressable (h : x.Yields e) (countable : x.Countable)
    (outside : ¬x.Addressable) (c : Carrier σ) (s : σ) :
    (Session.ofQuery e).handed c s = [] ∧
      (Session.ofQuery e).run c s = (.error (.configuration .addressOverflow), s) := by
  rcases h.refused_or_handed c s with ⟨none, cause, refused, hrun⟩ | ⟨allowed, -⟩
  · exact ⟨none, by rw [hrun, refused.blamed countable]⟩
  · exact absurd allowed.2 outside

end Transfer

/-- **A request reaches past the last address when a transfer that ends there is allowed.** With
that the standard functions, which check all addresses, hand over no such request. A transfer that
is refused for the addresses that are checked is an address overflow, and nothing is handed over. -/
theorem requests_reach_past_last_address_iff {α σ : Type} {o : Operation α} (held : o.Held)
    {x : Transfer} (transfer : o.transfer? = some x) (c : Carrier σ) (s : σ) :
    ((∃ request ∈ o.session.handed c s, ∃ fields, RequestFields.of? request = some fields ∧
        0xFFFF < fields.last) ↔ x.Allowed ∧ 0xFFFF < x.last) ∧
      (x.checked = x.count → ∀ request ∈ o.session.handed c s, ∀ fields,
        RequestFields.of? request = some fields → fields.last ≤ 0xFFFF) ∧
      (x.Countable → ¬x.Addressable → o.session.handed c s = [] ∧
        o.session.run c s = (.error (.configuration .addressOverflow), s)) := by
  obtain ⟨e, hsession, yields⟩ := Operation.exists_query held transfer
  rw [hsession]
  refine ⟨⟨?_, ?_⟩, fun whole request handed fields hfields => ?_, fun countable outside =>
    yields.run_of_not_addressable countable outside c s⟩
  · rintro ⟨request, handed, fields, hfields, past⟩
    obtain ⟨allowed, told⟩ := yields.allowed_of_handed handed hfields
    exact ⟨allowed, told.last ▸ past⟩
  · rintro ⟨allowed, past⟩
    rcases yields.refused_or_handed c s with ⟨-, cause, refused, -⟩ |
      ⟨-, request, fields, handed, -, hfields, told⟩
    · exact absurd allowed refused.notAllowed
    · exact ⟨request, handed ▸ List.mem_singleton_self request, fields, hfields,
        told.last.symm ▸ past⟩
  · obtain ⟨allowed, told⟩ := yields.allowed_of_handed handed hfields
    rw [told.last]
    exact allowed.last_le whole

/-! ## The last register and the one behind it

Unit 17 is asked for two registers from the last one on.
-/

namespace Edge

/-- read two registers from the last one on -/
def operation (p : Protocol) : Operation Bytes := .readHoldingRegisters p ⟨17⟩ ⟨0xFFFF, 0, 2⟩

/-- The extended request for both is handed over, though there is only one. The standard one is
refused. -/
theorem request_reaches_past_last_address :
    ((operation .vendor).Held ∧ (operation .vendor).transfer? =
        some (.extended ⟨17⟩ .readFromIndex ⟨0xFFFF, 0, 2⟩ 2 maxReadRegisters)) ∧
      (∃ request ∈ (operation .vendor).session.handed .silent [],
        ∃ fields, RequestFields.of? request = some fields ∧ 0xFFFF < fields.last) ∧
      (operation .vendor).session.handed .silent [] = [[17, 0x42, 63, 127, 7, 0, 2]] ∧
      (operation .standard).session.run .silent [] =
        (.error (.configuration .addressOverflow), []) := by
  obtain ⟨past, -⟩ := requests_reach_past_last_address_iff (o := operation .vendor) trivial rfl
    .silent []
  obtain ⟨-, -, refused⟩ := requests_reach_past_last_address_iff (o := operation .standard) trivial
    rfl .silent []
  exact ⟨⟨trivial, rfl⟩, past.2 ⟨by decide, by decide⟩, by decide +kernel,
    (refused (by decide) (by decide)).2⟩

end Edge

end BusMaster
