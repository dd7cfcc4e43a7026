import BusMaster.Proofs.Engine.Turns
import BusMaster.Proofs.Query.Assigning

/-!
# Who is given which address

Two unit ids are not for units with an address of their own: all units listen to 0, and those
without an address answer on 1. An address from the field of an action has 16 bits, and a unit id
has 8. So a hand-out is orderly if it hands out consecutive addresses from the one of its action on,
none of them reserved, and if nothing goes out for an address that cannot be used like this
(`Turn.Orderly`).

Nothing is looked at before the reset goes out, and of the address only the low byte is used. So in
every run the addresses are consecutive from that byte on, and a hand-out is orderly exactly if its
address was one to begin with, or it came to no exchange (`hand_out_orderly_iff`).
-/

namespace BusMaster

/-- the address can be that of a unit, and is not reserved -/
def Action.IsUsable (a : Action) : Prop := 2 ≤ a.address.toNat ∧ a.address.toNat ≤ 255

/-- the addresses that the exchanges of the execution hand out, in order -/
def Turn.addresses (x : Turn) : List Nat := assignedAddresses x.requests

/-- the execution hands out addresses as it should -/
structure Turn.Orderly (x : Turn) : Prop where
  /-- they are the address of the action and those after it -/
  consecutive : ∃ count, x.addresses = List.range' x.action.address.toNat count
  /-- none is that of all units, or that of the units without an address -/
  unreserved : ∀ n ∈ x.addresses, n ≠ UnitId.broadcast.value.toNat ∧
    n ≠ UnitId.unassigned.value.toNat
  /-- an address that is of no use is refused before anything goes out -/
  refused : ¬x.action.IsUsable → x.requests = []

/-- of a hand-out: the reset, and consecutive addresses from the low byte on; of others: none -/
def addressRule : TurnRule := fun a begun _ =>
  (¬a.IsHandOut → assignedAddresses begun = []) ∧
    (a.IsHandOut → Enumerates (a.address.toNat % 256) begun)

/-- Whatever an action does, and whether its node is known or not, it keeps to this. -/
theorem Engine.throughout_sessionOf (e : Engine) (a : Action) :
    (e.sessionOf a).Throughout (addressRule a) [] := by
  have nothing : addressRule a [] none ∧ ∀ result, addressRule a [] (some result) := by
    have first : Enumerates (a.address.toNat % 256) [] :=
      ⟨.inl rfl, 0, rfl, Nat.zero_le _, by omega⟩
    exact ⟨⟨fun _ => rfl, fun _ => first⟩, fun _ => ⟨fun _ => rfl, fun _ => first⟩⟩
  rw [sessionOf]
  split
  · rename_i node _
    by_cases handOut : a.IsHandOut
    · exact (a.throughout_handOut node handOut).mono fun _ _ enumerates =>
        ⟨fun other => absurd handOut other, fun _ => enumerates⟩
    · have none := (a.sends_session node handOut).throughout (List.forall_mem_nil _)
      exact none.mono fun _ _ unasked =>
        ⟨fun _ => assignedAddresses_of_none unasked, fun h => absurd h handOut⟩
  · exact ⟨nothing.1, nothing.2 _⟩

/-- A hand-out of consecutive addresses from the low byte on is orderly if its address was of use,
or nothing went out. -/
theorem Turn.orderly_iff {x : Turn}
    (enumerates : Enumerates (x.action.address.toNat % 256) x.requests) :
    x.Orderly ↔ x.requests = [] ∨ x.action.IsUsable := by
  obtain ⟨count, haddresses, -, -⟩ := enumerates.addresses
  constructor
  · intro orderly
    by_cases usable : x.action.IsUsable
    · exact .inr usable
    · exact .inl (orderly.refused usable)
  · rintro (none | usable)
    · have noAddress : x.addresses = [] := by
        rw [addresses, none]
        rfl
      exact ⟨⟨0, noAddress⟩, fun n hn => (by rw [noAddress] at hn; cases hn), fun _ => none⟩
    · obtain ⟨low, high⟩ := usable
      rw [Nat.mod_eq_of_lt (Nat.lt_succ_of_le high)] at haddresses
      refine ⟨⟨count, haddresses⟩, fun n hn => ?_, fun unusable => absurd ⟨low, high⟩ unusable⟩
      rw [addresses, haddresses, List.mem_range'_1] at hn
      rw [show UnitId.broadcast.value.toNat = 0 from rfl,
        show UnitId.unassigned.value.toNat = 1 from rfl]
      omega

/-- **Reserved addresses are handed out when they are asked for.** In every run of an engine whose
transceiver the host may use as well, only the hand-out of addresses assigns any. Whatever the
address of its action, it begins with the reset, unless it comes to no exchange, and then hands out
consecutive addresses from the low byte of that address on, 247 at most and none past 255. So it is
orderly exactly if the address is from 2 to 255, or it came to no exchange. -/
theorem hand_out_orderly_iff (settings : EngineSettings) (transport : TransportSettings)
    (detail : Detail) (attempts : List Attempt) (deeds : List Deed) :
    let first : Shared :=
      { engine := { settings, transceiver := { settings := transport, detail, attempts } } }
    ∀ x ∈ (Tally.run {} first deeds).turns,
      (¬x.action.IsHandOut → x.addresses = []) ∧
      (x.action.IsHandOut →
        (x.requests = [] ∨ ∃ rest, x.requests = resetRequest :: rest) ∧
        (∃ count, x.addresses = List.range' (x.action.address.toNat % 256) count ∧
          count ≤ 247 ∧ x.action.address.toNat % 256 + count ≤ 256) ∧
        (x.Orderly ↔ x.requests = [] ∨ 2 ≤ x.action.address.toNat ∧
          x.action.address.toNat ≤ 255)) := by
  intro first x hx
  have kept : Tally.Kept addressRule (Tally.run {} first deeds).turns
      (first.run deeds).engine.execution :=
    Tally.Kept.run (P := fun _ => True) (fun e a _ => e.throughout_sessionOf a)
      (Tally.Kept.empty ..) trivial deeds fun _ _ _ _ => trivial
  obtain ⟨other, handOut⟩ := kept.all x hx
  refine ⟨other, fun h => ?_⟩
  have enumerates := handOut h
  exact ⟨enumerates.reset, enumerates.addresses, Turn.orderly_iff enumerates⟩

/-! ## A unit that keeps the address of those without one

Addresses are to be handed out from 257 on, of which the low byte is 1. The unit that takes the
address 1 answers the next query again, and takes the address 2 as well.
-/

namespace Wrapped

/-- the hand-out of addresses from 257 on -/
def handOut : Action where
  dataset := 1
  node := 1
  cls := .setLogicalAddress
  action := .write
  address := 257
  length := 1

/-- one unit, which answers on 1 before and after it was given that address -/
def line : Line where
  writes := [.taken [], .taken [.bytes [0, 2, 0, 0, 0, 6, 1, 0x46, 0, 1, 2, 3]],
    .taken [.bytes [0, 3, 0, 0, 0, 7, 0, 0x6D, 0, 1, 2, 3, 1]],
    .taken [.bytes [0, 4, 0, 0, 0, 6, 1, 0x46, 0, 1, 2, 3]],
    .taken [.bytes [0, 5, 0, 0, 0, 7, 0, 0x6D, 0, 1, 2, 3, 2]], .taken []]

def first : Shared where
  engine := {
    settings := {}
    transceiver := {
      settings := { framing := .bridge, endpoint := .tcp "bus" 502 }
      attempts := [.ok line] } }

def moves : List Move :=
  [.connect, .addNode 1 ⟨⟨17⟩, .vendor⟩, .submit handOut] ++ List.replicate 20 (.advance .execution)

def turns : List Turn := (Tally.run {} first (moves.map .move)).turns

theorem turns_eq : turns.map (fun x =>
    (x.action.address, decide x.action.IsHandOut, x.addresses)) = [(257, true, [1, 2])] := by
  decide +kernel

/-- The reserved address 1 is handed out, and the hand-out is not orderly. -/
theorem reserved_address_handed_out :
    ∃ x ∈ turns, x.action.IsHandOut ∧ x.action.address = 257 ∧ x.addresses = [1, 2] ∧
      ¬x.Orderly := by
  obtain ⟨x, past, hturns, hx, -⟩ := List.map_eq_cons_iff.1 turns_eq
  obtain ⟨haddress, hhandOut, haddresses⟩ := Prod.mk.inj hx |>.imp_right Prod.mk.inj
  have hmem : x ∈ turns := by
    rw [hturns]
    exact List.mem_cons_self
  have isHandOut : x.action.IsHandOut := of_decide_eq_true hhandOut
  obtain ⟨-, -, iff⟩ := (hand_out_orderly_iff {} { framing := .bridge, endpoint := .tcp "bus" 502 }
    {} [.ok line] (moves.map .move) x hmem).2 isHandOut
  refine ⟨x, hmem, isHandOut, haddress, haddresses, fun orderly => ?_⟩
  rcases iff.1 orderly with none | ⟨-, high⟩
  · rw [Turn.addresses, none] at haddresses
    cases haddresses
  · rw [haddress] at high
    exact absurd high (by decide)

end Wrapped

end BusMaster
