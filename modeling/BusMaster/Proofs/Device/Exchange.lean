import BusMaster.Engine.Execution
import BusMaster.Proofs.Device.Standard

/-!
# Actions on an ideal device

The session of an action that reads or writes data, run on an ideal device with the standard
functions: what it brings or leaves when it ends well. A range that was accepted does not go past
the last address, so here addresses are numbers, and what lies outside the range of a write stays
(`coils_writeCoils_of_outside`, `registers_writeRegisters_of_outside`).
-/

namespace BusMaster

theorem sub_toNat_eq {x start : UInt16} {i : Nat} (hx : x.toNat = start.toNat + i) :
    (x - start).toNat = i := by
  have hbound := x.toNat_lt
  rw [UInt16.toNat_sub]
  omega

theorem le_sub_toNat {x start : UInt16} {n : Nat} (fits : start.toNat + n ≤ 2 ^ 16)
    (hx : x.toNat < start.toNat ∨ start.toNat + n ≤ x.toNat) : n ≤ (x - start).toNat := by
  have hbound := x.toNat_lt
  have hstart := start.toNat_lt
  rw [UInt16.toNat_sub]
  omega

namespace Image

theorem coils_writeCoils (m : Image) {start x : UInt16} {bits : List Bool} {i : Nat}
    (hi : i < bits.length) (hx : x.toNat = start.toNat + i) :
    (m.writeCoils start bits).coils x = bits.getD i false := by
  change bits.getD (x - start).toNat (m.coils x) = _
  rw [sub_toNat_eq hx, List.getD_eq_getElem _ _ hi, List.getD_eq_getElem _ _ hi]

theorem coils_writeCoils_of_outside (m : Image) {start x : UInt16} {bits : List Bool}
    (fits : start.toNat + bits.length ≤ 2 ^ 16)
    (hx : x.toNat < start.toNat ∨ start.toNat + bits.length ≤ x.toNat) :
    (m.writeCoils start bits).coils x = m.coils x :=
  List.getD_eq_default _ _ (le_sub_toNat fits hx)

theorem registers_writeRegisters (m : Image) {start x : UInt16} {ws : List UInt16} {i : Nat}
    (hi : i < ws.length) (hx : x.toNat = start.toNat + i) :
    some ((m.writeRegisters start ws).registers x) = ws[i]? := by
  change some (ws.getD (x - start).toNat (m.registers x)) = _
  rw [sub_toNat_eq hx, List.getD_eq_getElem _ _ hi, List.getElem?_eq_getElem hi]

theorem registers_writeRegisters_of_outside (m : Image) {start x : UInt16} {ws : List UInt16}
    (fits : start.toNat + ws.length ≤ 2 ^ 16)
    (hx : x.toNat < start.toNat ∨ start.toNat + ws.length ≤ x.toNat) :
    (m.writeRegisters start ws).registers x = m.registers x :=
  List.getD_eq_default _ _ (le_sub_toNat fits hx)

end Image

namespace Action

variable {a : Action} {unit : UnitId} {m m' : Image} {g : Gain}

/-! ## What an action asks for -/

theorem session_readCoils (n : Node) (action : a.action = .read) (cls : a.cls = .coil) :
    a.session n = (Session.ofQuery (n.protocol.readCoils n.unit a.range)).map fun s =>
      .payload (.bits s) := by
  simp only [session, action, readSession, cls]

theorem session_readRegisters (n : Node) (action : a.action = .read)
    (cls : a.cls = .holdingRegister) :
    a.session n = (Session.ofQuery (n.protocol.readHoldingRegisters n.unit a.range)).map
      fun bytes => .payload (.registers bytes) := by
  simp only [session, action, readSession, cls]

theorem session_writeCoils (n : Node) {s : BitSeq} (action : a.action = .write)
    (cls : a.cls = .coil) (payload : a.payload = some (.bits s)) :
    a.session n = (Session.ofQuery (a.coilQuery n s)).map fun () => .nothing := by
  simp only [session, action, writeSession, cls, payload]

theorem session_writeRegisters (n : Node) {bytes : Bytes} (action : a.action = .write)
    (cls : a.cls = .holdingRegister) (payload : a.payload = some (.registers bytes)) :
    a.session n = (Session.ofQuery (n.protocol.writeRegisters n.unit a.range bytes)).map
      fun () => .nothing := by
  simp only [session, action, writeSession, cls, payload]

/-- Bits of registers are written in the extended protocol only. -/
theorem session_writeRegisterBits {s : BitSeq} (action : a.action = .write)
    (cls : a.cls = .holdingRegister) (payload : a.payload = some (.bits s)) :
    a.session ⟨unit, .vendor⟩ = (Session.ofQuery (Extended.writeBits unit a.range s)).map
      fun () => .nothing := by
  simp only [session, action, writeSession, cls, payload, Protocol.writeCoils]

/-! ## The standard functions -/

/-- A read of coils that ends well brings the coils of its range. -/
theorem run_session_readCoils (action : a.action = .read) (cls : a.cls = .coil)
    (h : (a.session ⟨unit, .standard⟩).run Image.carrier m = (.ok g, m')) :
    m' = m ∧ ∃ s : BitSeq, g = .payload (.bits s) ∧ s.order = .lsb0 ∧
      s.size = a.length.toNat ∧
      a.address.toNat + a.offset.toNat + a.length.toNat ≤ 2 ^ 16 ∧
      ∀ i < a.length.toNat, ∀ x : UInt16, x.toNat = a.address.toNat + a.offset.toNat + i →
        s.bit i = m.coils x := by
  rw [session_readCoils _ action cls] at h
  replace h := Session.run_map_eq_ok h
  obtain ⟨s, h, rfl⟩ := h
  obtain ⟨q, hq⟩ := Session.ofQuery_eq_ok h
  obtain ⟨start, s', hstart, hrun, hsize, horder, hbits⟩ := Image.run_readCoils hq m
  rw [hq, hrun] at h
  obtain ⟨hs, rfl⟩ := Prod.mk.inj h
  obtain rfl := Except.ok.inj hs
  obtain ⟨hstart, -, -, hfits⟩ := AddressRange.validate_eq_ok hstart
  change start.toNat = a.address.toNat + a.offset.toNat at hstart
  change start.toNat + a.length.toNat ≤ 2 ^ 16 at hfits
  refine ⟨rfl, s', rfl, horder, hsize, hstart ▸ hfits, fun i hi x hx => ?_⟩
  rw [hbits i hi]
  refine congrArg m.coils (UInt16.toNat_inj.1 ?_)
  have hbound := x.toNat_lt
  rw [UInt16.toNat_add, UInt16.toNat_ofNat_of_lt' (hi.trans a.length.toNat_lt)]
  omega

/-- A read of registers that ends well brings the registers of its range. -/
theorem run_session_readRegisters (action : a.action = .read) (cls : a.cls = .holdingRegister)
    (h : (a.session ⟨unit, .standard⟩).run Image.carrier m = (.ok g, m')) :
    m' = m ∧ ∃ us : List UInt16, g = .payload (.registers (wordsBytes us)) ∧
      us.length = a.length.toNat ∧
      a.address.toNat + a.offset.toNat + a.length.toNat ≤ 2 ^ 16 ∧
      ∀ i < a.length.toNat, ∀ x : UInt16, x.toNat = a.address.toNat + a.offset.toNat + i →
        us[i]? = some (m.registers x) := by
  rw [session_readRegisters _ action cls] at h
  replace h := Session.run_map_eq_ok h
  obtain ⟨bytes, h, rfl⟩ := h
  obtain ⟨q, hq⟩ := Session.ofQuery_eq_ok h
  obtain ⟨start, hstart, hrun⟩ := Image.run_readHoldingRegisters hq m
  rw [hq, hrun] at h
  obtain ⟨hs, rfl⟩ := Prod.mk.inj h
  obtain rfl := Except.ok.inj hs
  obtain ⟨hstart, -, -, hfits⟩ := AddressRange.validate_eq_ok hstart
  change start.toNat = a.address.toNat + a.offset.toNat at hstart
  change start.toNat + a.length.toNat ≤ 2 ^ 16 at hfits
  refine ⟨rfl, _, rfl, Image.length_readRegisters .., hstart ▸ hfits, fun i hi x hx => ?_⟩
  change i < a.range.count.toNat at hi
  rw [Image.getElem?_readRegisters _ _ hi]
  refine congrArg (some <| m.registers ·) (UInt16.toNat_inj.1 ?_)
  change i < a.length.toNat at hi
  have hbound := x.toNat_lt
  rw [UInt16.toNat_add, UInt16.toNat_ofNat_of_lt' (hi.trans a.length.toNat_lt)]
  omega

/-- A write of coils that ends well leaves the bits of its payload in its range. -/
theorem run_session_writeCoils {s : BitSeq} (action : a.action = .write) (cls : a.cls = .coil)
    (payload : a.payload = some (.bits s)) (order : s.order = .lsb0) (small : s.size < 2 ^ 16)
    (h : (a.session ⟨unit, .standard⟩).run Image.carrier m = (.ok g, m')) :
    ∃ start : UInt16, start.toNat = a.address.toNat + a.offset.toNat ∧
      start.toNat + s.size ≤ 2 ^ 16 ∧ m' = m.writeCoils start s.toList := by
  rw [session_writeCoils _ action cls payload] at h
  obtain ⟨⟨⟩, h, -⟩ := Session.run_map_eq_ok h
  rw [coilQuery] at h
  split at h
  · rename_i single
    split at h
    · rename_i value hvalue
      rw [BitSeq.get] at hvalue
      split at hvalue
      · rename_i pos
        have hbits : s.toList = [value] := by
          have hsize : s.size = 1 := by omega
          rw [BitSeq.toList, hsize]
          exact congrArg (fun b => [b]) (Except.ok.inj hvalue)
        obtain ⟨q, hq⟩ := Session.ofQuery_eq_ok h
        obtain ⟨start, hstart, hrun⟩ := Image.run_writeCoil hq m
        rw [hq, hrun] at h
        obtain ⟨-, rfl⟩ := Prod.mk.inj h
        have hbound := start.toNat_lt
        exact ⟨start, AddressRange.start_eq_ok hstart, by omega, by rw [hbits]⟩
      · cases hvalue
    · cases h
  · obtain ⟨q, hq⟩ := Session.ofQuery_eq_ok h
    obtain ⟨start, hstart, hrun⟩ := Image.run_writeCoils order small hq m
    rw [hq, hrun] at h
    obtain ⟨-, rfl⟩ := Prod.mk.inj h
    obtain ⟨hstart, -, -, hfits⟩ := AddressRange.validate_eq_ok hstart
    change start.toNat + (UInt16.ofNat s.size).toNat ≤ 2 ^ 16 at hfits
    rw [UInt16.toNat_ofNat_of_lt' small] at hfits
    exact ⟨start, hstart, hfits, rfl⟩

/-- A write of registers that ends well leaves the words of its payload in its range. -/
theorem run_session_writeRegisters {ws : List UInt16} (action : a.action = .write)
    (cls : a.cls = .holdingRegister) (payload : a.payload = some (.registers (wordsBytes ws)))
    (small : ws.length < 2 ^ 16)
    (h : (a.session ⟨unit, .standard⟩).run Image.carrier m = (.ok g, m')) :
    ∃ start : UInt16, start.toNat = a.address.toNat + a.offset.toNat ∧
      start.toNat + ws.length ≤ 2 ^ 16 ∧ m' = m.writeRegisters start ws := by
  rw [session_writeRegisters _ action cls payload] at h
  obtain ⟨⟨⟩, h, -⟩ := Session.run_map_eq_ok h
  obtain ⟨q, hq⟩ := Session.ofQuery_eq_ok h
  obtain ⟨start, hstart, hrun⟩ := Image.run_writeRegisters small hq m
  rw [hq, hrun] at h
  obtain ⟨-, rfl⟩ := Prod.mk.inj h
  obtain ⟨hstart, -, -, hfits⟩ := AddressRange.validate_eq_ok hstart
  change start.toNat + (UInt16.ofNat ws.length).toNat ≤ 2 ^ 16 at hfits
  rw [UInt16.toNat_ofNat_of_lt' small] at hfits
  exact ⟨start, hstart, hfits, rfl⟩

/-- Bits of registers are refused at once, whoever carries the request. -/
theorem run_session_registerBits {s : BitSeq} (action : a.action = .write)
    (cls : a.cls = .holdingRegister) (payload : a.payload = some (.bits s)) {σ : Type}
    (c : Carrier σ) (t : σ) :
    (a.session ⟨unit, .standard⟩).run c t = (.error .unsupported, t) := by
  simp only [session, action, writeSession, cls, payload]
  rfl

end Action

end BusMaster
