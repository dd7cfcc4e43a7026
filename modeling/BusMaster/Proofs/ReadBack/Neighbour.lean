import Mathlib.Logic.Function.Basic
import BusMaster.Proofs.Device.Extended
import BusMaster.Proofs.Plant.Entries
import BusMaster.Proofs.Plant.Halves
import BusMaster.Proofs.ReadBack.Standard

/-!
# The other byte of a register

A byte is written with the register around it, and the catalog takes the other byte from the payload
that it keeps. What that byte is on the device when the write gets there is for the reads and writes
in between to decide. Here a catalog runs beside its devices (`Site.Step`): reads and writes that were
handed out are carried out at any later time, in any order and any number of times, and so it is with
the answers on their way back. Each answer carries along what its device held, and the catalog
remembers it for the payload it keeps (`Site.seen`). Over every such run that payload is the one that
was read (`Site.Faithful`), so the other byte is written as it was read last, and as zero before the
first read (`byte_write_leaves_what_was_read`).

All of this is about transactions that succeed. A request gets to its device whole, the device
carries it out, and what the engine takes for the response is the response to that request
(`Image.carrier`). On a line where a response comes too late, what was read of other registers can be
kept for what a dataset covers, and the other byte is written as it was there.
-/

namespace BusMaster

/-- the addresses of a dataset -/
def Dataset.range (d : Dataset) : AddressRange := ⟨d.address, d.offset, d.length⟩

/-! ## Registers in either protocol -/

/-- the first register of a range: an offset counts registers, or in the extended protocol bits -/
def Protocol.firstRegister : Protocol → AddressRange → Nat
  | .standard, r => r.address.toNat + r.offset.toNat
  | .vendor, r => r.address.toNat + r.offset.toNat / 16

/-- Registers added to the address are added to the first register. -/
theorem Protocol.firstRegister_add (p : Protocol) {r r' : AddressRange} {k : Nat}
    (h : r'.address.toNat = r.address.toNat + k) (offset : r'.offset = r.offset) :
    p.firstRegister r' = p.firstRegister r + k := by
  cases p <;> simp only [firstRegister, h, offset] <;> omega

namespace Action

variable {a : Action} {n : Node} {m m' : Image} {g : Gain}

/-- A read of registers that ends well brings the registers of its range. -/
theorem run_session_readHolding (action : a.action = .read) (cls : a.cls = .holdingRegister)
    (h : (a.session n).run Image.carrier m = (.ok g, m')) :
    ∃ start : UInt16, start.toNat = n.protocol.firstRegister a.range ∧
      g = .payload (.registers (wordsBytes (m.readRegisters start a.length.toNat))) := by
  obtain ⟨unit, protocol⟩ := n
  rw [session_readRegisters _ action cls] at h
  replace h := Session.run_map_eq_ok h
  obtain ⟨bytes, h, rfl⟩ := h
  obtain ⟨q, hq⟩ := Session.ofQuery_eq_ok h
  rw [hq] at h
  cases protocol with
  | standard =>
    obtain ⟨start, hstart, hrun⟩ := Image.run_readHoldingRegisters hq m
    rw [hrun] at h
    obtain ⟨hbytes, -⟩ := Prod.mk.inj h
    obtain rfl := Except.ok.inj hbytes
    exact ⟨start, (AddressRange.validate_eq_ok hstart).1, rfl⟩
  | vendor =>
    obtain ⟨span, hspan, hq⟩ := bind_eq_ok hq
    obtain ⟨-, ⟨start, hstart, haddress⟩, -⟩ := BitSpan.cover_eq_ok (ofConfig_eq_ok hspan)
    rw [hstart] at hq
    have hrun := Image.run_readFromIndex id hq m
    rw [show q.map id = q by simp [Query.map]] at hrun
    rw [hrun] at h
    obtain ⟨hbytes, -⟩ := Prod.mk.inj h
    obtain rfl := Except.ok.inj hbytes
    exact ⟨start, haddress, rfl⟩

/-- A write of registers that ends well leaves its words in its range. -/
theorem run_session_writeHolding {ws : List UInt16} (action : a.action = .write)
    (cls : a.cls = .holdingRegister) (payload : a.payload = some (.registers (wordsBytes ws)))
    (small : ws.length < 2 ^ 16) (h : (a.session n).run Image.carrier m = (.ok g, m')) :
    ∃ start : UInt16, start.toNat = n.protocol.firstRegister a.range ∧
      m' = m.writeRegisters start ws := by
  obtain ⟨unit, protocol⟩ := n
  cases protocol with
  | standard =>
    obtain ⟨start, hstart, -, rfl⟩ := run_session_writeRegisters action cls payload small h
    exact ⟨start, hstart, rfl⟩
  | vendor =>
    rw [session_writeRegisters _ action cls payload] at h
    obtain ⟨⟨⟩, h, -⟩ := Session.run_map_eq_ok h
    obtain ⟨q, hq⟩ := Session.ofQuery_eq_ok h
    rw [hq] at h
    obtain ⟨span, hspan, hq⟩ := bind_eq_ok hq
    obtain ⟨-, ⟨start, hstart, haddress⟩, -⟩ := BitSpan.cover_eq_ok (ofConfig_eq_ok hspan)
    rw [hstart] at hq
    rw [Image.run_writeToIndex hq small m] at h
    exact ⟨start, haddress, (Prod.mk.inj h).2.symm⟩

end Action

/-! ## Runs beside devices -/

/-- a catalog beside its devices -/
structure Site where
  catalog : Catalog := {}
  devices : UnitId → Image
  /-- what was handed out so far -/
  actions : List Action := []
  /-- what reads brought so far, each with what its device held -/
  answers : List (Message × Image) := []
  /-- what the device held when the payload kept for a dataset was read -/
  seen : DatasetId → Option Image := fun _ => none

namespace Site

variable {nodes : NodeId → Node} {s s' : Site}

/-- the site with an action handed out -/
def enqueue (s : Site) (a : Action) : Site := { s with actions := a :: s.actions }

/-- What happens at a site. Nobody else changes a device, and every transaction succeeds: what is
carried out is answered by its own device, with the response to its own request. -/
inductive Step (nodes : NodeId → Node) (s : Site) : Site → Prop
  /-- the host asks something of the catalog -/
  | host (o : Catalog.Operation) : (∀ m, o ≠ .apply m) →
      Step nodes s { s with catalog := (s.catalog.perform o).2 }
  /-- a dataset is polled -/
  | poll {id : DatasetId} {a : Action} : s.catalog.readAction id = .ok a → Step nodes s (s.enqueue a)
  /-- a write, of a channel or else -/
  | write {a : Action} : a.action = .write → Step nodes s (s.enqueue a)
  /-- an action is tried again -/
  | again {a : Action} : a ∈ s.actions → Step nodes s (s.enqueue a.retry)
  /-- an action is carried out, well or not -/
  | exchange {a : Action} {result : Except RequestFault Gain} {m' : Image} : a ∈ s.actions →
      (a.session (nodes a.node)).run Image.carrier (s.devices (nodes a.node).unit) = (result, m') →
      Step nodes s { s with devices := Function.update s.devices (nodes a.node).unit m' }
  /-- a read brings its answer -/
  | answer {a : Action} {p : Payload} {m' : Image} : a ∈ s.actions → a.action = .read →
      (a.session (nodes a.node)).run Image.carrier (s.devices (nodes a.node).unit)
        = (.ok (.payload p), m') →
      Step nodes s { s with
        devices := Function.update s.devices (nodes a.node).unit m'
        answers := (⟨a.dataset, p, a.internal⟩, s.devices (nodes a.node).unit) :: s.answers }
  /-- the catalog takes in an answer -/
  | apply {answer : Message × Image} {u : Update} {c' : Catalog} {lines : List LogLine} :
      answer ∈ s.answers → s.catalog.apply answer.1 = .ok (u, c', lines) →
      Step nodes s { s with
        catalog := c'
        actions := u.cascades ++ s.actions
        seen := Function.update s.seen answer.1.dataset (some answer.2) }

/-- the sites that come about, whatever the devices hold at first -/
inductive Reached (nodes : NodeId → Node) : Site → Prop
  | start (devices : UnitId → Image) : Reached nodes { devices := devices }
  | step {s s' : Site} : Reached nodes s → Step nodes s s' → Reached nodes s'

/-! ## What is kept was read -/

/-- the action reads what its dataset covers, as long as that is registered -/
structure Polls (c : Catalog) (a : Action) : Prop where
  given : a.dataset ≤ c.lastId
  covers : ∀ (key : String) (d : Dataset), c.definition? a.dataset = some (key, d) →
    a.node = d.node ∧ a.cls = d.cls ∧ a.range = d.range

/-- the payload is the registers of a dataset, as they were on a device -/
def ReadOf (n : Node) (d : Dataset) (m : Image) (p : Payload) : Prop :=
  ∃ start : UInt16, start.toNat = n.protocol.firstRegister d.range ∧
    p = .registers (wordsBytes (m.readRegisters start d.length.toNat))

/-- the message brings what its dataset covers on a device, as long as that is registered -/
structure Brings (nodes : NodeId → Node) (c : Catalog) (msg : Message) (m : Image) : Prop where
  given : msg.dataset ≤ c.lastId
  read : ∀ (key : String) (d : Dataset), c.definition? msg.dataset = some (key, d) →
    d.cls = .holdingRegister → ReadOf (nodes d.node) d m msg.payload

/-- what is handed out, what is on its way and what is kept is what was read -/
structure Faithful (nodes : NodeId → Node) (s : Site) : Prop where
  built : s.catalog.Built
  actions : ∀ a ∈ s.actions, a.action = .read → Polls s.catalog a
  answers : ∀ answer ∈ s.answers, Brings nodes s.catalog answer.1 answer.2
  /-- nothing was read for a number that is not given out yet -/
  unread : ∀ {id : DatasetId}, s.catalog.lastId < id → s.seen id = none
  kept : ∀ {id : DatasetId} {e : DatasetEntry}, s.catalog.datasets[id]? = some e →
    e.dataset.cls = .holdingRegister →
    (e.cache = none ∧ s.seen id = none) ∨
      ∃ p m, e.cache = some p ∧ s.seen id = some m ∧ ReadOf (nodes e.dataset.node) e.dataset m p

theorem Polls.precedes {c c' : Catalog} {a : Action} (h : Polls c a) (le : c.Precedes c') :
    Polls c' a :=
  ⟨h.given.trans le.lastId, fun key d live => h.covers key d (le.live h.given live)⟩

theorem Brings.precedes {c c' : Catalog} {msg : Message} {m : Image} (h : Brings nodes c msg m)
    (le : c.Precedes c') : Brings nodes c' msg m :=
  ⟨h.given.trans le.lastId, fun key d live => h.read key d (le.live h.given live)⟩

/-- A read of a dataset that is still registered brings what it covers. -/
theorem Polls.brings {c : Catalog} {a : Action} (h : Polls c a) (action : a.action = .read)
    {m m' : Image} {p : Payload}
    (hrun : (a.session (nodes a.node)).run Image.carrier m = (.ok (.payload p), m')) :
    Brings nodes c ⟨a.dataset, p, a.internal⟩ m := by
  refine ⟨h.given, fun key d live holding => ?_⟩
  obtain ⟨hnode, hcls, hrange⟩ := h.covers key d live
  obtain ⟨start, hstart, hp⟩ := Action.run_session_readHolding action (hcls.trans holding) hrun
  refine ⟨start, ?_, ?_⟩
  · rw [hstart, hnode, hrange]
  · rw [Gain.payload.inj hp]
    rw [show a.length = _ from congrArg AddressRange.count hrange]
    rfl

/-- What is read of a registered dataset polls it. -/
theorem polls_of_getElem? {c : Catalog} (built : c.Built) {id : DatasetId} {e : DatasetEntry}
    (he : c.datasets[id]? = some e) (a : Action) (dataset : a.dataset = id)
    (node : a.node = e.dataset.node) (cls : a.cls = e.dataset.cls)
    (range : a.range = e.dataset.range) : Polls c a := by
  subst dataset
  refine ⟨built.sound.given he, fun key d live => ?_⟩
  rw [Catalog.definition?, he] at live
  cases live
  exact ⟨node, cls, range⟩

theorem polls_of_readAction {c : Catalog} (built : c.Built) {id : DatasetId} {a : Action}
    (h : c.readAction id = .ok a) : Polls c a := by
  rw [Catalog.readAction] at h
  split at h
  · rename_i e he
    cases h
    exact polls_of_getElem? built he _ rfl rfl rfl rfl
  · cases h

/-- So do the reads that a change bitmap asks for. -/
theorem polls_of_cascade {c c' : Catalog} (built : c.Built) {msg : Message} {u : Update}
    {lines : List LogLine} (h : c.apply msg = .ok (u, c', lines)) {a : Action}
    (ha : a ∈ u.cascades) : Polls c a := by
  rw [Catalog.apply] at h
  split at h
  · cases h
  dsimp only at h
  split at h <;> cases h
  · obtain ⟨bitmap, -, ha⟩ := List.mem_flatMap.1 ha
    obtain ⟨⟨id, e⟩, he, rfl⟩ := List.mem_map.1 ha
    have he := Std.TreeMap.mem_toList_iff_getElem?_eq_some.1 (List.mem_filter.1 he).1
    exact polls_of_getElem? built he _ rfl rfl rfl rfl
  · cases ha

theorem Faithful.start (devices : UnitId → Image) :
    Faithful nodes { devices := devices } where
  built := .empty
  actions _ h := absurd h List.not_mem_nil
  answers _ h := absurd h List.not_mem_nil
  unread _ := rfl
  kept h := by
    change (∅ : Std.TreeMap DatasetId DatasetEntry)[_]? = _ at h
    simp at h

/-- Handing out an action that polls its dataset, if it reads, keeps all as it was read. -/
theorem Faithful.enqueue (h : Faithful nodes s) {a : Action}
    (polls : a.action = .read → Polls s.catalog a) : Faithful nodes (s.enqueue a) where
  __ := h
  actions b hb action := by
    rcases List.mem_cons.1 hb with rfl | hb
    · exact polls action
    · exact h.actions b hb action

/-- The catalog may change in any way but by what is read. -/
theorem Faithful.host (h : Faithful nodes s) {o : Catalog.Operation} (quiet : ∀ m, o ≠ .apply m) :
    Faithful nodes { s with catalog := (s.catalog.perform o).2 } := by
  have le := (Catalog.change_perform s.catalog o).precedes
  refine ⟨h.built.perform o, fun a ha action => (h.actions a ha action).precedes le,
    fun answer ha => (h.answers answer ha).precedes le,
    fun new => h.unread (Nat.lt_of_le_of_lt le.lastId new), fun {id e} he cls => ?_⟩
  cases Catalog.entered_perform he with
  | before he _ => exact h.kept he cls
  | read ho _ _ => exact absurd ho (quiet _)
  | new _ hid => exact .inl ⟨rfl, h.unread (hid ▸ Nat.lt_succ_self _)⟩

/-- What the catalog takes in was read, so what it keeps was. -/
theorem Faithful.apply (h : Faithful nodes s) {answer : Message × Image} {u : Update}
    {c' : Catalog} {lines : List LogLine} (ha : answer ∈ s.answers)
    (happly : s.catalog.apply answer.1 = .ok (u, c', lines)) :
    Faithful nodes { s with
      catalog := c'
      actions := u.cascades ++ s.actions
      seen := Function.update s.seen answer.1.dataset (some answer.2) } := by
  have applied := Catalog.applied_of_apply happly
  have le := applied.change.precedes
  have brings := h.answers answer ha
  refine ⟨h.built.apply happly, fun a ha action => ?_,
    fun answer ha => (h.answers answer ha).precedes le, fun {id} new => ?_, fun {id e} he cls => ?_⟩
  · rcases List.mem_append.1 ha with cascade | ha
    · exact (polls_of_cascade h.built happly cascade).precedes le
    · exact (h.actions a ha action).precedes le
  · have given := Nat.lt_of_le_of_lt le.lastId new
    have other : id ≠ answer.1.dataset := fun hid => absurd brings.given (hid ▸ Nat.not_le.2 given)
    exact (Function.update_of_ne other ..).trans (h.unread given)
  · cases applied.entered he with
    | before hold other =>
      have hseen : Function.update s.seen answer.1.dataset (some answer.2) id = s.seen id :=
        Function.update_of_ne (other _ rfl).symm ..
      simpa only [hseen] using h.kept hold cls
    | @read msg e hm hid hold =>
      cases hm
      subst hid
      refine .inr ⟨_, _, rfl, Function.update_self .., brings.read e.key e.dataset ?_ cls⟩
      rw [Catalog.definition?, hold]
      rfl
    | new ho _ => cases ho

/-- Whatever happens at a site, what is kept was read. -/
theorem Faithful.step (h : Faithful nodes s) (step : Step nodes s s') : Faithful nodes s' := by
  cases step with
  | host o quiet => exact h.host quiet
  | poll ha => exact h.enqueue fun _ => polls_of_readAction h.built ha
  | write action =>
    refine h.enqueue fun read => ?_
    rw [action] at read
    cases read
  | again ha => exact h.enqueue fun read => ⟨(h.actions _ ha read).given, (h.actions _ ha read).covers⟩
  | exchange _ _ => exact { h with }
  | answer ha action hrun =>
    refine { h with answers := fun b hb => ?_ }
    rcases List.mem_cons.1 hb with rfl | hb
    · exact (h.actions _ ha action).brings action hrun
    · exact h.answers b hb
  | apply ha happly => exact h.apply ha happly

theorem Reached.faithful (h : Reached nodes s) : Faithful nodes s := by
  induction h with
  | start devices => exact .start devices
  | step _ step ih => exact ih.step step

/-- a register as it was when its dataset was read last, zero before the first time -/
def held (s : Site) (id : DatasetId) (x : UInt16) : UInt16 :=
  match s.seen id with
  | some m => m.registers x
  | none => 0

theorem Faithful.holds (h : Faithful nodes s) {id : DatasetId} {e : DatasetEntry}
    (he : s.catalog.datasets[id]? = some e) (cls : e.dataset.cls = .holdingRegister) {i : Nat}
    (within : i / 16 < e.dataset.length.toNat) {x : UInt16}
    (hx : x.toNat = (nodes e.dataset.node).protocol.firstRegister e.dataset.range + i / 16) :
    Catalog.Holds i e.cache (s.held id x) := by
  rcases h.kept he cls with ⟨hcache, hseen⟩ | ⟨p, m, hcache, hseen, start, hstart, rfl⟩
  · rw [hcache, held, hseen]
    exact .unread
  · rw [hcache, held, hseen]
    refine .read ((Image.getElem?_readRegisters m start within).trans ?_)
    refine congrArg (some <| m.registers ·) (UInt16.toNat_inj.1 ?_)
    have hbound := x.toNat_lt
    rw [UInt16.toNat_add, UInt16.toNat_ofNat_of_lt' (within.trans e.dataset.length.toNat_lt)]
    omega

end Site

/-- **A byte that is written leaves the other byte of its register as it was read last.** Over every
run beside devices that nobody else changes, where every transaction succeeds, and however late the
write of an eight-bit channel gets to its device: one register changes at most, where the channel is,
and half of it is the value. The other half becomes what the device held when the payload kept for
the dataset was read, and zero if none was. -/
theorem byte_write_leaves_what_was_read {nodes : NodeId → Node} {s : Site}
    (h : s.Reached nodes) {t : State} {a : Action} (hwrite : s.catalog.buildWrite t = .ok a)
    {ch : Channel} {d : Dataset} (hch : s.catalog.channel? t.channel = some ch)
    (hd : s.catalog.dataset? ch.dataset = some d) (byte : ch.cls = .int8 ∨ ch.cls = .uint8)
    {m m' : Image} {g : Gain}
    (hrun : (a.session (nodes a.node)).run Image.carrier m = (.ok g, m')) :
    ∃ x : UInt16, x.toNat = (nodes d.node).protocol.firstRegister d.range + ch.position / 16 ∧
      m'.coils = m.coils ∧ (∀ y, y ≠ x → m'.registers y = m.registers y) ∧
      ch.encoding.encode ch.cls t.value = .ok (.bytes [byteAt (m'.registers x) ch.position]) ∧
      byteAt (m'.registers x) (ch.position + 8)
        = byteAt (s.held ch.dataset x) (ch.position + 8) := by
  have faithful := h.faithful
  obtain ⟨e, entry, field, he, hentry, cls, hfield, placed⟩ := Catalog.buildWrite_eq_ok hwrite
  obtain rfl : e.channel = ch := by
    rw [Catalog.channel?, he] at hch
    exact Option.some.inj hch
  obtain rfl : entry.dataset = d := by
    rw [Catalog.dataset?, hentry] at hd
    exact Option.some.inj hd
  obtain ⟨entry', hentry', fit⟩ := Catalog.checkChannel_eq_ok (faithful.built.sound.fits he)
  obtain rfl := Option.some.inj (hentry.symm.trans hentry')
  obtain ⟨hkind, hlast⟩ := Channel.checkFootprint_eq_ok fit
  have hwidth : e.channel.cls.width = 8 := by rcases byte with h | h <;> rw [h] <;> rfl
  have bytes : e.channel.cls.isBitField = false := by rcases byte with h | h <;> rw [h] <;> rfl
  have aligned : e.channel.position % 16 = 0 ∨ e.channel.position % 16 = 8 := by
    rw [Channel.position, hwidth]
    omega
  have fits := Encoding.encode_eq_ok hfield
  obtain ⟨b, rfl⟩ : ∃ b, field = .bytes [b] := by
    cases field with
    | bits s =>
      rw [fits.1] at bytes
      cases bytes
    | bytes data =>
      obtain ⟨b, rfl⟩ := List.length_eq_one_iff.1 (show data.length = 1 by
        have hdata := fits.2
        omega)
      exact ⟨b, rfl⟩
  cases placed with
  | @registers _ address fills haddress =>
    have holding := Channel.cls_of_fills fits hkind cls fills
    have hlength : entry.dataset.bitLength = 16 * entry.dataset.length.toNat := by
      simp [Dataset.bitLength, holding, MessageClass.isBits, MessageClass.isRegisters]
    have within : e.channel.position / 16 < entry.dataset.length.toNat := by
      rw [Channel.last, hwidth] at hlast
      omega
    obtain ⟨hi, lo, hmerge, -⟩ := Catalog.mergeByte_eq entry.cache e.channel.position b
    have hpayload : Catalog.registersOf entry.cache e.channel.position (.bytes [b])
        = wordsBytes [wordOf hi lo] := hmerge.trans (wordBytes_wordOf hi lo).symm
    obtain ⟨x, hx, rfl⟩ := Action.run_session_writeHolding rfl holding
      (congrArg (some <| Payload.registers ·) hpayload) (by simp) hrun
    have hplace : x.toNat = (nodes entry.dataset.node).protocol.firstRegister entry.dataset.range
        + e.channel.position / 16 :=
      hx.trans (Protocol.firstRegister_add _ haddress rfl)
    obtain ⟨w, hw, here, beside⟩ := Catalog.mergeByte_of_holds
      (faithful.holds hentry holding within hplace) aligned b
    obtain rfl : w = wordOf hi lo := List.head_eq_of_cons_eq (wordsBytes_inj.1 (hw.symm.trans hpayload))
    have written : (m.writeRegisters x [wordOf hi lo]).registers x = wordOf hi lo :=
      Option.some.inj (m.registers_writeRegisters (i := 0) Nat.one_pos rfl)
    refine ⟨x, hplace, rfl, fun y hy => ?_, ?_, ?_⟩
    · refine List.getD_eq_default _ _ (Nat.one_le_iff_ne_zero.2 fun hzero => hy ?_)
      have bound := x.toNat_lt
      have bound' := y.toNat_lt
      rw [UInt16.toNat_sub] at hzero
      exact UInt16.toNat_inj.1 (by omega)
    · rw [hfield, written, here]
    · rw [written, beside]

/-! ## A valve

Its two flows share one register. -/

namespace Valve

def dataset : Dataset where
  node := 1
  cls := .holdingRegister
  address := 40
  length := 1

def low : Channel where
  id := "low"
  dataset := 1
  index := 0
  cls := .uint8

def high : Channel where
  id := "high"
  dataset := 1
  index := 1
  cls := .uint8

def catalog : Catalog :=
  (((({} : Catalog).addDataset "valve" dataset).2.1.addChannel low).2.1.addChannel high).2.1

def nodes (_ : NodeId) : Node := ⟨⟨17⟩, .standard⟩

def device : Image where
  coils _ := false
  registers _ := 0x1122

def reading : Message where
  dataset := 1
  payload := .registers [0x11, 0x22]

/-- the site once the first read was taken in -/
def polled : Site where
  catalog := (catalog.perform (.apply reading)).2
  devices := Function.update (fun _ => device) ⟨17⟩ device
  actions := [Action.ofDataset 1 dataset]
  answers := [(reading, device)]
  seen := Function.update (fun _ => none) 1 (some device)

theorem polled_reached : polled.Reached nodes := by
  have registered : Site.Reached nodes { catalog := catalog, devices := fun _ => device } :=
    (((Site.Reached.start _).step (.host (.addDataset "valve" dataset) fun _ h => by cases h)).step
      (.host (.addChannel low) fun _ h => by cases h)).step
      (.host (.addChannel high) fun _ h => by cases h)
  have handed := registered.step (.poll (show catalog.readAction 1 = _ from rfl))
  have read : ((Action.ofDataset 1 dataset).session (nodes 1)).run Image.carrier device
      = (.ok (.payload reading.payload), device) := rfl
  have answered := handed.step (.answer (List.mem_cons_self ..) rfl read)
  have taken : catalog.apply reading = .ok (_, (catalog.perform (.apply reading)).2, _) := rfl
  have on_the_way : (reading, device) ∈ [(reading, device)] := List.mem_cons_self ..
  have applied := answered.step (.apply on_the_way taken)
  exact applied

/-- the register with one of its flows changed -/
def write (payload : Bytes) : Action :=
  { Catalog.writeOf 1 dataset with
    length := 1
    payload := some (.registers payload) }

/-- The upper flow stays when the lower one is written after the read. -/
theorem upper_flow_stays : ∃ g m',
    ((write [0x11, 0x55]).session (nodes 1)).run Image.carrier device = (.ok g, m') ∧
      byteAt (m'.registers 40) 8 = 0x11 := by
  obtain ⟨x, hx, -, -, -, beside⟩ := byte_write_leaves_what_was_read polled_reached
    (t := ⟨"low", .int 0x55⟩) (a := write [0x11, 0x55]) rfl (show _ = some low from rfl) rfl
    (.inr rfl) (m := device) (g := .nothing) rfl
  obtain rfl : x = 40 := UInt16.toNat_inj.1 hx
  exact ⟨_, _, rfl, beside⟩

/-- the site once the upper flow was written -/
def opened : Site where
  __ := polled
  devices := Function.update polled.devices ⟨17⟩ (device.writeRegisters 40 [0xAA22])
  actions := write [0xAA, 0x22] :: polled.actions

theorem opened_reached : opened.Reached nodes := by
  have handed := polled_reached.step (.write (a := write [0xAA, 0x22]) rfl)
  exact handed.step (.exchange (List.mem_cons_self ..) rfl)

/-- A write of the upper flow is undone by the write of the lower one, without another read. -/
theorem upper_flow_falls_back : ∃ a g m',
    opened.Reached nodes ∧ opened.catalog.buildWrite ⟨"high", .int 0xAA⟩ = .ok (write [0xAA, 0x22]) ∧
      opened.catalog.buildWrite ⟨"low", .int 0x55⟩ = .ok a ∧
      (a.session (nodes 1)).run Image.carrier (opened.devices ⟨17⟩) = (.ok g, m') ∧
      byteAt ((opened.devices ⟨17⟩).registers 40) 8 = 0xAA ∧
      byteAt (m'.registers 40) 8 = 0x11 :=
  ⟨write [0x11, 0x55], .nothing, _, opened_reached, rfl, rfl, rfl, rfl, rfl⟩

end Valve

end BusMaster
