import BusMaster.Proofs.Engine.Mirror
import BusMaster.Proofs.Engine.WriteOrder

/-!
# Overtaking

Does an older write reach a channel after a newer one was answered? It does when it has to be tried
again: its action enters the flow at the end, behind the newer write (`Rivals.older_write_overtakes`).
But this is the only way (`older_write_follows_only_requeued`). As long as no write of a channel is
queued again behind a newer one, its writes are answered in the order the host gave them, and the
last answer is the one to the newest write that got any.
-/

namespace BusMaster

namespace Ledger

/-- write `n` is a write of the channel -/
def Writes (l : Ledger) (n : Nat) (channel : ChannelId) : Prop :=
  ∃ s, l.writes[n]? = some s ∧ s.channel = channel

/-- no write of the channel was queued again behind a newer one -/
def Undisturbed (l : Ledger) (channel : ChannelId) : Prop :=
  ∀ i j, i < j → l.Writes i channel → l.Writes j channel → ¬RequeuedAfter l.events i j

variable {l : Ledger}

/-- Behind an answer comes nothing older. -/
theorem InOrder.behind (h : l.InOrder) {channel : ChannelId} (undisturbed : l.Undisturbed channel)
    {before after : List WriteEvent} {x y : WriteEvent} (hsplit : l.events = before ++ x :: after)
    (hx : x.step = .answered) (hxw : l.Writes x.write channel) (hy : y ∈ after)
    (hys : y.step = .sent ∨ y.step = .answered) (hyw : l.Writes y.write channel) :
    x.write ≤ y.write := by
  by_contra holder
  rw [Nat.not_le] at holder
  obtain ⟨between, rest, rfl⟩ := List.append_of_mem hy
  have hsplit' : l.events = (before ++ x :: between) ++ y :: rest := by
    rw [hsplit, List.append_assoc, List.cons_append]
  have answered : Happened (before ++ x :: between) .answered x.write :=
    ⟨x, List.mem_append_right _ (List.mem_cons_self ..), hx, rfl⟩
  have requeued := h.history y.write x.write holder _ y rest hsplit' rfl hys answered
  refine undisturbed y.write x.write holder hyw hxw ?_
  rw [hsplit']
  exact requeued.append _

end Ledger

/-- **An older write follows the answer to a newer one only if it was queued again after the newer
one had been accepted.** So the last answer of a channel that sees no such retry is the answer to its
newest write that was answered, and nothing older goes out after it. All of this is read off a ledger
that misses no request: with each that goes out it has the write of the action under execution. -/
theorem older_write_follows_only_requeued (settings : EngineSettings) (t : Transceiver)
    (moves : List Move) :
    let e : Engine := { settings := settings, transceiver := t }
    let l := Ledger.run {} e moves
    (∀ x ∈ l.events, l.Carried x.write x.action) ∧
    (∀ before m after, moves = before ++ m :: after →
      ((e.run before).step m).sendings ≠ (e.run before).sendings →
        ∃ a, (e.run before).execution.action? = some a ∧
          (Ledger.run {} e before).events ++
            (Ledger.run {} e before).current.toList.map (⟨.sent, ·, a⟩) <+: l.events) ∧
    (∀ i j, i < j → ∀ before x after, l.events = before ++ x :: after → x.write = i →
      x.step = .sent ∨ x.step = .answered → Happened before .answered j →
        RequeuedAfter before i j) ∧
    (∀ channel, l.Undisturbed channel → ∀ before x after, l.events = before ++ x :: after →
      x.step = .answered → l.Writes x.write channel →
        (∀ y ∈ after, y.step = .sent → l.Writes y.write channel → x.write ≤ y.write) ∧
        ((∀ y ∈ after, y.step = .answered → ¬l.Writes y.write channel) →
          ∀ y ∈ l.events, y.step = .answered → l.Writes y.write channel → y.write ≤ x.write)) := by
  intro e l
  have mirrors := (Ledger.Mirrors.empty settings t).run moves
  have inOrder : l.InOrder := Ledger.InOrder.empty.run e moves
  refine ⟨mirrors.events, fun before m after hmoves out => ?_, inOrder.history, ?_⟩
  · rw [show l = Ledger.run {} e (before ++ m :: after) from congrArg (Ledger.run {} e) hmoves]
    exact Ledger.run_sent out
  intro channel undisturbed before x after hsplit hx hxw
  refine ⟨fun y hy hys hyw => inOrder.behind undisturbed hsplit hx hxw hy (.inl hys) hyw, ?_⟩
  intro last y hy hys hyw
  rw [hsplit, List.mem_append, List.mem_cons] at hy
  rcases hy with hy | rfl | hy
  · -- seen from the earlier answer, this one is what comes behind it
    obtain ⟨early, between, rfl⟩ := List.append_of_mem hy
    have hsplit' : l.events = early ++ y :: (between ++ x :: after) := by
      rw [hsplit, List.append_assoc, List.cons_append]
    have hmem : x ∈ between ++ x :: after := List.mem_append_right _ (List.mem_cons_self ..)
    exact inOrder.behind undisturbed hsplit' hys hyw hmem (.inr hx) hxw
  · exact Nat.le_refl _
  · exact absurd hyw (last y hy hys)

/-! ## An older write that goes out last

Two writes of one register. The request of the first gets no answer and is tried again behind the
second, which is answered at once.
-/

/-- what happened, and to which write -/
def WriteEvent.tag (x : WriteEvent) : WriteStep × Nat := (x.step, x.write)

theorem happened_iff {events : List WriteEvent} {step : WriteStep} {n : Nat} :
    Happened events step n ↔ (step, n) ∈ events.map WriteEvent.tag := by
  rw [List.mem_map]
  constructor
  · rintro ⟨x, hx, rfl, rfl⟩
    exact ⟨x, hx, rfl⟩
  · rintro ⟨x, hx, htag⟩
    obtain ⟨rfl, rfl⟩ := Prod.mk.inj htag
    exact ⟨x, hx, rfl, rfl⟩

namespace Rivals

/-- a register of unit 17 -/
def register : Dataset where
  node := 1
  cls := .holdingRegister
  address := 40
  length := 1

/-- its value -/
def level : Channel where
  id := "level"
  dataset := 1
  index := 0
  cls := .uint16

/-- the first write is not answered, the second is -/
def line : Line where
  writes := [.taken [], .taken [.bytes [0, 2, 0, 0, 0, 6, 17, 16, 0, 40, 0, 1]]]

def transceiver : Transceiver where
  settings := { framing := .bridge, endpoint := .tcp "bus" 502 }
  attempts := [.ok line]

/-- The second value is written while the answer to the first is still awaited. -/
def moves : List Move :=
  [.connect, .addNode 1 ⟨⟨17⟩, .standard⟩, .addDataset "tank" register, .addChannel level,
    .write ⟨"level", .int 1⟩, .advance .composition, .advance .execution, .advance .execution,
    .write ⟨"level", .int 2⟩, .advance .composition] ++
    List.replicate 8 (.advance .execution)

def ledger : Ledger := Ledger.run {} { settings := {}, transceiver := transceiver } moves

theorem ledger_tags : ledger.events.map WriteEvent.tag =
    [(.accepted, 0), (.sent, 0), (.accepted, 1), (.requeued, 0), (.sent, 1), (.answered, 1)] ++
      [(.sent, 0)] := by
  decide +kernel

theorem ledger_writes : ledger.writes = [⟨"level", .int 1⟩, ⟨"level", .int 2⟩] := by
  decide +kernel

/-- the last event, and those before it -/
theorem ledger_events : ∃ before x, ledger.events = before ++ [x] ∧
    Happened before .accepted 0 ∧ Happened before .answered 1 ∧ x.step = .sent ∧ x.write = 0 := by
  obtain ⟨before, rest, hsplit, hbefore, hrest⟩ := List.map_eq_append_iff.1 ledger_tags
  obtain ⟨x, rest, rfl, hx, hnil⟩ := List.map_eq_cons_iff.1 hrest
  obtain rfl := List.map_eq_nil_iff.1 hnil
  obtain ⟨hstep, hwrite⟩ := Prod.mk.inj hx
  refine ⟨before, x, hsplit, ?_, ?_, hstep, hwrite⟩
  · rw [happened_iff, hbefore]
    decide
  · rw [happened_iff, hbefore]
    decide

/-- The older value goes out after the newer one was answered. -/
theorem older_write_overtakes :
    ¬∀ (settings : EngineSettings) (t : Transceiver) (moves : List Move),
      let l := Ledger.run {} { settings := settings, transceiver := t } moves
      ∀ channel i j, i < j → l.Writes i channel → l.Writes j channel →
        Happened l.events .accepted i → Happened l.events .accepted j →
        ∀ before x after, l.events = before ++ x :: after → Happened before .answered j →
          ¬(x.step = .sent ∧ x.write = i) := by
  intro never
  obtain ⟨before, x, hsplit, haccepted, hanswered, hstep, hwrite⟩ := ledger_events
  have hwrites (n : Nat) (v : Int) (h : ledger.writes[n]? = some ⟨"level", .int v⟩) :
      ledger.Writes n "level" := ⟨_, h, rfl⟩
  have haccepted' : Happened ledger.events .accepted 1 := by
    rw [happened_iff, ledger_tags]
    decide
  refine never {} transceiver moves "level" 0 1 (by decide) (hwrites 0 1 ?_) (hwrites 1 2 ?_)
    ?_ haccepted' before x [] hsplit hanswered ⟨hstep, hwrite⟩
  · rw [ledger_writes]
    rfl
  · rw [ledger_writes]
    rfl
  · change Happened ledger.events .accepted 0
    rw [hsplit]
    exact haccepted.append _

/-- It does so because it was queued again after the newer one had been accepted. -/
theorem older_write_was_requeued :
    ∃ before x, ledger.events = before ++ [x] ∧ x.step = .sent ∧ x.write = 0 ∧
      Happened before .answered 1 ∧ RequeuedAfter before 0 1 := by
  obtain ⟨before, x, hsplit, -, hanswered, hstep, hwrite⟩ := ledger_events
  refine ⟨before, x, hsplit, hstep, hwrite, hanswered, ?_⟩
  exact (older_write_follows_only_requeued {} transceiver moves).2.2.1 0 1 (by decide) before x []
    hsplit hwrite (.inl hstep) hanswered

end Rivals

end BusMaster
