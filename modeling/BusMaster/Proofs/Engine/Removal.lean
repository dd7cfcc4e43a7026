import BusMaster.Proofs.Engine.Repeating
import BusMaster.Proofs.Engine.Turns
import BusMaster.Proofs.Plant.Removal

/-!
# Removed nodes

A node is removed in four parts: its repeating actions, its channels, its datasets, and the node
itself (`Engine.Removal`). Between two of them the consumers go on, so actions of the node may still
wait, be under way or about to be tried again, and messages for its datasets may still be on their
way. Each of these leftovers meets a later check. An action finds its node gone when its execution
begins, and ends there without an exchange. A message finds its dataset gone when it is taken in,
and since numbers are not given out again, it does so for ever, also when the node is added again.

A message that was taken in before has passed that check, and what it has set out is still done,
although the node is gone: its reads are submitted, only to end like the other actions of the node,
its states are reported, and its node is looked up, in vain. None of this touches the catalog or the
agenda (`Engine.step_spreading_of_rest`). Apart from these a removed node is silent, whatever happened
before, in between and after (`removed_node_is_silent`), and each part of the removal leaves other
nodes alone (`Engine.Spares`).
-/

namespace BusMaster

namespace Engine

/-! ## The parts of a removal -/

/-- a part of the removal of a node -/
inductive Removal where
  /-- the repeating actions -/
  | actions
  | channels
  | datasets
  /-- the entry among the nodes -/
  | node

/-- the engine after a part of the removal of a node -/
def drop (e : Engine) (n : NodeId) : Removal → Engine
  | .actions => { e with agenda := e.agenda.remove n }
  | .channels => { e with catalog := (e.catalog.removeChannels n).2 }
  | .datasets => { e with catalog := (e.catalog.removeDatasets n).2 }
  | .node => { e with nodes := e.nodes.erase n }

/-- The removal of a node is its parts, one after another, and a line of the log. -/
theorem removeNode_eq (e : Engine) (n : NodeId) : ∃ lines, e.removeNode n =
    ((((e.drop n .actions).drop n .channels).drop n .datasets).drop n .node).note lines :=
  ⟨_, rfl⟩

/-- the engine without what it has of nodes, and without its log -/
def bare (e : Engine) : Engine := { e with
  agenda := {}
  catalog := {}
  nodes := {}
  transceiver := { e.transceiver with journal := [] } }

/-- What belongs to other nodes than this one is the same, and so is what belongs to none. -/
structure Spares (n : NodeId) (e e' : Engine) : Prop where
  slow : (e'.agenda.slow.filter fun a => a.node != n) = e.agenda.slow.filter fun a => a.node != n
  fast : (e'.agenda.fast.filter fun a => a.node != n) = e.agenda.fast.filter fun a => a.node != n
  catalog : e.catalog.Spares n e'.catalog
  node : ∀ id ≠ n, e'.nodes[id]? = e.nodes[id]?
  rest : e'.bare = e.bare

namespace Spares

variable {n : NodeId} {e e' e'' : Engine}

theorem trans (h : Spares n e e') (h' : Spares n e' e'') : Spares n e e'' where
  slow := h'.slow.trans h.slow
  fast := h'.fast.trans h.fast
  catalog := h.catalog.trans h'.catalog
  node id other := (h'.node id other).trans (h.node id other)
  rest := h'.rest.trans h.rest

end Spares

theorem spares_note (n : NodeId) (e : Engine) (lines : List LogLine) :
    Spares n e (e.note lines) := by
  obtain ⟨journal, h⟩ := e.transceiver.note_eq lines
  exact ⟨rfl, rfl, .refl .., fun _ _ => rfl, by rw [bare, note, h]; rfl⟩

/-- **A part of the removal of a node leaves other nodes alone.** -/
theorem spares_drop {e : Engine} (built : e.catalog.Built) (n : NodeId) (part : Removal) :
    Spares n e (e.drop n part) := by
  cases part with
  | actions =>
    refine ⟨?_, ?_, .refl .., fun _ _ => rfl, rfl⟩
    · change ((e.agenda.slow.filter _).filter _) = _
      rw [List.filter_filter]
      simp only [Bool.and_self]
    · change ((e.agenda.fast.filter _).filter _) = _
      rw [List.filter_filter]
      simp only [Bool.and_self]
  | channels => exact ⟨rfl, rfl, e.catalog.spares_removeChannels n, fun _ _ => rfl, rfl⟩
  | datasets => exact ⟨rfl, rfl, Catalog.spares_removeDatasets built.keyed n, fun _ _ => rfl, rfl⟩
  | node =>
    refine ⟨rfl, rfl, .refl .., fun id other => ?_, rfl⟩
    exact (Std.TreeMap.getElem?_erase ..).trans
      (if_neg fun same => other (Std.LawfulEqCmp.compare_eq_iff_eq.1 same).symm)

/-- What goes with a part of the removal does not come back under another meaning. -/
theorem precedes_drop (e : Engine) (n : NodeId) (part : Removal) :
    e.catalog.Precedes (e.drop n part).catalog := by
  cases part with
  | actions => exact .refl _
  | channels => exact (Catalog.change_removeChannels _ n).precedes
  | datasets => exact (Catalog.change_removeDatasets _ n).precedes
  | node => exact .refl _

theorem built_drop {e : Engine} (built : e.catalog.Built) (n : NodeId) (part : Removal) :
    (e.drop n part).catalog.Built := by
  cases part with
  | actions => exact built
  | channels => exact built.removeChannels n
  | datasets => exact built.removeDatasets n
  | node => exact built

theorem spares_removeNode {e : Engine} (built : e.catalog.Built) (n : NodeId) :
    Spares n e (e.removeNode n) := by
  obtain ⟨lines, h⟩ := e.removeNode_eq n
  have built₁ := built_drop built n .actions
  have built₂ := built_drop built₁ n .channels
  have built₃ := built_drop built₂ n .datasets
  rw [h]
  exact (spares_drop built n .actions).trans <| (spares_drop built₁ n .channels).trans <|
    (spares_drop built₂ n .datasets).trans <| (spares_drop built₃ n .node).trans (spares_note ..)

/-! ## The nodes that are known -/

/-- A node that is not known stays so until it is added. -/
theorem unknown_step {e : Engine} {n : NodeId} {m : Move} (unknown : e.nodes[n]? = none)
    (other : ∀ node, m ≠ .addNode n node) : (e.step m).nodes[n]? = none := by
  by_cases remove : m = .removeNode n
  · subst remove
    rw [nodes_step]
    exact Std.TreeMap.getElem?_erase_self
  · rw [node_step other remove, unknown]

end Engine

/-! ## Runs that the host takes part in -/

namespace Shared

/-- the state after a part of the removal of a node -/
def drop (s : Shared) (n : NodeId) (part : Engine.Removal) : Shared :=
  { s with engine := s.engine.drop n part }

/-- A deed is a move of the engine, or changes its transceiver at most. -/
theorem engine_step (s : Shared) (d : Deed) :
    (∃ m, d = .move m ∧ (s.step d).engine = s.engine.step m) ∨
      ∃ t, (s.step d).engine = { s.engine with transceiver := t } := by
  cases d with
  | move m =>
    rw [step]
    split
    · exact .inr ⟨_, rfl⟩
    · exact .inl ⟨m, rfl, rfl⟩
  | begin request reply =>
    rw [step]
    split
    · exact .inr ⟨_, rfl⟩
    · split <;> exact .inr ⟨_, rfl⟩
  | finish =>
    rw [step]
    split <;> exact .inr ⟨_, rfl⟩
  | leave => exact .inr ⟨_, rfl⟩

/-- The catalog after a run is the one after some operations. -/
theorem catalog_run (s : Shared) (deeds : List Deed) :
    ∃ ops, (s.run deeds).engine.catalog = s.engine.catalog.run ops := by
  induction deeds generalizing s with
  | nil => exact ⟨[], rfl⟩
  | cons d deeds ih =>
    obtain ⟨ops, hops⟩ := ih (s.step d)
    rcases s.engine_step d with ⟨m, rfl, hstep⟩ | ⟨t, hstep⟩
    · refine ⟨s.engine.operations m ++ ops, hops.trans ?_⟩
      rw [hstep, Engine.catalog_step, Catalog.run_append]
    · exact ⟨ops, hops.trans (by rw [hstep])⟩

/-- Whatever happens meanwhile, a number does not come to mean something else. -/
theorem precedes_run (s : Shared) (deeds : List Deed) :
    s.engine.catalog.Precedes (s.run deeds).engine.catalog := by
  obtain ⟨ops, hops⟩ := s.catalog_run deeds
  exact hops ▸ Catalog.precedes_run _ ops

theorem precedes_dropRun (s : Shared) (n : NodeId) (part : Engine.Removal) (deeds : List Deed) :
    s.engine.catalog.Precedes ((s.drop n part).run deeds).engine.catalog :=
  (s.engine.precedes_drop n part).trans ((s.drop n part).precedes_run deeds)

/-- A number that stands for a dataset of the node stands for nothing once its datasets are removed,
whatever happens before that. -/
theorem definition?_dropDatasets {s s' : Shared} {n : NodeId} {id : DatasetId} {d : Dataset}
    (built : s.engine.catalog.Built) (later : s.engine.catalog.Precedes s'.engine.catalog)
    (live : s.engine.catalog.dataset? id = some d) (own : d.node = n) :
    id ≤ (s'.drop n .datasets).engine.catalog.lastId ∧
      (s'.drop n .datasets).engine.catalog.definition? id = none := by
  obtain ⟨entry, hentry, rfl⟩ := Option.map_eq_some_iff.1 live
  have live : s.engine.catalog.definition? id = some (entry.key, entry.dataset) := by
    rw [Catalog.definition?, hentry]
    rfl
  have given : id ≤ s.engine.catalog.lastId := built.sound.le_lastId live
  refine ⟨Nat.le_trans given (later.trans (s'.engine.precedes_drop n .datasets)).lastId, ?_⟩
  refine (Catalog.definition?_removeDatasets s'.engine.catalog n id).trans ?_
  rcases later.definition id given with same | none
  · rw [same, live, Option.filter_some, if_neg (by simp [own])]
  · rw [none]
    rfl

/-- A node that is not known stays so until it is added. -/
theorem unknown_step {s : Shared} {n : NodeId} {d : Deed}
    (other : ∀ node, d ≠ .move (.addNode n node)) (unknown : s.engine.nodes[n]? = none) :
    (s.step d).engine.nodes[n]? = none := by
  rcases s.engine_step d with ⟨m, rfl, hstep⟩ | ⟨t, hstep⟩
  · rw [hstep]
    exact Engine.unknown_step unknown fun node same => other node (same ▸ rfl)
  · rw [hstep]
    exact unknown

theorem unknown_run {s : Shared} {n : NodeId} {deeds : List Deed}
    (other : ∀ d ∈ deeds, ∀ node, d ≠ .move (.addNode n node))
    (unknown : s.engine.nodes[n]? = none) : (s.run deeds).engine.nodes[n]? = none := by
  induction deeds generalizing s with
  | nil => exact unknown
  | cons d deeds ih =>
    rw [List.forall_mem_cons] at other
    exact ih other.2 (unknown_step other.1 unknown)

/-- What is true of an engine whoever takes part in its run, and while a node is removed. -/
structure Tidy (s : Shared) : Prop where
  built : s.engine.catalog.Built
  once : s.engine.CascadesOnce

theorem Tidy.run {s : Shared} (h : s.Tidy) (deeds : List Deed) : (s.run deeds).Tidy := by
  induction deeds generalizing s with
  | nil => exact h
  | cons d deeds ih =>
    refine ih ?_
    rcases s.engine_step d with ⟨m, -, hstep⟩ | ⟨t, hstep⟩
    · refine ⟨?_, hstep ▸ h.once.step m⟩
      rw [hstep, Engine.catalog_step]
      exact h.built.run _
    · exact ⟨hstep ▸ h.built, hstep ▸ h.once⟩

/-- A part of the removal of a node leaves what is to be done for a message. -/
theorem Tidy.drop {s : Shared} (h : s.Tidy) (n : NodeId) (part : Engine.Removal) :
    (s.drop n part).Tidy :=
  ⟨Engine.built_drop h.built n part, by cases part <;> exact h.once⟩

theorem nodes_drop (s : Shared) (n : NodeId) : (s.drop n .node).engine.nodes[n]? = none :=
  Std.TreeMap.getElem?_erase_self

end Shared

/-! ## Leftovers -/

/-- of an action of the node: no exchange is begun, and it ends because its node is not known -/
def silentRule (n : NodeId) : TurnRule := fun a begun result =>
  a.node = n → begun = [] ∧ ∀ r, result = some r → r = .error (.configuration .unknownNode)

namespace Engine

variable {e : Engine} {n : NodeId}

theorem sessionOf_unknown {a : Action} (unknown : e.nodes[a.node]? = none) :
    e.sessionOf a = .done (.error (.configuration .unknownNode)) := by
  rw [sessionOf, unknown]
  rfl

/-- While the node is not known, what begins keeps to the rule. -/
theorem silent_sessionOf (unknown : e.nodes[n]? = none) (a : Action) :
    (e.sessionOf a).Throughout (silentRule n a) [] := by
  by_cases own : a.node = n
  · rw [sessionOf_unknown (own ▸ unknown)]
    exact ⟨fun _ => ⟨rfl, nofun⟩, fun _ => ⟨rfl, fun _ hr => (Option.some.inj hr).symm⟩⟩
  · exact .of_forall (fun _ _ mine => absurd mine own) _ _

/-- The message changes nothing and leads to nothing. -/
structure Drops (e : Engine) (m : Message) : Prop where
  refused : e.catalog.apply m = .error .unknownDataset
  /-- when it is taken in, it is gone, and there is a line of the log -/
  dropped : e.reading? (.advance .spreading) = some m → ∃ messages : Flow Message,
    e.messages.pop? = some (m, messages) ∧
      e.step (.advance .spreading) = ({ e with messages := messages } : Engine).say .warn .fanout
        ("dropping message for " ++ datasetText m.dataset ++ ": "
          ++ ConfigFault.unknownDataset.message)

/-- A message for a dataset that is gone is dropped. -/
theorem drops_of_refused {m : Message} (refused : e.catalog.apply m = .error .unknownDataset) :
    e.Drops m := by
  refine ⟨refused, fun next => ?_⟩
  by_cases rest : e.spreading = {}
  case neg =>
    rw [reading?_of_rest rest] at next
    cases next
  obtain ⟨e', hnext, spreads⟩ | ⟨-, nothing, -⟩ := e.spreads_or_waits
  case inr =>
    rw [nothing] at next
    cases next
  rw [reading?, rest] at next
  cases spreads with
  | @read m' messages hspreading hpop =>
    rw [(Flow.pop?_items hpop).1] at next
    obtain rfl := Option.some.inj next
    exact ⟨messages, hpop, by rw [hnext, spread, refused]⟩
  | cascade hspreading | state hspreading | lookUp hspreading | finding hspreading =>
    rw [rest] at hspreading
    cases hspreading

/-- While something is still to be done for a message, the spreading changes neither the catalog nor
the agenda, and hands over the next of the reads. -/
theorem step_spreading_of_rest (once : e.CascadesOnce) (rest : e.spreading ≠ {}) :
    (e.step (.advance .spreading)).catalog = e.catalog ∧
      (e.step (.advance .spreading)).agenda = e.agenda ∧
      (e.step (.advance .spreading)).intake =
        (e.spreading.cascades.head?.elim [] Agenda.handsOut).foldl Intake.hand e.intake := by
  refine ⟨?_, agenda_advance once .spreading,
    intake_step (m := .advance .spreading) nofun nofun e⟩
  rw [catalog_step, operations, reading?_of_rest rest]
  rfl

/-- A node that is not known is looked up in vain. -/
theorem lookUp_unknown {notice : Notice} (looking : e.looking? (.advance .spreading) = some notice)
    (unknown : e.nodes[notice.dataset.node]? = none) :
    (e.step (.advance .spreading)).spreading = {} ∧
      (e.step (.advance .spreading)).findings = e.findings := by
  obtain ⟨e', hnext, spreads⟩ | ⟨-, -, nothing, -⟩ := e.spreads_or_waits
  case inr =>
    rw [nothing] at looking
    cases looking
  rw [looking?] at looking
  cases spreads with
  | @lookUp n hspreading =>
    rw [hspreading] at looking
    obtain rfl := Option.some.inj looking
    obtain ⟨lines, h⟩ := e.lookUp_eq n
    have vain : e.finding? n = none := by rw [finding?, unknown, Option.map_none]
    rw [hnext, h, vain]
    exact ⟨rfl, rfl⟩
  | cascade hspreading | state hspreading | finding hspreading | read hspreading =>
    rw [hspreading] at looking
    cases looking

end Engine

theorem Flow.exists_pop? {α : Type} {f : Flow α} {a : α} (h : f.items.head? = some a) :
    ∃ rest, f.pop? = some (a, rest) := by
  rcases hpop : f.pop? with _ | ⟨b, rest⟩
  · rw [Flow.pop?_eq_none_iff.1 hpop] at h
    cases h
  · rw [(Flow.pop?_items hpop).1] at h
    obtain rfl := Option.some.inj h
    exact ⟨rest, rfl⟩

/-- An execution that begins while its node is not known is over with the next step. -/
theorem turns_unknown {s : Shared} {a : Action} (idle : s.engine.execution = .idle)
    (waiting : s.engine.actions.items.head? = some a)
    (unknown : s.engine.nodes[a.node]? = none) :
    (Tally.run {} s [.move (.advance .execution), .move (.advance .execution)]).turns =
      [⟨a, [], some (.error (.configuration .unknownNode))⟩] := by
  obtain ⟨rest, next⟩ := Flow.exists_pop? waiting
  have free : s.engine.needsLink (.advance .execution) = false := by
    simp only [Engine.needsLink, idle]
  have begun : s.step (.move (.advance .execution)) = { s with engine := { s.engine with
      actions := rest
      execution := .running a (.done (.error (.configuration .unknownNode))) } } := by
    simp only [Shared.step, free, Bool.and_false, Bool.false_eq_true, if_false, Engine.step,
      Engine.advance?, Engine.execute?, idle, next, Option.map_some, Option.getD_some,
      Engine.sessionOf_unknown unknown]
  have turns : (Tally.follow {} s (.move (.advance .execution))).turns = [{ action := a }] := by
    simp only [Tally.follow, free, Bool.and_false, Bool.false_eq_true, if_false, Engine.turns, idle,
      next]
  rw [Tally.run, Tally.run, Tally.run, begun, Tally.follow]
  simp only [Engine.needsLink, Bool.and_false, Bool.false_eq_true, if_false, Engine.turns, turns]
  rfl

/-! ## Silence -/

/-- **A removed node is silent.** A node of an engine is removed in four parts. Before, between and
after these there is any run, in which the host may use the transceiver too. Then:

* Until the node is added again, each execution of an action of the node that begins after the
  removal begins no exchange, and if it ends, then because the node is not known. This is what its
  next two steps come to. And if the node is looked up for a message, nothing comes of it.
* A message for a dataset that the node had before the removal and that is taken in afterwards
  changes nothing and leads to nothing, also when the node is added again.
* What is still to be done for a message that was taken in before changes neither the catalog nor the
  agenda, and hands over no other actions than its reads, one with each step. These are reads of the
  node of its dataset.
* Each part of the removal, and all of them at once, leaves alone what belongs to other nodes. -/
theorem removed_node_is_silent (settings : EngineSettings) (transport : TransportSettings)
    (detail : Detail) (attempts : List Attempt) (n : NodeId)
    (before gap₁ gap₂ gap₃ later : List Deed) :
    let first : Shared :=
      { engine := { settings, transceiver := { settings := transport, detail, attempts } } }
    let s := first.run before
    let s₁ := (s.drop n .actions).run gap₁
    let s₂ := (s₁.drop n .channels).run gap₂
    let s₃ := (s₂.drop n .datasets).run gap₃
    let gone := s₃.drop n .node
    let after := gone.run later
    let next := after.engine.step (.advance .spreading)
    ((∀ d ∈ later, ∀ node, d ≠ .move (.addNode n node)) →
      (∀ x ∈ (Tally.run {} gone later).turns, x.action.node = n → x.contacts = [] ∧
        ∀ result, x.result = some result → result = .error (.configuration .unknownNode)) ∧
      (∀ a, after.engine.execution = .idle → after.engine.actions.items.head? = some a →
        a.node = n →
        (Tally.run {} after [.move (.advance .execution), .move (.advance .execution)]).turns =
          [⟨a, [], some (.error (.configuration .unknownNode))⟩]) ∧
      (∀ notice, after.engine.looking? (.advance .spreading) = some notice →
        notice.dataset.node = n → next.spreading = {} ∧ next.findings = after.engine.findings)) ∧
    (∀ id d, s.engine.catalog.dataset? id = some d → d.node = n →
      ∀ m : Message, m.dataset = id → after.engine.Drops m) ∧
    (after.engine.spreading ≠ {} →
      next.catalog = after.engine.catalog ∧ next.agenda = after.engine.agenda ∧
        next.intake = (after.engine.spreading.cascades.head?.elim [] Agenda.handsOut).foldl
          Intake.hand after.engine.intake) ∧
    (∀ m u catalog lines, s.engine.catalog.apply m = .ok (u, catalog, lines) →
      ∀ a ∈ u.cascades, a.node = u.dataset.node ∧ a.repeats = .once) ∧
    Engine.Spares n s.engine (s.drop n .actions).engine ∧
    Engine.Spares n s₁.engine (s₁.drop n .channels).engine ∧
    Engine.Spares n s₂.engine (s₂.drop n .datasets).engine ∧
    Engine.Spares n s₃.engine gone.engine ∧
    Engine.Spares n s.engine (s.engine.removeNode n) := by
  intro first s s₁ s₂ s₃ gone after next
  have tidy : s.Tidy := Shared.Tidy.run (s := first) ⟨.empty, List.forall_mem_nil _⟩ before
  have tidy₁ : s₁.Tidy := (tidy.drop n .actions).run gap₁
  have tidy₂ : s₂.Tidy := (tidy₁.drop n .channels).run gap₂
  have tidy₃ : s₃.Tidy := (tidy₂.drop n .datasets).run gap₃
  have tidyAfter : after.Tidy := (tidy₃.drop n .node).run later
  refine ⟨fun other => ⟨fun x hx own => ?_, fun a idle waiting own => ?_,
      fun notice looking own => ?_⟩, fun id d live own m hm => ?_,
    Engine.step_spreading_of_rest tidyAfter.once,
    fun m u catalog lines h a => Catalog.read_of_mem_cascades h,
    Engine.spares_drop tidy.built n .actions, Engine.spares_drop tidy₁.built n .channels,
    Engine.spares_drop tidy₂.built n .datasets, Engine.spares_drop tidy₃.built n .node,
    Engine.spares_removeNode tidy.built n⟩
  · have kept : Tally.Kept (silentRule n) (Tally.run {} gone later).turns after.engine.execution :=
      Tally.Kept.run (P := fun e => e.nodes[n]? = none)
        (fun e a unknown => Engine.silent_sessionOf unknown a) (Tally.Kept.empty ..)
        (s₃.nodes_drop n) later fun s d hd => Shared.unknown_step (other d hd)
    obtain ⟨silent, ended⟩ := kept.all x hx own
    exact ⟨Turn.requests_eq_nil_iff.1 silent, ended⟩
  · refine turns_unknown idle waiting ?_
    rw [own]
    exact Shared.unknown_run other (s₃.nodes_drop n)
  · refine Engine.lookUp_unknown looking ?_
    rw [own]
    exact Shared.unknown_run other (s₃.nodes_drop n)
  · have until₂ : s.engine.catalog.Precedes s₂.engine.catalog :=
      (s.precedes_dropRun n .actions gap₁).trans (s₁.precedes_dropRun n .channels gap₂)
    obtain ⟨given, unknown⟩ := Shared.definition?_dropDatasets tidy.built until₂ live own
    have since₂ : (s₂.drop n .datasets).engine.catalog.Precedes after.engine.catalog :=
      (Shared.precedes_run _ gap₃).trans (s₃.precedes_dropRun n .node later)
    exact Engine.drops_of_refused
      ((tidyAfter.built.unknown (since₂.gone given unknown)).apply m hm)

/-! ## A removal that comes between

A dataset with two channels and a change bitmap is read, and its message is taken in. Another read of
it waits already when the node is removed, before any of what the message has set out is done.
-/

namespace Between

def tank : Dataset where
  node := 1
  cls := .holdingRegister
  address := 40
  length := 3

/-- read when the last bit of a change bitmap is set -/
def level : Dataset where
  node := 1
  cls := .holdingRegister
  address := 50
  length := 1

def inlet : Channel where
  id := "inlet"
  dataset := 1
  index := 0
  cls := .uint16

def outlet : Channel where
  id := "outlet"
  dataset := 1
  index := 1
  cls := .uint16

def changes : Channel where
  id := "changes"
  dataset := 1
  index := 2
  cls := .changeBitmap

/-- the device answers the first read -/
def line : Line where
  writes := [.taken [.bytes [0, 1, 0, 0, 0, 9, 17, 3, 6, 0, 7, 0, 9, 128, 0]]]

def first : Shared where
  engine := {
    settings := { queueSize := 2 }
    transceiver := {
      settings := { framing := .bridge, endpoint := .tcp "bus" 502 }
      attempts := [.ok line] } }

def moves : List Move :=
  [.connect, .addNode 1 ⟨⟨17⟩, .standard⟩, .addDataset "tank" tank, .addDataset "level" level,
    .addChannel inlet, .addChannel outlet, .addChannel changes, .pollDataset 1] ++
  List.replicate 5 (.advance .execution) ++ [.advance .spreading, .pollDataset 1]

/-- What a message that was taken in before the removal asks for is still submitted, and its states
are still reported. -/
theorem passed_on_after_removal :
    let e := (first.run (moves.map .move)).engine.removeNode 1
    let later := e.run (List.replicate 3 (.advance .spreading))
    e.nodes[1]? = none ∧ e.catalog.dataset? 1 = none ∧ e.catalog.dataset? 2 = none ∧
      e.actions.items.map (fun a => (a.node, a.dataset)) = [(1, 1)] ∧ e.reports.items = [] ∧
      later.actions.items.map (fun a => (a.node, a.dataset)) = [(1, 1), (1, 2)] ∧
      later.reports.items = [.state ⟨"inlet", .int 7⟩, .state ⟨"outlet", .int 9⟩] := by
  decide +kernel

/-- after the parts of the removal, with nothing between them -/
def gone : Shared :=
  ((((first.run (moves.map .move)).drop 1 .actions).drop 1 .channels).drop 1 .datasets).drop 1 .node

def next : List Deed := [.move (.advance .execution), .move (.advance .execution)]

theorem gone_idle : gone.engine.execution = .idle := by
  -- only an execution that is idle begins a turn with its next step
  have begins : (gone.engine.turns []).length = 1 := by decide +kernel
  rw [Engine.turns] at begins
  split at begins
  · assumption
  all_goals cases begins

theorem gone_waiting : ∃ a, gone.engine.actions.items.head? = some a ∧ a.node = 1 := by
  have waiting : gone.engine.actions.items.head?.map (·.node) = some 1 := by decide +kernel
  exact Option.map_eq_some_iff.1 waiting

/-- The read that waits begins no exchange, and another message for the dataset is dropped. What is
left of the message that was taken in leaves the catalog and the agenda. -/
theorem waiting_read_is_silent :
    (∃ a, gone.engine.actions.items.head? = some a ∧ a.node = 1 ∧
      (Tally.run {} gone next).turns = [⟨a, [], some (.error (.configuration .unknownNode))⟩]) ∧
    (∀ x ∈ (Tally.run {} gone next).turns, x.action.node = 1 → x.contacts = []) ∧
    (∀ m : Message, m.dataset = 1 → gone.engine.Drops m) ∧
    (gone.engine.step (.advance .spreading)).catalog = gone.engine.catalog ∧
    (gone.engine.step (.advance .spreading)).agenda = gone.engine.agenda := by
  have silent := removed_node_is_silent { queueSize := 2 }
    { framing := .bridge, endpoint := .tcp "bus" 502 } {} [.ok line] 1 (moves.map .move) [] [] []
  obtain ⟨executions, messages, rest, -⟩ := silent []
  have other : ∀ d ∈ next, ∀ node, d ≠ .move (.addNode 1 node) := by
    rw [next, List.forall_mem_cons, List.forall_mem_singleton]
    exact ⟨nofun, nofun⟩
  obtain ⟨begun, -⟩ := (silent next).1 other
  obtain ⟨a, waiting, own⟩ := gone_waiting
  have live : (first.run (moves.map .move)).engine.catalog.dataset? 1 = some tank := by
    decide +kernel
  have left : gone.engine.spreading.cascades ≠ [] := by
    have some : gone.engine.spreading.cascades.length = 1 := by decide +kernel
    intro none
    rw [none] at some
    cases some
  refine ⟨⟨a, waiting, own, ?_⟩, fun x hx mine => (begun x hx mine).1, messages 1 tank live rfl, ?_⟩
  · exact (executions (fun d hd => (nomatch hd))).2.1 a gone_idle waiting own
  · obtain ⟨catalog, agenda, -⟩ := rest fun none => left (congrArg Spreading.cascades none)
    exact ⟨catalog, agenda⟩

end Between

end BusMaster
