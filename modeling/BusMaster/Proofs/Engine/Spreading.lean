import BusMaster.Engine.Run
import BusMaster.Proofs.Plant.Reported

/-!
# What is done for a message

A message is taken in by the catalog in one step, and what that sets out is done in further steps of
the same consumer: its reads are submitted, its states are reported, and for an internal dataset the
node is looked up and discovery is told (`Engine.Spreads`). Between any two of them the host and the
other consumers may do anything, so each step goes by what it finds at its own moment: by the catalog
when the message is taken in (`Engine.spread_eq`), by the nodes when the node is looked up
(`Engine.lookUp_eq`). Only when all of it is done is the next message taken in (`Engine.reading?`).
-/

namespace BusMaster

namespace Telling

/-- the message whose node is still to be looked up -/
def notice? : Telling → Option Notice
  | .notice n => some n
  | _ => none

/-- what waits for room -/
def finding? : Telling → Option Finding
  | .finding f => some f
  | _ => none

end Telling

/-- the reads that an answer asks for -/
def Catalog.Answer.cascades : Answer → List Action
  | .update (.ok u) => u.cascades
  | _ => []

namespace Catalog

variable {c c' : Catalog} {m : Message} {a : Action}

/-- The reads that change bitmaps of a dataset ask for are reads of its node, and do not repeat. -/
theorem read_of_mem_cascades {u : Update} {lines : List LogLine}
    (h : c.apply m = .ok (u, c', lines)) (ha : a ∈ u.cascades) :
    a.node = u.dataset.node ∧ a.repeats = .once := by
  rw [apply] at h
  split at h
  · cases h
  · dsimp only at h
    split at h <;> cases h
    · obtain ⟨bitmap, -, hnamed⟩ := List.mem_flatMap.1 ha
      obtain ⟨x, hx, rfl⟩ := List.mem_map.1 hnamed
      have own := (List.mem_filter.1 hx).2
      simp only [Bool.and_eq_true, beq_iff_eq] at own
      exact ⟨own.1.1.1.2, rfl⟩
    · cases ha

theorem cascades_once (ha : a ∈ (c.perform (.apply m)).1.cascades) : a.repeats = .once := by
  rw [perform] at ha
  split at ha
  · rename_i h
    exact (read_of_mem_cascades h ha).2
  · cases ha

end Catalog

namespace Engine

variable {e : Engine}

/-! ## What a step goes by -/

/-- the message that is taken in with a move -/
def reading? (e : Engine) : Move → Option Message
  | .advance .spreading =>
    match e.spreading with
    | ⟨[], [], .nothing⟩ => e.messages.items.head?
    | _ => none
  | _ => none

/-- the message whose node is looked up with a move -/
def looking? (e : Engine) : Move → Option Notice
  | .advance .spreading =>
    match e.spreading with
    | ⟨[], [], .notice n⟩ => some n
    | _ => none
  | _ => none

/-- the message on its way to discovery, if its dataset is internal -/
def notice? (e : Engine) (m : Message) : Option Notice :=
  (e.catalog.dataset? m.dataset).bind fun d => if d.internal then some ⟨d, m.payload⟩ else none

/-- what a message tells discovery, if its node is known -/
def finding? (e : Engine) (n : Notice) : Option Finding :=
  e.nodes[n.dataset.node]?.map fun node =>
    .announcement n.dataset.node node.unit n.dataset.address n.payload

/-- What a message tells discovery is an announcement. -/
theorem exists_of_finding? {n : Notice} {f : Finding} (h : e.finding? n = some f) :
    ∃ node : Node, f = .announcement n.dataset.node node.unit n.dataset.address n.payload := by
  obtain ⟨node, -, rfl⟩ := Option.map_eq_some_iff.1 h
  exact ⟨node, rfl⟩

/-- **A message that is taken in** is applied to the catalog, and the answer sets out what is to be
done. -/
theorem spread_eq (m : Message) (idle : e.spreading = {}) : ∃ lines,
    e.spread m = ({ e with
      catalog := (e.catalog.perform (.apply m)).2
      spreading := ⟨(e.catalog.perform (.apply m)).1.cascades,
        (e.catalog.perform (.apply m)).1.states,
        (e.notice? m).elim .nothing .notice⟩ } : Engine).note lines := by
  rcases happly : e.catalog.apply m with fault | ⟨u, catalog, lines⟩
  · have unknown := (Catalog.apply_eq_error_iff.1 happly).1
    have same : ({ e with
        catalog := (e.catalog.perform (.apply m)).2
        spreading := ⟨(e.catalog.perform (.apply m)).1.cascades,
          (e.catalog.perform (.apply m)).1.states,
          (e.notice? m).elim .nothing .notice⟩ } : Engine) = e := by
      rw [Catalog.perform, happly, notice?, Catalog.dataset?, unknown]
      change { e with spreading := {} } = e
      rw [← idle]
    exact ⟨_, by rw [same, spread, happly]; rfl⟩
  · obtain ⟨entry, hentry, -⟩ := (Catalog.applied_of_apply happly).kept
    have definition := (Catalog.update_of_apply happly hentry).1
    refine ⟨lines, ?_⟩
    rw [Catalog.perform, spread, happly, notice?, Catalog.dataset?, hentry, Option.map_some,
      Option.bind_some, ← definition]
    dsimp only
    split <;> rfl

/-- **A node that is looked up** is told of to discovery, if it is known. -/
theorem lookUp_eq (n : Notice) : ∃ lines, e.lookUp n =
    ({ e with
      spreading := { telling := (e.finding? n).elim .nothing .finding } } : Engine).note lines := by
  rw [lookUp, finding?]
  dsimp only
  rcases e.nodes[n.dataset.node]? with _ | node
  · exact ⟨_, rfl⟩
  · exact ⟨[], rfl⟩

/-! ## What a step can be -/

/-- what a step of the spreading of messages can be -/
inductive Spreads (e : Engine) : Engine → Prop where
  | cascade {a : Action} {cascades : List Action} {states : List State} {telling : Telling} :
      e.spreading = ⟨a :: cascades, states, telling⟩ →
      Spreads e ((({ e with spreading := ⟨cascades, states, telling⟩ } : Engine).say
        .debug .fanout ("change bitmap requests " ++ a.toText)).submit a)
  | state {s : State} {states : List State} {telling : Telling} {reports : Flow Report} :
      e.spreading = ⟨[], s :: states, telling⟩ → e.reports.push? (.state s) = some reports →
      Spreads e (({ e with reports := reports, spreading := ⟨[], states, telling⟩ } : Engine).say
        .debug .fanout s.toText)
  | lookUp {n : Notice} : e.spreading = ⟨[], [], .notice n⟩ → Spreads e (e.lookUp n)
  | finding {finding : Finding} {findings : Flow Finding} :
      e.spreading = ⟨[], [], .finding finding⟩ → e.findings.push? finding = some findings →
      Spreads e { e with findings := findings, spreading := {} }
  | read {m : Message} {messages : Flow Message} :
      e.spreading = {} → e.messages.pop? = some (m, messages) →
      Spreads e (({ e with messages := messages } : Engine).spread m)

theorem spread?_eq_some {e e' : Engine} (h : e.spread? = some e') : Spreads e e' := by
  rw [spread?] at h
  split at h
  · rename_i hspreading
    obtain rfl := Option.some.inj h
    exact .cascade hspreading
  · rename_i hspreading
    obtain ⟨reports, hpush, rfl⟩ := Option.map_eq_some_iff.1 h
    exact .state hspreading hpush
  · rename_i hspreading
    obtain rfl := Option.some.inj h
    exact .lookUp hspreading
  · rename_i hspreading
    obtain ⟨findings, hpush, rfl⟩ := Option.map_eq_some_iff.1 h
    exact .finding hspreading hpush
  · rename_i hspreading
    obtain ⟨⟨m, messages⟩, hpop, rfl⟩ := Option.map_eq_some_iff.1 h
    exact .read hspreading hpop

/-- A step of the spreading of messages that has to wait changes nothing, takes in nothing and looks
up nothing. -/
theorem spreads_or_waits (e : Engine) :
    (∃ e', e.step (.advance .spreading) = e' ∧ Spreads e e') ∨
      e.step (.advance .spreading) = e ∧ e.reading? (.advance .spreading) = none ∧
        e.looking? (.advance .spreading) = none ∧ e.spreading.cascades = [] := by
  simp only [step, advance?, reading?, looking?]
  rcases h : e.spread? with _ | e'
  · refine .inr ⟨rfl, ?_⟩
    rw [spread?] at h
    split at h
    · cases h
    · rename_i hspreading
      rw [hspreading]
      exact ⟨rfl, rfl, rfl⟩
    · cases h
    · rename_i hspreading
      rw [hspreading]
      exact ⟨rfl, rfl, rfl⟩
    · rename_i hspreading
      rw [hspreading]
      have none := Flow.pop?_eq_none_iff.1 (Option.map_eq_none_iff.1 h)
      exact ⟨List.head?_eq_none_iff.2 none, rfl, rfl⟩
  · exact .inl ⟨e', rfl, spread?_eq_some h⟩

theorem reading?_of_ne {m : Move} (other : m ≠ .advance .spreading) : e.reading? m = none := by
  rw [reading?.eq_def]
  split
  · exact absurd rfl other
  · rfl

theorem looking?_of_ne {m : Move} (other : m ≠ .advance .spreading) : e.looking? m = none := by
  rw [looking?.eq_def]
  split
  · exact absurd rfl other
  · rfl

/-- Nothing is taken in while something is still to be done for the last message. -/
theorem reading?_of_rest (rest : e.spreading ≠ {}) (m : Move) : e.reading? m = none := by
  rw [reading?.eq_def]
  split
  · split
    · rename_i idle
      exact absurd idle rest
    · rfl
  · rfl

end Engine

end BusMaster
