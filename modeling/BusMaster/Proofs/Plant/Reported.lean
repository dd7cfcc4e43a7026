import BusMaster.Proofs.Number.Powers
import BusMaster.Proofs.Plant.Following

/-!
# The host's mirror

A host that keeps the last state it was told of every channel keeps a copy of the catalog's values,
although what is told and what is kept are decided apart: a channel that reports always tells a value
that is known already and is not kept, and one that reports changes tells what is kept
(`ChannelEntry.report?`, `ChannelEntry.refresh`). What the two have in common is said for one read of
one channel (`ChannelEntry.mirrored_refresh`). Over a run the copy is made of the states since the
channel was registered last (`Catalog.LastRegistered`), since a new channel starts without a value.

The value before the current one is followed in the same way: it is what the channel had when its
value last changed (`Catalog.ChangedLast`).
-/

namespace BusMaster

/-! ## Values equal to themselves -/

/-- A quotient of a whole number and a power of ten is equal to itself. -/
theorem Value.same_self_scaled (i : Int) {n : Nat} (h : n < 256) :
    (Value.float ((Binary64.ofInt i).div (.tenTo n))).same
      (.float ((Binary64.ofInt i).div (.tenTo n))) = true := by
  obtain ⟨finite, nonzero⟩ := Binary64.tenTo_finite h
  exact Binary64.same_self_iff.2 (Binary64.isNaN_div (Binary64.isNaN_ofInt i) finite nonzero)

theorem Value.same_self_int (i : Int) : (Value.int i).same (.int i) = true := beq_self_eq_true i

namespace Encoding

theorem same_self_of_decodeBytes {e : Encoding} {cls : ValueClass} {bytes : Bytes} {v : Value}
    (fraction : cls ≠ .float32) (h : e.decodeBytes cls bytes = .ok v) : v.same v = true := by
  rw [decodeBytes.eq_def] at h
  split at h
  · cases h
    exact Value.same_self_scaled _ (by decide)
  · exact absurd rfl fraction
  · rename_i raw
    rcases hraw : rawInteger e.order cls bytes with fault | raw <;> rw [hraw] at h
    · cases h
    · rcases hscale : e.scale with _ | places
      · rw [hscale] at h
        cases h
        exact Value.same_self_int raw
      · rw [hscale] at h
        by_cases integer : cls.isInteger = true
        · simp only [integer] at h
          cases h
          exact Value.same_self_scaled raw places.toNat_lt
        · simp only [integer] at h
          cases h
          exact Value.same_self_int raw

/-- **What is decoded is equal to itself**, unless its class is that of fractions. -/
theorem same_self_of_decode {e : Encoding} {cls : ValueClass} {field : Field} {v : Value}
    (fraction : cls ≠ .float32) (h : e.decode cls field = .ok v) : v.same v = true := by
  cases field with
  | bytes bytes => exact same_self_of_decodeBytes fraction h
  | bits s =>
    rw [decode.eq_def] at h
    dsimp only at h
    split at h
    · split at h
      · rename_i b _
        cases h
        exact beq_self_eq_true b
      · cases h
    · cases h
      exact Value.same_self_int _
    · cases h
      exact beq_self_eq_true s.toText
    · cases h

end Encoding

/-- What a channel reads is equal to itself, unless it reads fractions. -/
theorem Channel.same_self_of_read {ch : Channel} {p : Payload} {v : Value}
    (fraction : ch.cls ≠ .float32) (h : ch.read p = .ok v) : v.same v = true := by
  rw [read] at h
  rcases hfield : ch.extract p with fault | field <;> rw [hfield] at h
  · cases h
  · exact Encoding.same_self_of_decode fraction h

/-! ## One read -/

namespace ChannelEntry

variable {e : ChannelEntry} {policy : ReportPolicy} {p : Payload}

theorem report?_eq_some {s : State} (h : e.report? policy p = some s) :
    s.channel = e.channel.id ∧ e.channel.read p = .ok s.value := by
  rw [report?] at h
  split at h
  · cases h
  · rename_i value hread
    split at h
    · cases h
    · split at h
      · cases h
        exact ⟨rfl, hread⟩
      · split at h <;> cases h
        exact ⟨rfl, hread⟩
      · cases h

theorem report?_of_read (bitmap : e.channel.cls ≠ .changeBitmap) {v : Value}
    (h : e.channel.read p = .ok v) :
    e.report? policy p = match e.channel.report.getD policy with
      | .always => some ⟨e.channel.id, v⟩
      | .change => if isKnown e.current v then none else some ⟨e.channel.id, v⟩
      | .never => none := by
  cases hpolicy : e.channel.report.getD policy <;> simp only [report?, h, if_neg bitmap, hpolicy]

/-- A channel that reports never reports nothing, whatever it reads. -/
theorem report?_of_never (never : e.channel.report.getD policy = .never) :
    e.report? policy p = none := by
  rcases hread : e.channel.read p with fault | v
  · rw [report?, hread]
  · by_cases bitmap : e.channel.cls = .changeBitmap
    · simp only [report?, hread, if_pos bitmap]
    · rw [report?_of_read bitmap hread, never]

theorem refresh_of_read (bitmap : e.channel.cls ≠ .changeBitmap) {v : Value}
    (h : e.channel.read p = .ok v) :
    e.refresh p = if isKnown e.current v then e
      else { e with current := some v, previous := e.current } := by
  simp only [refresh, h, bitmap, false_or]

/-- the value that is kept is the one that was told last, and there is none if none was told -/
def Mirrored (told : Option State) (kept : Option Value) : Prop :=
  Option.Rel (fun s v => v.same s.value = true) told kept

/-- **A read keeps the mirror**, as long as reports are made at all. -/
theorem mirrored_refresh {told : List State} (h : Mirrored told.getLast? e.current)
    (bitmap : e.channel.cls ≠ .changeBitmap) (fraction : e.channel.cls ≠ .float32)
    (reports : e.channel.report.getD policy ≠ .never) :
    Mirrored (told ++ (e.report? policy p).toList).getLast? (e.refresh p).current := by
  rcases hread : e.channel.read p with fault | v
  · simpa [report?, refresh, hread] using h
  · have told_of (w : Value) (same : w.same v = true) :
        Mirrored (told ++ [(⟨e.channel.id, v⟩ : State)]).getLast? (some w) := by
      rw [List.getLast?_concat]
      exact .some same
    rw [report?_of_read bitmap hread, refresh_of_read bitmap hread]
    by_cases known : isKnown e.current v = true
    · rw [if_pos known, if_pos known]
      -- what is known is told again or not, and is not kept either way
      cases hpolicy : e.channel.report.getD policy with
      | always =>
        rcases hcurrent : e.current with _ | w <;> rw [hcurrent] at known
        · cases known
        · exact told_of w known
      | change =>
        rw [Option.toList_none, List.append_nil]
        exact h
      | never => exact absurd hpolicy reports
    · rw [if_neg known, if_neg known]
      have new := told_of v (Channel.same_self_of_read fraction hread)
      cases hpolicy : e.channel.report.getD policy with
      | always => exact new
      | change => exact new
      | never => exact absurd hpolicy reports

/-- A read that changes the value keeps the one before, which differs. -/
theorem previous_refresh (e : ChannelEntry) (p : Payload) :
    e.refresh p = e ∨ ∃ v, (e.refresh p).current = some v ∧ (e.refresh p).previous = e.current ∧
      isKnown e.current v = false := by
  rw [refresh]
  split
  · exact .inl rfl
  · rename_i value _
    split
    · exact .inl rfl
    · rename_i changed
      exact .inr ⟨value, rfl, rfl, Bool.eq_false_iff.2 (not_or.1 changed).2⟩

end ChannelEntry

namespace Catalog

variable {c c' : Catalog} {o : Operation} {m : Message}

/-! ## Channels in order -/

/-- the channels are kept under their ids -/
def Named (c : Catalog) : Prop :=
  ∀ {id : ChannelId} {e : ChannelEntry}, c.channels[id]? = some e → e.channel.id = id

theorem named_run (ops : List Operation) : Named (run {} ops) := by
  induction ops using List.reverseRecOn with
  | nil =>
    intro id e h
    change (∅ : Std.TreeMap ChannelId ChannelEntry)[_]? = _ at h
    simp at h
  | append_singleton ops o ih =>
    intro id e h
    rw [run_concat] at h
    cases heard_perform h with
    | before he _ _ => exact ih he
    | registered _ hid _ => exact hid
    | told _ he _ _ =>
      rw [channel_refresh]
      exact ih he

theorem mem_boundTo {id : DatasetId} {e : ChannelEntry} :
    e ∈ c.boundTo id ↔
      (∃ key : ChannelId, c.channels[key]? = some e) ∧ e.channel.dataset = id := by
  simp [boundTo, Std.TreeMap.mem_toList_iff_getElem?_eq_some]

/-- The channels of a dataset come in the order of their ids, each once. -/
theorem Named.sorted_boundTo (named : Named c) (id : DatasetId) :
    (c.boundTo id).Pairwise fun a b => a.channel.id < b.channel.id := by
  have keys : c.channels.toList.Pairwise fun a b => a.2.channel.id < b.2.channel.id := by
    refine Std.TreeMap.ordered_keys_toList.imp_of_mem fun {a b} ha hb less => ?_
    rw [named (Std.TreeMap.mem_toList_iff_getElem?_eq_some.1 ha),
      named (Std.TreeMap.mem_toList_iff_getElem?_eq_some.1 hb)]
    exact compareOfLessAndEq_eq_lt.1 less
  have entries : (c.channels.toList.map (·.2)).Pairwise fun a b =>
    a.channel.id < b.channel.id := List.pairwise_map.2 keys
  exact entries.filter _

/-! ## What an update tells -/

/-- the states that come with an answer -/
def Answer.states : Answer → List State
  | .update (.ok u) => u.states
  | _ => []

/-- The states of an update are the reports of the channels of its dataset, if it is passed on. -/
theorem states_of_apply {u : Update} {lines : List LogLine}
    (h : c.apply m = .ok (u, c', lines)) {entry : DatasetEntry}
    (hentry : c.datasets[m.dataset]? = some entry) :
    u.states = if fansOut entry.dataset (differs entry.cache m.payload) then
      (c.boundTo m.dataset).filterMap fun e => e.report? entry.dataset.report m.payload else [] := by
  rw [Catalog.apply] at h
  rw [hentry] at h
  dsimp only at h
  split at h <;> cases h
  · rename_i fans
    rw [if_pos fans]
  · rename_i silent
    rw [if_neg silent]

/-- **The states of an update are in the order of their channels, one for each at most.** -/
theorem sorted_states (named : Named c) {u : Update} {lines : List LogLine}
    (h : c.apply m = .ok (u, c', lines)) :
    (u.states.map (·.channel)).Pairwise (· < ·) := by
  obtain ⟨entry, hentry, -⟩ := (applied_of_apply h).kept
  rw [states_of_apply h hentry]
  split
  · refine List.pairwise_map.2 (List.pairwise_filterMap.2 ?_)
    refine (named.sorted_boundTo m.dataset).imp fun {a b} less s hs s' hs' => ?_
    rw [(ChannelEntry.report?_eq_some hs).1, (ChannelEntry.report?_eq_some hs').1]
    exact less
  · exact List.Pairwise.nil

/-- A state that is told comes from a channel that is told. -/
theorem tells_of_mem_states (named : Named c) {s : State} (hs : s ∈ (c.perform o).1.states) :
    ∃ e, c.channels[s.channel]? = some e ∧ c.Tells o e.channel.dataset := by
  cases o with
  | apply m =>
    rw [perform] at hs
    rcases happly : c.apply m with fault | ⟨u, c', lines⟩ <;> rw [happly] at hs
    · cases hs
    · obtain ⟨entry, hentry, -⟩ := (applied_of_apply happly).kept
      change s ∈ u.states at hs
      rw [states_of_apply happly hentry] at hs
      split at hs
      · rename_i fans
        obtain ⟨e, he, hreport⟩ := List.mem_filterMap.1 hs
        obtain ⟨⟨key, hkey⟩, bound⟩ := mem_boundTo.1 he
        rw [(ChannelEntry.report?_eq_some hreport).1, named hkey]
        exact ⟨e, hkey, m, rfl, bound.symm, entry, hentry, fans⟩
      · cases hs
  | _ => cases hs

/-- the states of a channel among some -/
def statesOf (id : ChannelId) (states : List State) : List State :=
  states.filter fun s => s.channel = id

/-- The states of a channel that is not told are none. -/
theorem statesOf_untold (named : Named c) {id : ChannelId} {e : ChannelEntry}
    (he : c.channels[id]? = some e) (untold : ¬c.Tells o e.channel.dataset) :
    statesOf id (c.perform o).1.states = [] := by
  rw [statesOf, List.filter_eq_nil_iff]
  intro s hs
  rw [decide_eq_true_eq]
  rintro rfl
  obtain ⟨e', he', tells⟩ := tells_of_mem_states named hs
  obtain rfl := Option.some.inj (he.symm.trans he')
  exact untold tells

/-- What is picked out of a list by a key that occurs once. -/
theorem filterMap_of_unique {α β κ : Type} {key : α → κ} {l : List α} {a : α} (g : α → Option β)
    (distinct : l.Pairwise fun x y => key x ≠ key y) (mem : a ∈ l)
    (others : ∀ x ∈ l, key x ≠ key a → g x = none) : l.filterMap g = (g a).toList := by
  obtain ⟨front, back, rfl⟩ := List.append_of_mem mem
  obtain ⟨-, distinct, before⟩ := List.pairwise_append.1 distinct
  have hfront : front.filterMap g = [] := List.filterMap_eq_nil_iff.2 fun x hx =>
    others x (List.mem_append_left _ hx) (before x hx a List.mem_cons_self)
  have hback : back.filterMap g = [] := List.filterMap_eq_nil_iff.2 fun x hx =>
    others x (List.mem_append_right _ (List.mem_cons_of_mem a hx))
      (List.rel_of_pairwise_cons distinct hx).symm
  rw [List.filterMap_append, hfront, List.nil_append, List.filterMap_cons, hback]
  cases g a <;> rfl

/-- The states of a channel that is told are what it reports. -/
theorem statesOf_told (named : Named c) {id : ChannelId} {e : ChannelEntry}
    (he : c.channels[id]? = some e) (bound : e.channel.dataset = m.dataset) {entry : DatasetEntry}
    (hentry : c.datasets[m.dataset]? = some entry)
    (fans : fansOut entry.dataset (differs entry.cache m.payload) = true) :
    statesOf id (c.perform (.apply m)).1.states =
      (e.report? entry.dataset.report m.payload).toList := by
  rcases happly : c.apply m with fault | ⟨u, c', lines⟩
  · rw [(apply_eq_error_iff.1 happly).1] at hentry
    cases hentry
  · have hstates : (c.perform (.apply m)).1.states = u.states := by
      rw [perform, happly]
      rfl
    rw [hstates, states_of_apply happly hentry, if_pos fans, statesOf, List.filter_filterMap]
    have distinct : (c.boundTo m.dataset).Pairwise fun a b => a.channel.id ≠ b.channel.id := by
      refine (named.sorted_boundTo m.dataset).imp fun {a b} less same => ?_
      exact String.lt_irrefl b.channel.id (same ▸ less)
    rw [filterMap_of_unique _ distinct (mem_boundTo.2 ⟨⟨id, he⟩, bound⟩) fun x _ other => ?_]
    · rcases hreport : e.report? entry.dataset.report m.payload with _ | s
      · rfl
      · have mine : s.channel = id := (ChannelEntry.report?_eq_some hreport).1.trans (named he)
        simp [mine]
    · rcases hreport : x.report? entry.dataset.report m.payload with _ | s
      · rfl
      · have mine : s.channel ≠ id := by
          rw [(ChannelEntry.report?_eq_some hreport).1, ← named he]
          exact other
        simp [mine]

/-- A message that is passed on is read by the channels of its dataset. -/
theorem channels_of_apply {u : Update} {lines : List LogLine}
    (h : c.apply m = .ok (u, c', lines)) {entry : DatasetEntry}
    (hentry : c.datasets[m.dataset]? = some entry) :
    c'.channels = if fansOut entry.dataset (differs entry.cache m.payload) then
      c.channels.map fun _ e => if e.channel.dataset = m.dataset then e.refresh m.payload else e
      else c.channels := by
  rw [Catalog.apply] at h
  rw [hentry] at h
  dsimp only at h
  split at h <;> cases h
  · rename_i fans
    rw [if_pos fans]
  · rename_i silent
    rw [if_neg silent]

theorem tells_apply_iff {id : DatasetId} :
    c.Tells (.apply m) id ↔ m.dataset = id ∧ c.PassesOn m := by
  constructor
  · rintro ⟨m', hm', hid, passed⟩
    cases hm'
    exact ⟨hid, passed⟩
  · rintro ⟨hid, passed⟩
    exact ⟨m, rfl, hid, passed⟩

/-- A message tells the channels of its dataset when it is passed on. -/
theorem tells_iff_passesOn {id : DatasetId} (bound : id = m.dataset) :
    c.Tells (.apply m) id ↔ c.PassesOn m :=
  tells_apply_iff.trans (and_iff_right bound.symm)

/-- **A channel that is told of a message reports it and reads it, and for any other one the message
is as if it had not come.** -/
theorem apply_cases (named : Named c) {u : Update} {lines : List LogLine}
    (h : c.apply m = .ok (u, c', lines)) {id : ChannelId} {e : ChannelEntry}
    (he : c.channels[id]? = some e) :
    c.Tells (.apply m) e.channel.dataset ∧
        statesOf id u.states = (e.report? u.dataset.report m.payload).toList ∧
        c'.channels[id]? = some (e.refresh m.payload) ∨
      ¬c.Tells (.apply m) e.channel.dataset ∧ statesOf id u.states = [] ∧
        c'.channels[id]? = some e := by
  have hstates : (c.perform (.apply m)).1.states = u.states := by
    rw [perform, h]
    rfl
  obtain ⟨entry, hentry, -⟩ := (applied_of_apply h).kept
  have hchannels := channels_of_apply h hentry
  by_cases told : c.Tells (.apply m) e.channel.dataset
  · refine .inl ⟨told, ?_⟩
    obtain ⟨bound, entry', hentry', fans⟩ := tells_apply_iff.1 told
    obtain rfl := Option.some.inj (hentry.symm.trans hentry')
    constructor
    · rw [← hstates, statesOf_told named he bound.symm hentry fans, (update_of_apply h hentry).1]
    · rw [hchannels, if_pos fans, Std.TreeMap.getElem?_map, he, Option.map_some,
        if_pos bound.symm]
  · refine .inr ⟨told, hstates ▸ statesOf_untold named he told, ?_⟩
    rw [hchannels]
    split
    · rename_i fans
      rw [Std.TreeMap.getElem?_map, he, Option.map_some, if_neg fun bound => told ?_]
      exact tells_apply_iff.2 ⟨bound.symm, entry, hentry, fans⟩
    · exact he

/-! ## Since a channel was registered -/

theorem run_append (ops later : List Operation) (c : Catalog) :
    c.run (ops ++ later) = (c.run ops).run later := List.foldl_append

theorem answers_append (ops later : List Operation) (c : Catalog) :
    c.answers (ops ++ later) = c.answers ops ++ (c.run ops).answers later := by
  induction ops generalizing c with
  | nil => rfl
  | cons o ops ih =>
    rw [List.cons_append, answers, ih]
    rfl

/-- In a run a channel was registered last after `before`, and `later` followed. -/
structure LastRegistered (ops : List Operation) (ch : Channel) (before later : List Operation) :
    Prop where
  split : ops = before ++ .addChannel ch :: later
  accepted : ((run {} before).addChannel ch).1 = true
  last : ∀ during o after, later = during ++ o :: after →
    ¬(run {} (before ++ .addChannel ch :: during)).Registers o ch.id

theorem LastRegistered.concat {ops before later : List Operation} {ch : Channel}
    (h : LastRegistered ops ch before later) (other : ¬(run {} ops).Registers o ch.id) :
    LastRegistered (ops ++ [o]) ch before (later ++ [o]) := by
  refine ⟨by rw [h.split, List.append_assoc, List.cons_append], h.accepted,
    fun during o' after hlater => ?_⟩
  rcases List.eq_nil_or_concat after with rfl | ⟨after, o'', rfl⟩
  · obtain ⟨rfl, ⟨⟩⟩ := List.append_inj' hlater rfl
    exact h.split ▸ other
  · rw [List.concat_eq_append, ← List.cons_append, ← List.append_assoc] at hlater
    obtain ⟨rfl, -⟩ := List.append_inj' hlater rfl
    exact h.last during o' after rfl

/-- what the host was told of a channel in `later`, after `before` and the registration -/
def statesSince (before : List Operation) (ch : Channel) (later : List Operation) : List State :=
  statesOf ch.id (((run {} (before ++ [.addChannel ch])).answers later).flatMap Answer.states)

theorem statesSince_concat {ops before later : List Operation} {ch : Channel}
    (h : LastRegistered ops ch before later) (o : Operation) :
    statesSince before ch (later ++ [o]) =
      statesSince before ch later ++ statesOf ch.id ((run {} ops).perform o).1.states := by
  have reached : (run {} (before ++ [.addChannel ch])).run later = run {} ops := by
    rw [h.split, List.append_cons before _ later, run_append _ later]
  rw [statesSince, answers_append, reached, List.flatMap_append, statesOf, List.filter_append]
  exact congrArg _ (congrArg _ (List.append_nil _))

/-- The definition of a dataset that has a channel stays. -/
theorem dataset?_perform {ops : List Operation} {e : ChannelEntry} {id : ChannelId}
    (he : (run {} ops).channels[id]? = some e) {d : Dataset}
    (hd : ((run {} ops).perform o).2.dataset? e.channel.dataset = some d) :
    (run {} ops).dataset? e.channel.dataset = some d := by
  have sound : Sound (run {} ops) := (Built.empty.run ops).sound
  obtain ⟨entry, hentry, -⟩ := checkChannel_eq_ok (sound.fits he)
  obtain ⟨entry', hentry', rfl⟩ := Option.map_eq_some_iff.1 hd
  have live := (change_perform (run {} ops) o).precedes.live (sound.given hentry)
    (x := (entry'.key, entry'.dataset)) (by rw [definition?, hentry']; rfl)
  obtain ⟨before, hbefore, hsame⟩ := Option.map_eq_some_iff.1 live
  rw [dataset?, hbefore]
  exact congrArg some (Prod.mk.inj hsame).2

/-- **The host's mirror is the catalog.** -/
theorem mirrored_run (ops : List Operation) {id : ChannelId} {e : ChannelEntry}
    (he : (run {} ops).channels[id]? = some e) :
    ∃ before later, LastRegistered ops e.channel before later ∧
      ∀ d, (run {} ops).dataset? e.channel.dataset = some d → e.channel.cls ≠ .changeBitmap →
        e.channel.cls ≠ .float32 → e.channel.report.getD d.report ≠ .never →
        ChannelEntry.Mirrored (statesSince before e.channel later).getLast? e.current := by
  induction ops using List.reverseRecOn generalizing e with
  | nil =>
    change (∅ : Std.TreeMap ChannelId ChannelEntry)[_]? = _ at he
    simp at he
  | append_singleton ops o ih =>
    have named : Named (run {} ops) := named_run ops
    rw [run_concat] at he
    rw [run_concat]
    cases heard_perform he with
    | before hold unregistered untold =>
      obtain ⟨before, later, registered, mirrored⟩ := ih hold
      rw [← named hold] at unregistered
      refine ⟨before, later ++ [o], registered.concat unregistered,
        fun d hd bitmap fraction reports => ?_⟩
      rw [statesSince_concat registered, named hold, statesOf_untold named hold untold,
        List.append_nil]
      exact mirrored d (dataset?_perform hold hd) bitmap fraction reports
    | @registered ch ho hid accepted =>
      subst ho
      refine ⟨ops, [], ⟨rfl, accepted, fun during o after hlater => ?_⟩, fun _ _ _ _ _ => .none⟩
      exact absurd hlater (by simp)
    | @told m e hm hold bound passed =>
      subst hm
      rw [channel_refresh]
      obtain ⟨before, later, registered, mirrored⟩ := ih hold
      have unregistered : ¬(run {} ops).Registers (.apply m) e.channel.id := by
        rintro ⟨ch, hch, -⟩
        cases hch
      refine ⟨before, later ++ [.apply m], registered.concat unregistered,
        fun d hd bitmap fraction reports => ?_⟩
      have hd := dataset?_perform hold hd
      obtain ⟨entry, hentry, fans⟩ := passed
      have definition : entry.dataset = d := by
        rw [dataset?, bound, hentry] at hd
        exact Option.some.inj hd
      rw [statesSince_concat registered, named hold, statesOf_told named hold bound hentry fans,
        definition]
      exact ChannelEntry.mirrored_refresh (mirrored d hd bitmap fraction reports) bitmap fraction
        reports

/-! ## The value before -/

/-- the value of a channel changed from `p` to `v` in a run, and has been `v` since -/
def ChangedLast (ops : List Operation) (id : ChannelId) (p v : Value) : Prop :=
  ∃ before o later, ops = before ++ o :: later ∧ (run {} before).value? id = some p ∧
    ∀ during after, later = during ++ after →
      (run {} (before ++ o :: during)).value? id = some v

theorem ChangedLast.concat {ops : List Operation} {id : ChannelId} {p v : Value}
    (h : ChangedLast ops id p v) (stays : (run {} (ops ++ [o])).value? id = some v) :
    ChangedLast (ops ++ [o]) id p v := by
  obtain ⟨before, o', later, rfl, hp, hv⟩ := h
  refine ⟨before, o', later ++ [o], by rw [List.append_assoc, List.cons_append], hp,
    fun during after hlater => ?_⟩
  rcases List.eq_nil_or_concat after with rfl | ⟨after, o'', rfl⟩
  · rw [List.append_nil] at hlater
    rw [← hlater, ← List.cons_append, ← List.append_assoc]
    exact stays
  · rw [List.concat_eq_append, ← List.append_assoc] at hlater
    exact hv during after (List.append_inj' hlater rfl).1

theorem value?_eq {id : ChannelId} {e : ChannelEntry} (he : c.channels[id]? = some e) :
    c.value? id = e.current := by
  rw [value?, he]
  rfl

/-- **The value before is the one that the channel had when its value last changed**, and it
differs. -/
theorem previous_run (ops : List Operation) {id : ChannelId} {e : ChannelEntry}
    (he : (run {} ops).channels[id]? = some e) {p : Value} (hp : e.previous = some p) :
    ∃ v, e.current = some v ∧ p.same v = false ∧ ChangedLast ops id p v := by
  induction ops using List.reverseRecOn generalizing e with
  | nil =>
    change (∅ : Std.TreeMap ChannelId ChannelEntry)[_]? = _ at he
    simp at he
  | append_singleton ops o ih =>
    have value := value?_eq he
    rw [run_concat] at he
    cases heard_perform he with
    | before hold _ _ =>
      obtain ⟨v, hv, differs, changed⟩ := ih hold hp
      exact ⟨v, hv, differs, changed.concat (value.trans hv)⟩
    | registered _ _ _ => cases hp
    | @told m e hm hold bound passed =>
      rcases e.previous_refresh m.payload with same | ⟨v, hv, hprevious, unknown⟩
      · rw [same] at hp value ⊢
        obtain ⟨v, hv, differs, changed⟩ := ih hold hp
        exact ⟨v, hv, differs, changed.concat (value.trans hv)⟩
      · rw [hprevious] at hp
        rw [hp] at unknown
        refine ⟨v, hv, unknown, ops, o, [], rfl, (value?_eq hold).trans hp,
          fun during after hlater => ?_⟩
        obtain ⟨rfl, rfl⟩ := List.append_eq_nil_iff.1 hlater.symm
        exact value.trans hv

end Catalog

end BusMaster
