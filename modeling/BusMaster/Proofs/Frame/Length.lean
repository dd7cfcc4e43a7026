import Mathlib.Data.List.Basic
import BusMaster.Frame.Length

/-!
# Lengths of what is still coming in

A receiver asks for the length of a response before all of it is there. What it is told does not
lead it astray: with more bytes a length stays what it is, bytes that start no response still start
none, and a number of bytes that are needed is more than came in and no more than there will be
(`responseLength_told`). A reader that goes by it (`Gathered`) therefore never asks for a byte
behind its response, and has something to ask for until the response is there
(`responseLength_exact_and_stable`).
-/

namespace BusMaster

namespace Length

/-- what `seen` bytes say of the length holds of what more bytes say -/
inductive Refines (seen : Nat) : Length → Length → Prop where
  | exact {n : Nat} : Refines seen (.exact n) (.exact n)
  | atLeast {n : Nat} {later : Length} :
    seen < n → n ≤ later.bytes → Refines seen (.atLeast n) later

theorem Refines.bytes_le {seen : Nat} {l later : Length} (h : Refines seen l later) :
    l.bytes ≤ later.bytes := by
  cases h with
  | exact => exact Nat.le_refl _
  | atLeast _ hle => exact hle

variable {p adu : Bytes}

/-- A byte that is there is there for good. -/
theorem get_of_isPrefix (h : p <+: adu) {i : Nat} (hi : i < p.length) : p[i]? = adu[i]? := by
  obtain ⟨rest, rfl⟩ := h
  exact (List.getElem?_append_left hi).symm

/-- The walk over the objects never turns back. -/
theorem le_walkObjects (adu : Bytes) (count position : Nat) :
    position ≤ (walkObjects adu count position).bytes := by
  induction count generalizing position with
  | zero => exact Nat.le_refl _
  | succ count ih =>
    rw [walkObjects]
    split
    · exact Nat.le_add_right ..
    · dsimp only
      split
      · change position ≤ _ + _ + _
        omega
      · refine Nat.le_trans ?_ (ih _)
        omega

theorem walkObjects_refines (h : p <+: adu) (count position : Nat) :
    Refines p.length (walkObjects p count position) (walkObjects adu count position) := by
  induction count generalizing position with
  | zero => exact .exact
  | succ count ih =>
    rw [walkObjects, walkObjects]
    rcases Nat.lt_or_ge (position + 1) p.length with hlt | hge
    · obtain ⟨length, hlength⟩ : ∃ length, p[position + 1]? = some length :=
        ⟨_, List.getElem?_eq_getElem hlt⟩
      rw [← get_of_isPrefix h hlt, hlength]
      dsimp only
      split
      · exact .exact
      · exact ih _
    · rw [List.getElem?_eq_none hge]
      refine .atLeast (by omega) ?_
      -- the object that is not there yet has two bytes at least
      split
      · exact Nat.le_refl _
      · dsimp only
        split
        · exact Nat.le_add_right ..
        · exact Nat.le_trans (Nat.le_add_right ..) (le_walkObjects ..)

theorem ofIdentification_refines (h : p <+: adu) :
    Refines p.length (ofIdentification p) (ofIdentification adu) := by
  rw [ofIdentification, ofIdentification]
  rcases Nat.lt_or_ge 7 p.length with hlt | hge
  · obtain ⟨count, hcount⟩ : ∃ count, p[7]? = some count := ⟨_, List.getElem?_eq_getElem hlt⟩
    rw [← get_of_isPrefix h hlt, hcount]
    exact walkObjects_refines h ..
  · rw [List.getElem?_eq_none hge]
    refine .atLeast (Nat.lt_succ_of_le hge) ?_
    split
    · exact Nat.le_refl _
    · exact le_walkObjects ..

theorem ofCounted_refines (h : p <+: adu) :
    Refines p.length (ofCounted p) (ofCounted adu) := by
  rw [ofCounted, ofCounted]
  rcases Nat.lt_or_ge 2 p.length with hlt | hge
  · obtain ⟨count, hcount⟩ : ∃ count, p[2]? = some count := ⟨_, List.getElem?_eq_getElem hlt⟩
    rw [← get_of_isPrefix h hlt, hcount]
    exact .exact
  · rw [List.getElem?_eq_none hge]
    refine .atLeast (Nat.lt_succ_of_le hge) ?_
    split
    · exact Nat.le_refl _
    · exact Nat.le_add_right ..

theorem ofFunction?_refines (h : p <+: adu) (f : FunctionCode) :
    Option.Rel (Refines p.length) (ofFunction? p f) (ofFunction? adu f) := by
  cases f
  case readDeviceIdentification => exact .some (ofIdentification_refines h)
  case enumerationReset => exact .none
  all_goals first
    | exact .some (ofCounted_refines h)
    | exact .some .exact

/-- No response is shorter than its unit id and function code. -/
theorem two_le_ofFunction? {f : FunctionCode} {l : Length} (h : ofFunction? adu f = some l) :
    2 ≤ l.bytes := by
  have counted : 2 ≤ (ofCounted adu).bytes := by
    rw [ofCounted]
    split
    · exact Nat.le_succ 2
    · exact Nat.le_trans (Nat.le_succ 2) (Nat.le_add_right ..)
  have identified : 2 ≤ (ofIdentification adu).bytes := by
    rw [ofIdentification]
    split
    · change 2 ≤ 8
      omega
    · exact Nat.le_trans (by omega) (le_walkObjects ..)
  cases f
  case enumerationReset => cases h
  all_goals
    obtain rfl := Option.some.inj h
    first
    | exact counted
    | exact identified
    | exact Nat.le_of_ble_eq_true rfl

end Length

theorem two_le_responseLength {adu : Bytes} {l : Length} (h : responseLength adu = .ok l) :
    2 ≤ l.bytes := by
  rw [responseLength.eq_def] at h
  split at h
  · split at h
    · obtain rfl := Except.ok.inj h
      exact Nat.le_succ 2
    · split at h
      · cases h
      · rename_i length hlength
        obtain ⟨code, -, hcode⟩ := Option.bind_eq_some_iff.1 hlength
        split at h
        · cases h
        · obtain rfl := Except.ok.inj h
          exact Length.two_le_ofFunction? hcode
  · obtain rfl := Except.ok.inj h
    exact Nat.le_refl 2

/-- A response whose length is known is no longer than a frame allows. -/
theorem le_of_responseLength {adu : Bytes} {n : Nat} (h : responseLength adu = .ok (.exact n)) :
    n ≤ maxAdu := by
  rw [responseLength.eq_def] at h
  split at h
  · split at h
    · obtain rfl := Length.exact.inj (Except.ok.inj h)
      exact Nat.le_of_ble_eq_true rfl
    · split at h
      · cases h
      · split at h
        · cases h
        · rename_i small
          obtain rfl := Except.ok.inj h
          exact Nat.not_lt.1 small
  · cases h

/-- what the first bytes of a response say of its length, and what is said of it later -/
inductive Told (seen : Nat) : Except FrameFault Length → Except FrameFault Length → Prop where
  | error {f g : FrameFault} : Told seen (.error f) (.error g)
  | exact {n : Nat} : Told seen (.ok (.exact n)) (.ok (.exact n))
  | atLeast {n : Nat} {later : Except FrameFault Length} :
    seen < n → n ≤ maxAdu → (∀ l, later = .ok l → n ≤ l.bytes) → Told seen (.ok (.atLeast n)) later

/-- **The first bytes of a response give its length, or the number of bytes that are needed next,
or there is no such response.** -/
theorem responseLength_told {p adu : Bytes} (h : p <+: adu) :
    Told p.length (responseLength p) (responseLength adu) := by
  have early : 2 ≤ maxAdu := by decide
  rcases p with _ | ⟨u, _ | ⟨g, rest⟩⟩
  · exact .atLeast (Nat.zero_lt_succ 1) early fun _ => two_le_responseLength
  · exact .atLeast (Nat.lt_succ_self 1) early fun _ => two_le_responseLength
  -- unit id and function code say which length it is
  obtain ⟨more, rfl⟩ := h
  rw [List.cons_append, List.cons_append, responseLength, responseLength]
  split
  · exact .exact
  rcases FunctionCode.ofWire? g with _ | code
  · exact .error
  rw [Option.bind_some, Option.bind_some]
  have refines := Length.ofFunction?_refines (List.prefix_append (u :: g :: rest) more) code
  rw [List.cons_append, List.cons_append] at refines
  rcases hl : Length.ofFunction? (u :: g :: rest) code with _ | l <;>
    rcases hlater : Length.ofFunction? (u :: g :: (rest ++ more)) code with _ | later <;>
    rw [hl, hlater] at refines
  · exact .error
  · cases refines
  · cases refines
  obtain ⟨refines⟩ := refines
  dsimp only
  by_cases large : maxAdu < l.bytes
  · rw [if_pos large, if_pos (Nat.lt_of_lt_of_le large refines.bytes_le)]
    exact .error
  rw [if_neg large]
  cases refines with
  | exact =>
    rw [if_neg large]
    exact .exact
  | atLeast more hle =>
    refine .atLeast more (Nat.not_lt.1 large) fun l hl => ?_
    split at hl
    · cases hl
    · obtain rfl := Except.ok.inj hl
      exact hle

/-- Of the first bytes of a response its length says as much as of all of them, or it asks for more
bytes than there are and no more than there will be. -/
theorem responseLength_of_isPrefix {p adu : Bytes} (h : p <+: adu) {n : Nat}
    (whole : responseLength adu = .ok (.exact n)) :
    ∃ l, responseLength p = .ok l ∧ Length.Refines p.length l (.exact n) := by
  have told := responseLength_told h
  rw [whole] at told
  rcases hp : responseLength p with fault | l
  · rw [hp] at told
    cases told
  · rw [hp] at told
    cases told with
    | exact => exact ⟨_, rfl, .exact⟩
    | atLeast more _ hle => exact ⟨_, rfl, .atLeast more (hle _ rfl)⟩

/-- A length that is known stays known. -/
theorem responseLength_exact_of_isPrefix {p adu : Bytes} (h : p <+: adu) {n : Nat}
    (known : responseLength p = .ok (.exact n)) : responseLength adu = .ok (.exact n) := by
  have told := responseLength_told h
  rw [known] at told
  generalize responseLength adu = later at told
  cases told with
  | exact => rfl

/-- Bytes that start no response never will. -/
theorem responseLength_error_of_isPrefix {p adu : Bytes} (h : p <+: adu) {fault : FrameFault}
    (failed : responseLength p = .error fault) : ∃ later, responseLength adu = .error later := by
  have told := responseLength_told h
  rw [failed] at told
  generalize responseLength adu = later at told
  cases told with
  | @error _ g => exact ⟨g, rfl⟩

/-- A response tells its length without the bytes behind it. -/
theorem responseLength_whole {p adu : Bytes} (h : p <+: adu)
    (whole : responseLength adu = .ok (.exact p.length)) :
    responseLength p = .ok (.exact p.length) := by
  obtain ⟨l, hl, refines⟩ := responseLength_of_isPrefix h whole
  generalize hn : Length.exact p.length = later at refines
  cases refines with
  | exact => exact hn ▸ hl
  | atLeast more hle =>
    subst hn
    exact absurd hle (Nat.not_le.2 more)

/-! ## Readers -/

/-- what a reader has that asks again and again for no more bytes than the length it is told has
more than came in, and is given some of them -/
inductive Gathered : Bytes → Prop where
  | start : Gathered []
  | read {p got : Bytes} {l : Length} {asked : Nat} :
    Gathered p → responseLength p = .ok l → asked ≤ l.bytes - p.length → got.length ≤ asked →
    Gathered (p ++ got)

theorem Told.bytes_le {seen : Nat} {l later : Length} (h : Told seen (.ok l) (.ok later)) :
    l.bytes ≤ later.bytes := by
  cases h with
  | exact => exact Nat.le_refl _
  | atLeast _ _ hle => exact hle later rfl

/-- A reader has no more than the length it is told. -/
theorem Gathered.length_le {p : Bytes} (h : Gathered p) {l : Length}
    (known : responseLength p = .ok l) : p.length ≤ l.bytes := by
  induction h generalizing l with
  | start => exact Nat.zero_le _
  | @read p got before asked _ hbefore hasked hgot ih =>
    have told := responseLength_told (List.prefix_append p got)
    rw [hbefore, known] at told
    have within := ih hbefore
    calc (p ++ got).length
        = p.length + got.length := List.length_append
      _ ≤ before.bytes := by omega
      _ ≤ l.bytes := told.bytes_le

/-- **What is said of a length is right, and stays right with more bytes.** A length that is known
stays, bytes that start no response start none with more behind them, and a number of bytes that are
needed is more than there are and at most what any response they start will have. So a reader never
asks for a byte behind its response, and has one to ask for until the response is there. -/
theorem responseLength_exact_and_stable :
    (∀ p q n, responseLength p = .ok (.exact n) →
      n ≤ 254 ∧ responseLength (p ++ q) = .ok (.exact n))
    ∧ (∀ p q fault, responseLength p = .error fault →
      ∃ later, responseLength (p ++ q) = .error later)
    ∧ (∀ p m, responseLength p = .ok (.atLeast m) → p.length < m ∧ m ≤ 254
      ∧ ∀ q n, responseLength (p ++ q) = .ok (.exact n) → m ≤ n)
    ∧ ∀ p, Gathered p → ∀ l, responseLength p = .ok l →
      (l = .exact p.length ∨ 1 ≤ l.bytes - p.length)
      ∧ ∀ asked ≤ l.bytes - p.length, ∀ q n, responseLength (p ++ q) = .ok (.exact n) →
        p.length + asked ≤ n := by
  refine ⟨?_, ?_, ?_, ?_⟩
  · intro p q n known
    exact ⟨le_of_responseLength known,
      responseLength_exact_of_isPrefix (List.prefix_append p q) known⟩
  · intro p q fault failed
    exact responseLength_error_of_isPrefix (List.prefix_append p q) failed
  · intro p m needed
    have told := fun q => responseLength_told (List.prefix_append p q)
    rw [needed] at told
    have more : p.length < m ∧ m ≤ 254 := by
      cases told [] with
      | atLeast more small _ => exact ⟨more, small⟩
    refine ⟨more.1, more.2, fun q n known => ?_⟩
    have later := told q
    rw [known] at later
    exact later.bytes_le
  · intro p gathered l known
    have within := gathered.length_le known
    refine ⟨?_, fun asked hasked q n whole => ?_⟩
    · cases l with
      | exact n =>
        rcases Nat.eq_or_lt_of_le within with rfl | hlt
        · exact .inl rfl
        · exact .inr (Nat.sub_pos_of_lt hlt)
      | atLeast m =>
        have told := responseLength_told (List.prefix_refl p)
        rw [known] at told
        cases told with
        | atLeast more _ _ => exact .inr (Nat.sub_pos_of_lt more)
    · have told := responseLength_told (List.prefix_append p q)
      rw [known, whole] at told
      have behind : l.bytes ≤ n := told.bytes_le
      omega

/-- The identification of a device with two objects, the first of one byte and the second empty, of
which a reader has eight bytes; and bytes that start no response. -/
theorem responseLength_exact_and_stable_identification :
    let head : Bytes := [0x01, 0x2B, 0x0E, 0x01, 0x01, 0x00, 0x00, 0x02]
    let objects : Bytes := [0x00, 0x01, 0x41, 0x01, 0x00]
    Gathered head ∧ responseLength head = .ok (.atLeast 10) ∧ head.length < 10
    ∧ responseLength (head ++ objects) = .ok (.exact 13) ∧ head.length + 2 ≤ 13
    ∧ responseLength (head ++ objects ++ [0xFF]) = .ok (.exact 13)
    ∧ responseLength [0x01, 0x7F] = .error (.unknownFunction 0x7F)
    ∧ ∃ later, responseLength ([0x01, 0x7F] ++ [0x02]) = .error later := by
  obtain ⟨stays, fails, needs, reads⟩ := responseLength_exact_and_stable
  intro head objects
  have first : Gathered [0x01, 0x2B] :=
    @Gathered.read [] [0x01, 0x2B] (.atLeast 2) 2 .start rfl (Nat.le_refl 2) (Nat.le_refl 2)
  have gathered : Gathered head :=
    @Gathered.read _ (head.drop 2) (.atLeast 8) 6 first rfl (Nat.le_refl 6) (Nat.le_refl 6)
  have whole : responseLength (head ++ objects) = .ok (.exact 13) := by decide
  have needed : responseLength head = .ok (.atLeast 10) := by decide
  have failed : responseLength [0x01, 0x7F] = .error (.unknownFunction 0x7F) := by decide
  exact ⟨gathered, needed, (needs head 10 needed).1, whole,
    (reads head gathered _ needed).2 2 (Nat.le_refl 2) objects 13 whole,
    (stays (head ++ objects) [0xFF] 13 whole).2, failed, fails [0x01, 0x7F] [0x02] _ failed⟩

end BusMaster
