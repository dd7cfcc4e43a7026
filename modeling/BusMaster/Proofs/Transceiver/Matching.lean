import BusMaster.Proofs.Transceiver.Alignment

/-!
# Responses and their requests behind a bridge

An exchange that is begun takes the next id, whether it is answered or not, and nothing else does
(`nextId_use`), so ids come round again after 65536 exchanges and not before (`add_ofNat_ne`). The
frame of the request carries the id of its exchange, and so does the frame whose body is handed out
as the response, whatever else comes in (`Transceiver.matched_of_transact`). Together: a response to
an earlier exchange is not handed out, and it is not in the way of the response that is waited for
(`response_carries_own_id`).
-/

namespace BusMaster

open Bridge

/-- what is done with a transceiver -/
inductive Use where
  | connect
  | disconnect
  | exchange (x : Exchange)
  deriving Repr

/-- an exchange takes an id when its request can be sent; it need not be answered, nor the link be
open -/
def Use.draws : Use → Bool
  | .exchange (.transact request) => (Transceiver.checkRequest request).isOk
  | .exchange (.send request) => (Transceiver.checkRequest request).isOk
  | _ => false

namespace Transceiver

/-- the transceiver after one use -/
def use (t : Transceiver) : Use → Transceiver
  | .connect => t.connect.2
  | .disconnect => t.disconnect
  | .exchange x => t.perform x

/-- the transceiver after a number of uses -/
def useAll (t : Transceiver) (xs : List Use) : Transceiver := xs.foldl use t

variable {t : Transceiver} {request adu : Bytes}

/-! ## The ids of exchanges -/

theorem nextId_begin (t : Transceiver) (request : Bytes) (reply : Bool) :
    (t.begin request reply).2.nextId =
      if (checkRequest request).isOk then t.nextId + 1 else t.nextId := by
  have begins := t.begins request reply
  generalize t.begin request reply = begun at begins
  obtain ⟨journal, hwriting⟩ := t.writing_eq request
  cases begins with
  | refused checked =>
    rw [checked]
    rfl
  | closed checked =>
    rw [checked]
    rfl
  | failed checked =>
    rw [checked, (quiet_conclude ..).nextId, hwriting]
    rfl
  | unanswered checked =>
    rw [checked, (quiet_conclude ..).nextId, written, hwriting]
    rfl
  | answered checked =>
    rw [checked, written, hwriting]
    rfl

theorem nextId_transact (t : Transceiver) (request : Bytes) :
    (t.transact request).2.nextId =
      if (checkRequest request).isOk then t.nextId + 1 else t.nextId := by
  have begun := t.nextId_begin request true
  rw [transact]
  rcases hbegin : t.begin request true with ⟨result | p, t'⟩
  · rw [hbegin] at begun
    exact begun
  · rw [hbegin] at begun
    exact (t'.quiet_finish p).nextId.trans begun

theorem nextId_send (t : Transceiver) (request : Bytes) :
    (t.send request).2.nextId =
      if (checkRequest request).isOk then t.nextId + 1 else t.nextId := by
  have begun := t.nextId_begin request false
  rw [send]
  rcases hbegin : t.begin request false with ⟨result | p, t'⟩
  · rw [hbegin] at begun
    exact begun
  · rw [hbegin] at begun
    exact begun

/-- An exchange takes one id, and nothing else takes any. -/
theorem nextId_use (t : Transceiver) (x : Use) :
    (t.use x).nextId = if x.draws then t.nextId + 1 else t.nextId := by
  cases x with
  | connect => exact t.quiet_connect.nextId
  | disconnect => exact t.quiet_disconnect.nextId
  | exchange x =>
    cases x with
    | transact request => exact t.nextId_transact request
    | send request => exact t.nextId_send request
    | pass length => rfl

theorem nextId_useAll (t : Transceiver) (xs : List Use) :
    (t.useAll xs).nextId = t.nextId + UInt16.ofNat (xs.countP Use.draws) := by
  induction xs generalizing t with
  | nil => exact (UInt16.add_zero _).symm
  | cons x xs ih =>
    refine (ih (t.use x)).trans ?_
    rw [nextId_use, List.countP_cons]
    split
    · rw [UInt16.ofNat_add, UInt16.add_assoc, UInt16.add_comm 1]
      rfl
    · rfl

theorem settings_use (t : Transceiver) (x : Use) : (t.use x).settings = t.settings := by
  cases x with
  | connect => exact t.quiet_connect.settings
  | disconnect => exact t.quiet_disconnect.settings
  | exchange x => exact t.settings_perform x

theorem settings_useAll (t : Transceiver) (xs : List Use) :
    (t.useAll xs).settings = t.settings := by
  induction xs generalizing t with
  | nil => rfl
  | cons x xs ih => exact (ih (t.use x)).trans (t.settings_use x)

/-- Ids come round after 65536 exchanges only. -/
theorem add_ofNat_ne (id : UInt16) {n : Nat} (pos : 0 < n) (near : n < 65536) :
    id + UInt16.ofNat n ≠ id := by
  intro h
  have hsum := congrArg UInt16.toNat h
  have hlt := id.toNat_lt
  rw [UInt16.toNat_add, UInt16.toNat_ofNat', Nat.mod_eq_of_lt near] at hsum
  omega

/-- The ids of two exchanges fewer than 65536 apart are different. -/
theorem nextId_ne_of_near (t : Transceiver) (early : List Use) {x : Use} (drawn : x.draws)
    {later : List Use} (near : later.countP Use.draws + 1 < 65536) :
    (t.useAll early).nextId ≠ (t.useAll (early ++ x :: later)).nextId := by
  have hlater : t.useAll (early ++ x :: later) = (t.useAll early).useAll (x :: later) :=
    List.foldl_append
  rw [hlater, nextId_useAll _ (x :: later), List.countP_cons_of_pos drawn]
  exact (add_ofNat_ne _ (Nat.succ_pos _) near).symm

/-! ## The frames of an exchange -/

theorem answers_of_headed {f : Frame} (checked : checkRequest request = .ok ())
    (hid : f.id = t.nextId) (headed : Headed (request.getD 0 0) (request.getD 1 0) f.body) :
    f.Answers t.nextId request := by
  rcases request with _ | ⟨unit, _ | ⟨function, data⟩⟩
  · cases checked
  · cases checked
  · exact ⟨hid, headed.unit, headed.function⟩

/-- The response came in a frame with the id that the frame of the request carries, behind frames with
other ids only, and no byte behind it was taken from the line. -/
def Matched (t : Transceiver) (request adu : Bytes) : Prop :=
  ∃ line line' stale own, t.line = some line ∧ (t.transact request).2.line = some line' ∧
    (t.transact request).2.frames = Bridge.encode t.nextId request :: t.frames ∧
    own.Answers t.nextId request ∧ own.body = adu ∧ (∀ f ∈ stale, f.id ≠ t.nextId) ∧
    line.stream = (stale ++ [own]).flatMap Frame.bytes ++ line'.stream

/-- Frames with other ids are passed over. -/
structure PassesOver (t : Transceiver) (request : Bytes) : Prop where
  /-- a frame with the id of the exchange that is there in time is what it ends with -/
  answered : ∀ stale own, (∀ f ∈ stale, f.id ≠ t.nextId) → own.id = t.nextId →
    (stale ++ [own]).flatMap Frame.bytes <+: t.inTime request →
      (t.transact request).1 =
        ((checkHeader (request.getD 0 0) (request.getD 1 0) own.body).mapError .frame).bind
          fun _ => checkException own.body
  /-- without one the exchange ends at its deadline, or with the link -/
  unanswered : checkRequest request = .ok () →
    (∀ stale own, (stale ++ [own]).flatMap Frame.bytes <+: t.inTime request →
      own.id ≠ t.nextId) →
    (t.transact request).1 = .error .noReply ∨ ∃ f, (t.transact request).1 = .error (.link f)

/-- What is handed out is matched to its request, whatever comes in. -/
theorem matched_of_transact (bridge : t.settings.framing = .bridge)
    (h : (t.transact request).1 = .ok adu) : t.Matched request adu := by
  rcases transact_cases bridge request with ⟨-, -, fault, hfault, -⟩ | ⟨line', p, r, listens⟩
  · cases hfault.symm.trans h
  obtain ⟨⟨line, opened, hstream⟩, hid, hasked, checked, sent, -, ⟨detail, raw, hr⟩, hresult, -,
    kept⟩ := listens
  rw [hresult] at h
  rcases hreceived : r.result with fault | adu'
  · rw [hreceived] at h
    cases h
  rw [hreceived] at h
  obtain rfl : adu' = adu := eq_of_checkException h
  obtain ⟨stale, own, others, hown, hbody, headed, hcontent⟩ := frames_of_receive (hr ▸ hreceived)
  rw [hasked] at headed
  rw [hid] at others hown
  rw [bridge] at sent
  refine ⟨line, _, stale, own, opened, kept fun f hf => ?_, sent,
    answers_of_headed checked hown (hbody ▸ headed), hbody, others, ?_⟩
  · rw [hreceived, h] at hf
    cases hf
  · rw [← hstream, Line.stream, hcontent, hr, List.append_assoc]
    rfl

theorem passesOver_of_whole (bridge : t.settings.framing = .bridge) {line : Line}
    (opened : t.line = some line) (whole : Whole line.stream) (request : Bytes) :
    t.PassesOver request := by
  have wholes : ∀ line', t.line = some line' → Whole line'.stream := fun line' hline' => by
    obtain rfl := Option.some.inj (opened.symm.trans hline')
    exact whole
  refine ⟨fun stale own others hown there => transact_eq_answer bridge wholes others hown there,
    fun checked others => ?_⟩
  rcases transact_cases bridge request with ⟨-, -, fault, hfault, unsent⟩ | ⟨line', p, r, listens⟩
  · cases unsent with
    | refused hcheck => cases checked.symm.trans hcheck
    | closed hline => cases opened.symm.trans hline
    | failed f => exact .inr ⟨f, hfault⟩
  obtain ⟨fs, outcome⟩ := listens.outcome wholes
  rw [listens.result]
  cases outcome with
  | @answered stale _ own _ _ hown hfront =>
    exact absurd (hown.trans listens.id) (others stale own (listens.inTime ▸ hfront))
  | unanswered _ _ _ _ hend =>
    rcases hend with ⟨hsilence, -⟩ | ⟨f, hlink⟩
    · rw [hsilence]
      exact .inl rfl
    · rw [hlink]
      exact .inr ⟨f, rfl⟩

end Transceiver

open Transceiver

/-- **A response is matched to its request.** What an exchange behind a bridge hands out is the body
of a frame with the id that its own request carried, and no byte behind that frame was taken. No
exchange among the 65535 before it carried that id. Where whole frames are to come, however they are
cut and delayed, those with other ids are passed over. -/
theorem response_carries_own_id (t : Transceiver) (bridge : t.settings.framing = .bridge)
    (before : List Use) (request : Bytes) :
    (∀ adu, ((t.useAll before).transact request).1 = .ok adu →
      (t.useAll before).Matched request adu) ∧
    (∀ early x later, before = early ++ x :: later → x.draws →
      later.countP Use.draws + 1 < 65536 → (t.useAll early).nextId ≠ (t.useAll before).nextId) ∧
    ∀ line, (t.useAll before).line = some line → Whole line.stream →
      (t.useAll before).PassesOver request := by
  have hbridge : (t.useAll before).settings.framing = .bridge := by
    rw [settings_useAll]
    exact bridge
  refine ⟨fun adu h => matched_of_transact hbridge h, ?_,
    fun line opened whole => passesOver_of_whole hbridge opened whole request⟩
  rintro early x later rfl drawn near
  exact t.nextId_ne_of_near early drawn near

/-! ## A response that comes too late

The response to the first exchange comes in after its deadline, in front of the response to the
second one.
-/

namespace Late

/-- read one register of unit 17 -/
def request : Bytes := [17, 3, 0, 0, 0, 1]

/-- a response to it -/
def response (id : UInt16) (low : UInt8) : Frame := ⟨id, [17, 3, 2, 0, low], rfl⟩

def late : Frame := response 1 42

def own : Frame := response 2 85

def line : Line where
  writes := [.taken [.pause 1500000000, .bytes late.bytes], .taken [.bytes own.bytes]]

def transceiver : Transceiver where
  settings := { framing := .bridge, endpoint := .tcp "bus" 502 }
  line := some line
  state := .connected

/-- the line after the first exchange -/
def lineAfter : Line where
  incoming := [.readableFrom 1500000000, .bytes late.bytes]
  writes := [.taken [.bytes own.bytes]]

/-- The first exchange ends at its deadline, and the second with its own response. -/
theorem late_response_is_passed_over :
    transceiver.settings.framing = .bridge ∧
      (transceiver.transact request).1 = .error .noReply ∧
      ((transceiver.useAll [.exchange (.transact request)]).transact request).1 = .ok own.body ∧
      transceiver.nextId ≠ (transceiver.useAll [.exchange (.transact request)]).nextId := by
  obtain ⟨-, near, wholes⟩ := response_carries_own_id transceiver rfl
    [.exchange (.transact request)] request
  have hid : (transceiver.useAll [.exchange (.transact request)]).nextId = 2 := by decide +kernel
  have opened : (transceiver.useAll [.exchange (.transact request)]).line = some lineAfter := by
    decide +kernel
  have whole : Whole lineAfter.stream := ⟨[late, own], by decide⟩
  have answered := (wholes lineAfter opened whole).answered [late] own
    (fun f hf => by
      obtain rfl := List.mem_singleton.1 hf
      rw [hid]
      decide) hid.symm (by decide +kernel)
  exact ⟨rfl, by decide +kernel, answered,
    near [] (.exchange (.transact request)) [] rfl (by decide) (by decide)⟩

end Late

end BusMaster
