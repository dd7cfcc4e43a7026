import BusMaster.Proofs.Query.Assigning

/-!
# The course of an enumeration

What an enumeration does is read off its calls, each a request with what was brought for it, and
`Session.Recounts` says of every end of a session which calls led there, whatever was brought. An
enumeration goes by turns. In each turn a unit reports its serial number, and repeats the request
that gives it the next address (`Extended.Turns`). A call that fails in either half of a turn is the
last one and its fault is the result (`Extended.FailedTurn`), but for a query that nobody answers:
that is how an enumeration ends well, unless it runs out of addresses before
(`Extended.recounts_assignFrom`).
-/

namespace BusMaster

/-- a request that was sent, with what was brought for it -/
inductive Call where
  | asked (request : Bytes) (result : Except RequestFault Bytes)
  | told (request : Bytes) (result : Except RequestFault Unit)

namespace Session

variable {α β σ : Type} {P : Except RequestFault α → List Call → Prop}

/-- the calls of a run, in order -/
def calls (c : Carrier σ) : Session α → σ → List Call
  | .done _, _ => []
  | .ask request next, s =>
    let (result, s) := c.ask s request
    .asked request result :: (next result).calls c s
  | .tell request next, s =>
    let (result, s) := c.tell s request
    .told request result :: (next result).calls c s
  | .note line next, s => next.calls c (c.note s line)

/-- every end of the session satisfies `P` of its result and of the calls until then, some of them
before the session -/
def Recounts (P : Except RequestFault α → List Call → Prop) : Session α → List Call → Prop
  | .done result, before => P result before
  | .ask request next, before => ∀ result,
    (next result).Recounts P (before ++ [.asked request result])
  | .tell request next, before => ∀ result,
    (next result).Recounts P (before ++ [.told request result])
  | .note _ next, before => next.Recounts P before

theorem Recounts.run {session : Session α} {before : List Call} (h : session.Recounts P before)
    (c : Carrier σ) (s : σ) : P (session.run c s).1 (before ++ session.calls c s) := by
  induction session generalizing before s with
  | done result => rwa [calls, List.append_nil]
  | ask request next ih =>
    have onward := ih _ (h (c.ask s request).1) (c.ask s request).2
    rwa [List.append_assoc] at onward
  | tell request next ih =>
    have onward := ih _ (h (c.tell s request).1) (c.tell s request).2
    rwa [List.append_assoc] at onward
  | note line next ih => exact ih h _

theorem Recounts.mono {Q : Except RequestFault α → List Call → Prop} {session : Session α}
    {before : List Call} (h : session.Recounts P before)
    (weaker : ∀ result calls, P result calls → Q result calls) : session.Recounts Q before := by
  induction session generalizing before with
  | done result => exact weaker _ _ h
  | ask request next ih => exact fun result => ih result (h result)
  | tell request next ih => exact fun result => ih result (h result)
  | note line next ih => exact ih h

/-- A session goes on where the one before it ends. -/
theorem recounts_bind {f : β → Session α} (session : Session β) (before : List Call) :
    (session.bind f).Recounts P before ↔ session.Recounts (fun result calls =>
      (bind (.done result) f).Recounts P calls) before := by
  induction session generalizing before with
  | done result => exact Iff.rfl
  | ask request next ih => exact forall_congr' fun result => ih result _
  | tell request next ih => exact forall_congr' fun result => ih result _
  | note line next ih => exact ih _

theorem recounts_settle (q : Query α) (response : Bytes) (before : List Call) :
    (settle q response).Recounts P before ↔ P (q.accept response) before := by
  rw [settle]
  split
  · rename_i hecho
    rw [hecho]
    exact Iff.rfl
  · exact Iff.rfl

/-- A query asks once, and fails with the fault of the exchange or of its reading. -/
theorem recounts_ofQuery {q : Query α} {before : List Call}
    (failed : ∀ fault, P (.error fault) (before ++ [.asked q.request (.error fault)]))
    (answered : ∀ response, P (q.accept response) (before ++ [.asked q.request (.ok response)])) :
    (ofQuery (.ok q)).Recounts P before := by
  intro result
  rcases result with fault | response
  · exact failed fault
  · exact (recounts_settle ..).2 (answered response)

end Session

/-! ## The queries of an enumeration -/

/-- the query for the serial number of some unit without an address -/
def serialRequest : Bytes := [UnitId.unassigned.value, FunctionCode.enumerationQuery.wire]

/-- the response reports the serial number, and nothing else -/
def Reports (response : Bytes) (serial : UInt32) : Prop :=
  response.drop 2 = doubleWordBytes serial

/-- the request that gives the unit its address -/
def Assignment.request (a : Assignment) : Bytes :=
  UnitId.broadcast.value :: FunctionCode.assignLogicalAddress.wire ::
    (doubleWordBytes a.serial ++ [a.unit.value])

/-- what is wrong with a response that reports no serial number -/
def reportFault (response : Bytes) : RequestFault :=
  .body (if (response.drop 2).length < 4 then .tooShort else .trailingBytes)

/-- what is wrong with a response that does not repeat the request -/
def echoFault (a : Assignment) (response : Bytes) : RequestFault :=
  if response.length = a.request.length then .echo else .length a.request.length response.length

namespace Extended

/-- A response reports one serial number in four bytes, and no other response is read. -/
theorem acceptWords_cases (response : Bytes) :
    (∃ high low, Standard.acceptWords response = .ok (high, low) ∧
      Reports response (doubleWordOf high low)) ∨
    Standard.acceptWords response = .error (reportFault response) ∧
      ∀ serial, ¬Reports response serial := by
  have silent (other : (response.drop 2).length ≠ 4) : ∀ serial, ¬Reports response serial :=
    fun serial reports => other (congrArg List.length reports)
  rw [Standard.acceptWords.eq_def, reportFault]
  rcases hbody : response.drop 2 with _ | ⟨a, _ | ⟨b, _ | ⟨c, _ | ⟨d, _ | ⟨e, rest⟩⟩⟩⟩⟩
  case cons.cons.cons.cons.nil =>
    refine .inl ⟨wordOf a b, wordOf c d, rfl, ?_⟩
    rw [Reports, hbody, doubleWordBytes_doubleWordOf, wordBytes_wordOf, wordBytes_wordOf]
    rfl
  all_goals
    rw [hbody] at silent
    refine .inr ⟨?_, silent ?_⟩
    · simp
    · simp

theorem exists_serialQuery : ∃ q, serialQuery = .ok q ∧ q.request = serialRequest ∧
    ∀ response, (∃ serial, q.accept response = .ok serial ∧ Reports response serial) ∨
      q.accept response = .error (reportFault response) ∧ ∀ serial, ¬Reports response serial := by
  refine ⟨_, rfl, rfl, fun response => ?_⟩
  dsimp only
  rcases acceptWords_cases response with ⟨high, low, h, reports⟩ | ⟨h, silent⟩
  · exact .inl ⟨_, by rw [h]; rfl, reports⟩
  · exact .inr ⟨by rw [h]; rfl, silent⟩

theorem exists_assignment (a : Assignment) : ∃ q, assignment a = .ok q ∧ q.request = a.request ∧
    ∀ response, response = a.request ∧ q.accept response = .ok () ∨
      response ≠ a.request ∧ q.accept response = .error (echoFault a response) := by
  refine ⟨_, rfl, rfl, fun response => ?_⟩
  change response = a.request ∧ Query.checkEcho a.request.length a.request response = _ ∨
    response ≠ a.request ∧ Query.checkEcho a.request.length a.request response = _
  rw [Query.checkEcho, List.take_length, echoFault]
  by_cases echo : response = a.request
  · refine .inl ⟨echo, ?_⟩
    rw [if_neg (not_not_intro (congrArg List.length echo)), if_neg (not_not_intro echo)]
  · refine .inr ⟨echo, ?_⟩
    by_cases length : response.length = a.request.length
    · rw [if_neg (not_not_intro length), if_pos echo, if_pos length]
    · rw [if_pos length, if_neg length]

/-- An assignment goes on if it was repeated, and fails otherwise. -/
theorem recounts_assignment {α : Type} {P : Except RequestFault α → List Call → Prop}
    {a : Assignment} {f : Unit → Session α} {before : List Call}
    (failed : ∀ fault, P (.error fault) (before ++ [.asked a.request (.error fault)]))
    (other : ∀ response, response ≠ a.request →
      P (.error (echoFault a response)) (before ++ [.asked a.request (.ok response)]))
    (confirmed : (f ()).Recounts P (before ++ [.asked a.request (.ok a.request)])) :
    ((Session.ofQuery (assignment a)).bind f).Recounts P before := by
  obtain ⟨q, hq, hrequest, confirms⟩ := exists_assignment a
  rw [← hrequest] at failed other confirmed confirms
  rw [hq]
  refine (Session.recounts_bind ..).2 (Session.recounts_ofQuery failed fun response => ?_)
  rcases confirms response with ⟨rfl, haccept⟩ | ⟨hother, haccept⟩ <;> rw [haccept]
  · exact confirmed
  · exact other response hother

/-! ## Turns -/

/-- most units that can be given an address from the first one on -/
def room (first : Nat) : Nat := min maxAssigned (256 - first)

/-- the calls are turns: the units report their serial numbers and confirm consecutive addresses -/
structure Turns (first : Nat) (units : List Assignment) (calls : List Call) : Prop where
  /-- the `i`th unit was queried, was given its address, and repeated the request -/
  turn : ∀ i a, units[i]? = some a → a.unit.value.toNat = first + i ∧
    ∃ response, Reports response a.serial ∧
      calls[2 * i]? = some (.asked serialRequest (.ok response)) ∧
      calls[2 * i + 1]? = some (.asked a.request (.ok a.request))
  two : calls.length = 2 * units.length
  few : units.length ≤ room first

/-- the calls of a turn that fails, with the fault: `next` is the address it was about -/
inductive FailedTurn (next : Nat) (fault : RequestFault) : List Call → Prop
  /-- the query failed -/
  | query : fault ≠ .noReply → FailedTurn next fault [.asked serialRequest (.error fault)]
  /-- the query brought no serial number -/
  | report {response : Bytes} : (∀ serial, ¬Reports response serial) →
      fault = reportFault response → FailedTurn next fault [.asked serialRequest (.ok response)]
  /-- the assignment failed, be it that nobody answered -/
  | assignment {response : Bytes} {a : Assignment} : Reports response a.serial →
      a.unit.value.toNat = next →
      FailedTurn next fault [.asked serialRequest (.ok response), .asked a.request (.error fault)]
  /-- the assignment was not repeated -/
  | echo {response other : Bytes} {a : Assignment} : Reports response a.serial →
      a.unit.value.toNat = next → other ≠ a.request → fault = echoFault a other →
      FailedTurn next fault [.asked serialRequest (.ok response), .asked a.request (.ok other)]

/-- the calls of an enumeration after the reset, with its result -/
inductive Course (first : Nat) : Except RequestFault (List Assignment) → List Call → Prop
  /-- nobody answered any more -/
  | silence {units : List Assignment} {turns : List Call} : Turns first units turns →
      units.length < room first →
      Course first (.ok units) (turns ++ [.asked serialRequest (.error .noReply)])
  /-- there is no further address -/
  | full {units : List Assignment} {turns : List Call} : Turns first units turns →
      units.length = room first → Course first (.ok units) turns
  /-- a turn failed -/
  | failed {units : List Assignment} {turns last : List Call} {fault : RequestFault} :
      Turns first units turns → units.length < room first →
      FailedTurn (first + units.length) fault last → Course first (.error fault) (turns ++ last)

namespace Turns

variable {first : Nat} {units : List Assignment} {turns : List Call}

theorem none (first : Nat) : Turns first [] [] := ⟨fun i a h => by simp at h, rfl, Nat.zero_le _⟩

/-- One turn more. -/
theorem next (h : Turns first units turns) {a : Assignment} {response : Bytes}
    (unit : a.unit.value.toNat = first + units.length) (reports : Reports response a.serial)
    (more : units.length < room first) : Turns first (units ++ [a])
      (turns ++ [.asked serialRequest (.ok response), .asked a.request (.ok a.request)]) := by
  refine ⟨fun i b hb => ?_, ?_, ?_⟩
  · rcases Nat.lt_or_ge i units.length with old | new
    · rw [List.getElem?_append_left old] at hb
      obtain ⟨hunit, response, reports, query, assignment⟩ := h.turn i b hb
      refine ⟨hunit, response, reports, ?_, ?_⟩
      · rw [List.getElem?_append_left (by have := h.two; omega), query]
      · rw [List.getElem?_append_left (by have := h.two; omega), assignment]
    · rw [List.getElem?_append_right new] at hb
      obtain ⟨rfl, hi⟩ : b = a ∧ i = units.length := by
        rcases hk : i - units.length with _ | k <;> rw [hk] at hb
        · exact ⟨(Option.some.inj hb).symm, by omega⟩
        · simp at hb
      refine ⟨hi ▸ unit, response, reports, ?_, ?_⟩
      · rw [hi, List.getElem?_append_right (by rw [h.two]), h.two, Nat.sub_self]
        rfl
      · rw [hi, List.getElem?_append_right (by rw [h.two]; omega), h.two, Nat.add_sub_cancel_left]
        rfl
  · rw [List.length_append, h.two, List.length_append]
    simp only [List.length_cons, List.length_nil]
    omega
  · rw [List.length_append]
    exact more

end Turns

/-- **Turn by turn.** What is still to do of an enumeration goes on with the next address, until
nobody answers, a call fails or there is no further address. -/
theorem recounts_assignFrom {first : Nat} (before : List Call) (more : Nat) {next : UInt8}
    {done : List Assignment} {turns : List Call} (h : Turns first done turns)
    (hnext : next.toNat = first + done.length) (limit : done.length + more = maxAssigned) :
    (assignFrom more next done).Recounts (fun result calls =>
      ∃ after, calls = before ++ after ∧ Course first result after) (before ++ turns) := by
  induction more generalizing next done turns with
  | zero =>
    have full : done.length = room first := by
      have := h.few
      unfold room at *
      omega
    exact ⟨_, rfl, .full h full⟩
  | succ more ih =>
    have more_room : done.length < room first := by
      have small := next.toNat_lt
      unfold room
      omega
    obtain ⟨q, hq, hrequest, reads⟩ := exists_serialQuery
    rw [assignFrom]
    rw [hq]
    intro result
    rw [List.append_assoc, hrequest]
    rcases result with fault | response
    · by_cases silence : fault = .noReply
      · subst silence
        exact ⟨_, rfl, .silence h more_room⟩
      · have failed : Course first (.error fault) (turns ++ [.asked serialRequest (.error fault)]) :=
          .failed h more_room (.query silence)
        cases fault <;> first | exact absurd rfl silence | exact ⟨_, rfl, failed⟩
    refine (Session.recounts_bind ..).2 ((Session.recounts_settle ..).2 ?_)
    rcases reads response with ⟨serial, haccept, reports⟩ | ⟨haccept, silent⟩
    · rw [haccept]
      have both (x y : Call) : before ++ (turns ++ [x]) ++ [y] = before ++ (turns ++ [x, y]) := by
        rw [List.append_assoc, List.append_assoc]
        rfl
      refine recounts_assignment (a := ⟨serial, ⟨next⟩⟩)
        (fun fault => ⟨_, both .., .failed h more_room (.assignment reports hnext)⟩)
        (fun echo other => ⟨_, both .., .failed h more_room (.echo reports hnext other rfl)⟩) ?_
      rw [both, Session.Recounts]
      have turned := h.next (a := ⟨serial, ⟨next⟩⟩) hnext reports more_room
      have count : (done ++ [(⟨serial, ⟨next⟩⟩ : Assignment)]).length = done.length + 1 :=
        List.length_append
      split
      · rename_i last
        rw [last] at hnext
        refine ⟨_, rfl, .full turned ?_⟩
        change 255 = _ at hnext
        unfold room at *
        omega
      · rename_i notLast
        refine ih turned ?_ (by omega)
        rw [toNat_next notLast, hnext, count, Nat.add_assoc]
    · rw [haccept]
      exact ⟨_, rfl, .failed h more_room (.report silent rfl)⟩

theorem recounts_enumerate (first : UnitId) : (enumerate first).Recounts (fun result calls =>
    (∃ fault, result = .error fault ∧ calls = [.told resetRequest (.error fault)]) ∨
      ∃ after, calls = .told resetRequest (.ok ()) :: after ∧
        Course first.value.toNat result after) [] := by
  rw [enumerate]
  rcases hq : reset with fault | q
  · cases hq
  obtain rfl := Query.make_eq_ok hq
  rintro (fault | _)
  · exact .inl ⟨fault, rfl, rfl⟩
  · have onward := recounts_assignFrom [.told resetRequest (.ok ())] maxAssigned
      (.none first.value.toNat) rfl (Nat.zero_add _)
    exact onward.mono fun result calls course => .inr course

/-- **An enumeration gives consecutive addresses to the units that report, and stops at the first
call that fails.** When it ends well, each of its units was queried, was given the next address and
repeated the request, and after that nobody answered a query or there was no further address. When
it fails, its fault is that of the last call. -/
theorem enumerate_goes_by_turns {σ : Type} (c : Carrier σ) (s : σ) (first : UnitId) :
    (∀ units, ((enumerate first).run c s).1 = .ok units → ∃ turns,
      Turns first.value.toNat units turns ∧
      (units.length < room first.value.toNat ∧ (enumerate first).calls c s =
          .told resetRequest (.ok ()) :: (turns ++ [.asked serialRequest (.error .noReply)]) ∨
        units.length = room first.value.toNat ∧
          (enumerate first).calls c s = .told resetRequest (.ok ()) :: turns)) ∧
    ∀ fault, ((enumerate first).run c s).1 = .error fault →
      (enumerate first).calls c s = [.told resetRequest (.error fault)] ∨
      ∃ units turns last, Turns first.value.toNat units turns ∧
        units.length < room first.value.toNat ∧
        FailedTurn (first.value.toNat + units.length) fault last ∧
        (enumerate first).calls c s = .told resetRequest (.ok ()) :: (turns ++ last) := by
  have course := (recounts_enumerate first).run c s
  rw [List.nil_append] at course
  refine ⟨fun units h => ?_, fun fault h => ?_⟩ <;> rw [h] at course
  · obtain ⟨fault, hfault, -⟩ | ⟨after, hcalls, course⟩ := course
    · cases hfault
    cases course with
    | silence turns few => exact ⟨_, turns, .inl ⟨few, hcalls⟩⟩
    | full turns all => exact ⟨_, turns, .inr ⟨all, hcalls⟩⟩
  · obtain ⟨fault', hfault, hcalls⟩ | ⟨after, hcalls, course⟩ := course
    · obtain rfl := Except.error.inj hfault
      exact .inl hcalls
    cases course with
    | failed turns few last => exact .inr ⟨_, _, _, turns, few, last, hcalls⟩

/-! ## Two units, and room for two

A far end that answers from a list, whatever it is asked. -/

/-- the answers in their order, and none after that -/
def answeringInTurn : Carrier (List (Except RequestFault Bytes)) where
  ask answers _ := (answers.headD (.error .noReply), answers.tail)
  tell answers _ := (.ok (), answers)
  note answers _ := answers

/-- the answers of a unit that takes its address -/
def takes (a : Assignment) : List (Except RequestFault Bytes) :=
  [.ok (serialRequest ++ doubleWordBytes a.serial), .ok a.request]

/-- From 254 on there are two addresses, and both are taken. A unit that does not confirm its
address fails the enumeration, though one that does not report ends it well. -/
theorem two_units_take_the_last_addresses :
    (∃ turns, Turns 254 [⟨7, ⟨254⟩⟩, ⟨9, ⟨255⟩⟩] turns ∧
      (enumerate ⟨254⟩).calls answeringInTurn (takes ⟨7, ⟨254⟩⟩ ++ takes ⟨9, ⟨255⟩⟩)
        = .told resetRequest (.ok ()) :: turns) ∧
    ∃ units turns last, Turns 254 units turns ∧
      FailedTurn (254 + units.length) .noReply last ∧
      (enumerate ⟨254⟩).calls answeringInTurn ((takes ⟨7, ⟨254⟩⟩).take 1)
        = .told resetRequest (.ok ()) :: (turns ++ last) := by
  constructor
  · obtain ⟨turns, taken, few, -⟩ | ⟨turns, taken, -, hcalls⟩ := by
      simpa only [and_or_left, exists_or] using (enumerate_goes_by_turns answeringInTurn
        (takes ⟨7, ⟨254⟩⟩ ++ takes ⟨9, ⟨255⟩⟩) ⟨254⟩).1 [⟨7, ⟨254⟩⟩, ⟨9, ⟨255⟩⟩] rfl
    · exact absurd few (by decide)
    · exact ⟨turns, taken, hcalls⟩
  · obtain hcalls | ⟨units, turns, last, taken, -, failed, hcalls⟩ := (enumerate_goes_by_turns
      answeringInTurn ((takes ⟨7, ⟨254⟩⟩).take 1) ⟨254⟩).2 .noReply rfl
    · cases hcalls
    · exact ⟨units, turns, last, taken, failed, hcalls⟩

end Extended

end BusMaster
