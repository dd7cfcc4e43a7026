import BusMaster.Proofs.Frame.Length
import BusMaster.Proofs.Link.Line
import BusMaster.Frame.Reception

/-!
# Bytes as a receiver takes them in

A receiver takes in the bytes of a line in reads, each as long as the line has it, but never longer
than was asked for (`Fed`). What it makes of them is settled when it is through, or when all bytes
are taken and it asks for more (`Delivered`). Reading from a line is one such delivery of the bytes
that come in time (`receive_delivered`), so what holds of all deliveries holds of what is received;
and every delivery that settles a result is one that a line can make (`receive_of_fed`).

The first two bytes of what a framing hands over are those of the request (`Headed`). Where the
framing works out the length, it is the length of a response as well (`Response`).
-/

namespace BusMaster

variable {σ : Type}

/-- the result of a receiver that is through -/
def Progress.result? : Progress σ → Option (Except FrameFault Bytes)
  | .ask .. => none
  | .done result => some result

/-- a receiver takes in reads, of a byte or more and of no more than it asks for, and `progress` is
what it wants after the last of them -/
inductive Fed (receiver : Receiver σ) : σ → List Bytes → Progress σ → Prop where
  | settled {state : σ} : Fed receiver state [] (receiver.poll state).1
  | read {state asking : σ} {count : Nat} {data : Bytes} {reads : List Bytes}
    {progress : Progress σ} :
    (receiver.poll state).1 = .ask count asking → data ≠ [] → data.length ≤ max count 1 →
    Fed receiver (receiver.push asking data) reads progress →
    Fed receiver state (data :: reads) progress

/-- the reads bring `stream` in its order, until the receiver is through or has taken all of it -/
structure Delivered (receiver : Receiver σ) (state : σ) (stream : Bytes) (reads : List Bytes)
    (progress : Progress σ) : Prop where
  fed : Fed receiver state reads progress
  inOrder : reads.flatten <+: stream
  all : progress.result? = none → reads.flatten = stream

/-- how listening ends: with the result of the receiver, or with none because the deadline passed or
the link failed -/
inductive Progress.Ends : Progress σ → Except RequestFault Bytes → Prop where
  | through {result : Except FrameFault Bytes} : Ends (.done result) (result.mapError .frame)
  | silence {count : Nat} {asking : σ} : Ends (.ask count asking) (.error .noReply)
  | failure {count : Nat} {asking : σ} {f : LinkFault} : Ends (.ask count asking) (.error (.link f))

theorem Progress.result?_eq_some_iff {progress : Progress σ} {result : Except FrameFault Bytes} :
    progress.result? = some result ↔ progress = .done result := by
  cases progress <;> simp [Progress.result?]

/-- Listening brings what the receiver is through with, and nothing else. -/
theorem Progress.Ends.eq_ok_iff {progress : Progress σ} {result : Except RequestFault Bytes}
    (h : progress.Ends result) {adu : Bytes} :
    result = .ok adu ↔ progress.result? = some (.ok adu) := by
  cases h with
  | @through result => cases result <;> simp [Progress.result?, Except.mapError]
  | silence => simp [Progress.result?]
  | failure => simp [Progress.result?]

theorem Delivered.settled {receiver : Receiver σ} {state : σ} {stream : Bytes}
    (h : (receiver.poll state).1.result? = none → stream = []) :
    Delivered receiver state stream [] (receiver.poll state).1 where
  fed := .settled
  inOrder := List.nil_prefix
  all hnone := (h hnone).symm

/-- What holds of the bytes taken and the receiver, before the first read and after each one, holds
of them when it is settled what the receiver wants. -/
theorem Fed.invariant {receiver : Receiver σ} {I : Bytes → σ → Prop}
    (keeps : ∀ {taken state count asking data}, I taken state →
      (receiver.poll state).1 = .ask count asking → data.length ≤ max count 1 →
      I (taken ++ data) (receiver.push asking data))
    {state : σ} {reads : List Bytes} {progress : Progress σ} (fed : Fed receiver state reads progress)
    {taken : Bytes} (start : I taken state) :
    ∃ last, I (taken ++ reads.flatten) last ∧ (receiver.poll last).1 = progress := by
  induction fed generalizing taken with
  | @settled state =>
    rw [List.flatten_nil, List.append_nil]
    exact ⟨state, start, rfl⟩
  | read hask _ hlength _ ih =>
    rw [List.flatten_cons, ← List.append_assoc]
    exact ih (keeps start hask hlength)

/-- **Reading from a line delivers the bytes that come in time.** -/
theorem receive_delivered (receiver : Receiver σ) (raw : RawDetail) (deadline : Moment) (state : σ)
    (queue : List Arrival) (now : Moment) (lines : List LogLine) :
    ∃ reads progress,
      Delivered receiver state (Arrival.timely deadline queue now) reads progress ∧
      progress.Ends (receive receiver raw deadline state queue now lines).result ∧
      Arrival.content queue = reads.flatten ++
        Arrival.content (receive receiver raw deadline state queue now lines).rest := by
  -- a receiver that hears nothing more has been told all that came in time
  fun_induction receive receiver raw deadline state queue now lines with
  | case1 state queue now lines adu said hpoll =>
    have hdone : (receiver.poll state).1 = .done (.ok adu) := by rw [hpoll]
    refine ⟨[], _, .settled fun h => ?_, hdone ▸ .through, rfl⟩
    rw [hdone] at h
    cases h
  | case2 state queue now lines fault said hpoll =>
    have hdone : (receiver.poll state).1 = .done (.error fault) := by rw [hpoll]
    refine ⟨[], _, .settled fun h => ?_, hdone ▸ .through, rfl⟩
    rw [hdone] at h
    cases h
  | case3 state queue now lines count asking said hpoll f rest moment hhear =>
    have hask : (receiver.poll state).1 = .ask count asking := by rw [hpoll]
    exact ⟨[], _, .settled fun _ => Arrival.hear_failed hhear, hask ▸ .failure,
      (Arrival.content_of_hear_failed hhear).symm⟩
  | case4 state queue now lines count asking said hpoll rest moment hhear =>
    have hask : (receiver.poll state).1 = .ask count asking := by rw [hpoll]
    obtain ⟨htimely, hcontent⟩ := Arrival.hear_silence hhear
    exact ⟨[], _, .settled fun _ => htimely, hask ▸ .silence, hcontent.symm⟩
  | case5 state queue now lines count asking said hpoll data rest moment hhear ih =>
    have hask : (receiver.poll state).1 = .ask count asking := by rw [hpoll]
    obtain ⟨hdata, hlength, hcontent, htimely⟩ := Arrival.hear_data hhear
    obtain ⟨reads, progress, ⟨hfed, hprefix, hall⟩, hends, hrest⟩ := ih
    refine ⟨data :: reads, progress, ⟨.read hask hdata hlength hfed, ?_, fun hnone => ?_⟩, hends, ?_⟩
    · rw [List.flatten_cons, htimely]
      exact (List.prefix_append_right_inj _).2 hprefix
    · rw [List.flatten_cons, htimely, hall hnone]
    · rw [List.flatten_cons, hcontent, hrest]
      exact (List.append_assoc ..).symm

/-- **Every delivery that settles a result is a way to read from a line:** one that brings the reads
as its pieces, whatever it brings later. -/
theorem receive_of_fed {receiver : Receiver σ} {state : σ} {reads : List Bytes}
    {progress : Progress σ} {settled : Except FrameFault Bytes}
    (fed : Fed receiver state reads progress) (through : progress = .done settled)
    (raw : RawDetail) (deadline : Moment) (later : List Arrival) (now : Moment)
    (lines : List LogLine) :
    (receive receiver raw deadline state (reads.map .bytes ++ later) now lines).result
      = settled.mapError .frame := by
  induction fed generalizing lines with
  | @settled state =>
    rw [receive]
    rcases hpoll : receiver.poll state with ⟨progress, said⟩
    rw [hpoll] at through
    subst through
    rcases settled with fault | adu <;> rfl
  | @read state asking count data reads progress hask some short _ ih =>
    have heard : Arrival.hear count deadline ((data :: reads).map .bytes ++ later) now
        = ⟨.data data, reads.map .bytes ++ later, now⟩ := by
      rw [List.map_cons, List.cons_append, Arrival.hear,
        if_neg fun empty => some (List.isEmpty_iff.1 empty), Arrival.putBack, if_pos short,
        List.take_of_length_le short]
    rw [receive]
    rcases hpoll : receiver.poll state with ⟨progress, said⟩
    rw [hpoll] at hask
    obtain rfl := hask
    dsimp only
    split
    · rename_i hhear
      cases heard.symm.trans hhear
    · rename_i hhear
      cases heard.symm.trans hhear
    · rename_i hhear
      obtain ⟨hdata, rfl, rfl⟩ := Hearing.mk.inj (heard.symm.trans hhear)
      obtain rfl := Heard.data.inj hdata
      exact ih through _

/-- What is received is what the receiver is through with, and what holds of the bytes taken and the
receiver from the first read on holds then. The bytes behind those taken are still to come. -/
theorem done_of_receive {receiver : Receiver σ} {I : Bytes → σ → Prop}
    (keeps : ∀ {taken state count asking data}, I taken state →
      (receiver.poll state).1 = .ask count asking → data.length ≤ max count 1 →
      I (taken ++ data) (receiver.push asking data))
    {raw : RawDetail} {deadline : Moment} {state : σ} {queue : List Arrival} {now : Moment}
    {lines : List LogLine} {adu : Bytes} (start : I [] state)
    (h : (receive receiver raw deadline state queue now lines).result = .ok adu) :
    ∃ taken last, taken <+: Arrival.timely deadline queue now ∧ I taken last ∧
      (receiver.poll last).1 = .done (.ok adu) ∧ Arrival.content queue = taken ++
        Arrival.content (receive receiver raw deadline state queue now lines).rest := by
  obtain ⟨reads, progress, ⟨fed, inOrder, -⟩, ends, hcontent⟩ :=
    receive_delivered receiver raw deadline state queue now lines
  obtain ⟨last, hlast, rfl⟩ := fed.invariant keeps start
  exact ⟨reads.flatten, last, inOrder, hlast, Progress.result?_eq_some_iff.1 (ends.eq_ok_iff.1 h),
    hcontent⟩

/-! ## The first two bytes -/

/-- unit id and function code are those of a request, or of its refusal -/
structure Headed (unit function : UInt8) (adu : Bytes) : Prop where
  unit : adu[0]? = some unit
  function : adu[1]? = some function ∨ adu[1]? = some (function ||| FunctionCode.exceptionBit)

instance (unit function : UInt8) (adu : Bytes) : Decidable (Headed unit function adu) :=
  decidable_of_iff (adu[0]? = some unit ∧
    (adu[1]? = some function ∨ adu[1]? = some (function ||| FunctionCode.exceptionBit)))
    ⟨fun ⟨hunit, hfunction⟩ => ⟨hunit, hfunction⟩, fun h => ⟨h.unit, h.function⟩⟩

/-- a response that is as long as it says -/
structure Response (unit function : UInt8) (adu : Bytes) : Prop extends Headed unit function adu where
  whole : responseLength adu = .ok (.exact adu.length)

variable {unit function : UInt8} {p adu : Bytes}

theorem Headed.two_le (h : Headed unit function adu) : 2 ≤ adu.length := by
  have hlt : 1 < adu.length := by
    rcases h.function with h | h <;> exact (List.getElem?_eq_some_iff.1 h).1
  exact hlt

/-- Two bytes of a header are all that is looked at. -/
theorem Headed.of_isPrefix (h : Headed unit function p) (hp : p <+: adu) :
    Headed unit function adu := by
  have two := h.two_le
  refine ⟨?_, ?_⟩
  · rw [← Length.get_of_isPrefix hp (by omega)]
    exact h.unit
  · rw [← Length.get_of_isPrefix hp (by omega)]
    exact h.function

theorem checkHeader_eq_ok_iff : checkHeader unit function adu = .ok () ↔
    (∀ received, adu[0]? = some received → received = unit) ∧
      ∀ received, adu[1]? = some received →
        received = function ∨ received = function ||| FunctionCode.exceptionBit := by
  have failed : ∀ {fault : FrameFault} {next : Unit → Except FrameFault Unit},
      (throw fault >>= next) ≠ .ok () := by
    intro fault next h
    cases h
  rcases adu with _ | ⟨b, _ | ⟨g, rest⟩⟩
  · simp [checkHeader]
    rfl
  · by_cases hb : b = unit
    · simp [checkHeader, hb]
      rfl
    · simp [checkHeader, hb]
  · by_cases hb : b = unit
    · by_cases hg : g = function ∨ g = function ||| FunctionCode.exceptionBit
      · simp [checkHeader, hb, hg, ← not_or]
        rfl
      · simp [checkHeader, hb, hg, ← not_or]
    · simpa [checkHeader, hb] using failed

/-- A check that fails has seen a byte that is not the request's. -/
theorem checkHeader_eq_error {fault : FrameFault}
    (h : checkHeader unit function adu = .error fault) :
    ∃ received, fault = .unitMismatch unit received ∨
      fault = .functionMismatch function received := by
  rcases adu with _ | ⟨b, adu⟩
  · cases h
  · rw [checkHeader] at h
    dsimp only [List.getElem?_cons_zero, List.getElem?_cons_succ] at h
    split at h
    · cases h
      exact ⟨b, .inl rfl⟩
    split at h
    · rename_i received _
      split at h
      · cases h
        exact ⟨received, .inr rfl⟩
      · cases h
    · cases h

/-- Two bytes that pass the check are those of the request or of its refusal. -/
theorem headed_of_checkHeader (h : checkHeader unit function adu = .ok ()) (two : 2 ≤ adu.length) :
    Headed unit function adu := by
  obtain ⟨hunit, hfunction⟩ := checkHeader_eq_ok_iff.1 h
  have first : adu[0]? = some adu[0] := List.getElem?_eq_getElem (by omega)
  have second : adu[1]? = some adu[1] := List.getElem?_eq_getElem (by omega)
  refine ⟨hunit _ first ▸ first, ?_⟩
  rcases hfunction _ second with h | h
  · exact .inl (h ▸ second)
  · exact .inr (h ▸ second)

theorem Headed.check (h : Headed unit function adu) :
    checkHeader unit function adu = .ok () := by
  refine checkHeader_eq_ok_iff.2 ⟨fun received hreceived => ?_, fun received hreceived => ?_⟩
  · exact Option.some.inj (hreceived.symm.trans h.unit)
  · rcases h.function with h | h
    · exact .inl (Option.some.inj (hreceived.symm.trans h))
    · exact .inr (Option.some.inj (hreceived.symm.trans h))

/-- Bytes that pass the check have passed it from the first one on. -/
theorem checkHeader_of_isPrefix (hp : p <+: adu) (h : checkHeader unit function adu = .ok ()) :
    checkHeader unit function p = .ok () := by
  have kept : ∀ {i : Nat} {received : UInt8}, p[i]? = some received → adu[i]? = some received := by
    intro i received hreceived
    rw [← Length.get_of_isPrefix hp (List.getElem?_eq_some_iff.1 hreceived).1]
    exact hreceived
  obtain ⟨hunit, hfunction⟩ := checkHeader_eq_ok_iff.1 h
  exact checkHeader_eq_ok_iff.2 ⟨fun received hreceived => hunit received (kept hreceived),
    fun received hreceived => hfunction received (kept hreceived)⟩

end BusMaster
