import BusMaster.Proofs.Frame.Ascii
import BusMaster.Proofs.Frame.Rtu
import BusMaster.Proofs.Transceiver.Alignment

/-!
# Exceptions

A device that refuses a request answers with an exception: the function code with its highest bit
set, and a code. Each framing hands over responses that begin as the request does, the highest bit
aside (`headed_of_received`), and an exception is told from data by its three bytes. The binary and
the bridge framing delimit a response by its first bytes, so an exception has three bytes there. A
text line ends where it ends: two bytes that refuse the request and give no code are handed out as
if they were its data, and nothing else that refuses it is (`exception_handed_out_iff`).
-/

namespace BusMaster

/-- An exception is three bytes long. -/
theorem Response.length_of_exception {unit function received : UInt8} {adu : Bytes}
    (h : Response unit function adu) (hreceived : adu[1]? = some received)
    (exception : received &&& FunctionCode.exceptionBit ≠ 0) : adu.length = 3 := by
  have whole := h.whole
  rcases adu with _ | ⟨u, _ | ⟨g, rest⟩⟩
  · cases hreceived
  · cases hreceived
  obtain rfl := Option.some.inj hreceived
  rw [responseLength, if_pos exception] at whole
  exact (Length.exact.inj (Except.ok.inj whole)).symm

namespace Transceiver

variable {t : Transceiver} {unit function : UInt8} {request adu data : Bytes}

/-- what the framing hands over as the response to a request -/
def received (t : Transceiver) (request : Bytes) : Except RequestFault Bytes :=
  match t.begin request true with
  | (.finished result, _) => result
  | (.waiting p, t) =>
    t.line.elim (.error .notConnected) fun line => (t.listen p line.incoming).result

theorem transact_eq_received (t : Transceiver) (request : Bytes) :
    (t.transact request).1 = (t.received request).bind checkException := by
  rw [transact, received]
  rcases hbegin : t.begin request true with ⟨result | p, t'⟩
  · obtain ⟨fault, rfl⟩ := (begin_finished hbegin).2.2.2 rfl
    rfl
  · dsimp only
    rw [finish]
    rcases t'.line with _ | line <;> rfl

/-- No frame goes out and nothing comes in time, or what is handed over is listened for. -/
theorem received_cases (t : Transceiver) (request : Bytes) :
    (t.inTime request = [] ∧ ∃ fault, t.received request = .error fault ∧ t.Unsent request fault) ∨
      ∃ (t' : Transceiver) (p : Pending) (line : Line), t'.settings = t.settings ∧
        p.request = request ∧
        t.inTime request = Arrival.timely p.deadline line.incoming p.since ∧
        t.received request = (t'.listen p line.incoming).result := by
  rw [received, inTime]
  rcases hbegin : t.begin request true with ⟨result | p, t'⟩
  · obtain ⟨-, -, unsent, failed⟩ := begin_finished hbegin
    obtain ⟨fault, rfl⟩ := failed rfl
    exact .inl ⟨rfl, fault, rfl, unsent fault rfl⟩
  · obtain ⟨-, line, -, -, hline, hsettings, hrequest, -⟩ := begin_waiting hbegin
    dsimp only
    rw [hline]
    exact .inr ⟨t', p, line, hsettings, hrequest, rfl, rfl⟩

/-- What is handed over was listened for. -/
theorem listen_of_received (h : t.received request = .ok adu) :
    ∃ (t' : Transceiver) (p : Pending) (line : Line), t'.settings = t.settings ∧
      p.request = request ∧
      t.inTime request = Arrival.timely p.deadline line.incoming p.since ∧
      (t'.listen p line.incoming).result = .ok adu := by
  rcases t.received_cases request with ⟨-, fault, hfault, -⟩ |
    ⟨t', p, line, hsettings, hrequest, htimely, hlisten⟩
  · cases hfault.symm.trans h
  · exact ⟨t', p, line, hsettings, hrequest, htimely, hlisten.symm.trans h⟩

/-- What the binary or the bridge framing hands over is a response. -/
theorem response_of_received (h : t.received (unit :: function :: data) = .ok adu)
    (delimited : t.settings.framing ≠ .ascii) : Response unit function adu := by
  obtain ⟨t', p, line, hsettings, hrequest, -, hlisten⟩ := listen_of_received h
  rw [listen, hrequest, hsettings] at hlisten
  rcases hframing : t.settings.framing
  case rtu =>
    rw [hframing] at hlisten
    exact Rtu.response_of_receive hlisten
  case ascii => exact absurd hframing delimited
  case bridge =>
    rw [hframing] at hlisten
    exact Bridge.response_of_receive hlisten

/-- What the text framing hands over is in the first line that comes in time. -/
theorem line_of_received (h : t.received (unit :: function :: data) = .ok adu)
    (text : t.settings.framing = .ascii) :
    ∃ line rest, t.inTime (unit :: function :: data) = line ++ Ascii.lineFeed :: rest ∧
      Ascii.lineFeed ∉ line ∧ Ascii.parseLine unit function line = .ok adu := by
  obtain ⟨t', p, line, hsettings, hrequest, htimely, hlisten⟩ := listen_of_received h
  rw [listen, hrequest, hsettings, text] at hlisten
  rw [htimely]
  exact Ascii.line_of_receive hlisten

/-- What a framing hands over begins as the request does, the highest bit of the function code
aside. -/
theorem headed_of_received (h : t.received (unit :: function :: data) = .ok adu) :
    Headed unit function adu := by
  by_cases text : t.settings.framing = .ascii
  · obtain ⟨line, rest, -, -, hparse⟩ := line_of_received h text
    exact (Ascii.parseLine_eq_ok_iff.1 hparse).1
  · exact (response_of_received h text).toHeaded

/-! ## Exceptions and data -/

theorem or_exceptionBit_and (function : UInt8) :
    (function ||| FunctionCode.exceptionBit) &&& FunctionCode.exceptionBit
      = FunctionCode.exceptionBit := by
  refine UInt8.toBitVec_inj.1 (BitVec.eq_of_getLsbD_eq fun i _ => ?_)
  rw [UInt8.toBitVec_and, UInt8.toBitVec_or, BitVec.getLsbD_and, BitVec.getLsbD_or]
  cases function.toBitVec.getLsbD i <;> simp

/-- A response to a function is data. -/
theorem checkException_of_regular {received : UInt8} (hreceived : adu[1]? = some received)
    (regular : received &&& FunctionCode.exceptionBit = 0) : checkException adu = .ok adu := by
  rcases adu with _ | ⟨u, _ | ⟨g, _ | ⟨code, rest⟩⟩⟩
  · rfl
  · rfl
  · rfl
  · obtain rfl := Option.some.inj hreceived
    rw [checkException, if_neg (not_not_intro regular)]

/-- A refusal is a fault when it gives a code, and else it is data. -/
theorem checkException_of_refusal {received : UInt8} (headed : adu[0]? = some unit)
    (hreceived : adu[1]? = some received) (exception : received &&& FunctionCode.exceptionBit ≠ 0) :
    adu = [unit, received] ∧ checkException adu = .ok adu ∨
      ∃ code, adu[2]? = some code ∧
        checkException adu = .error (.exception (ExceptionCode.ofByte code)) := by
  rcases adu with _ | ⟨u, _ | ⟨g, _ | ⟨code, rest⟩⟩⟩
  · cases headed
  · cases hreceived
  · obtain rfl := Option.some.inj headed
    obtain rfl := Option.some.inj hreceived
    exact .inl ⟨rfl, rfl⟩
  · obtain rfl := Option.some.inj hreceived
    exact .inr ⟨code, rfl, by rw [checkException, if_pos exception]⟩

end Transceiver

open Transceiver

/-- **A refusal is never handed out as data if and only if the framing does not hand over one without
a code.** Only the text framing does, when a line says so. -/
theorem exception_handed_out_iff (t : Transceiver) (unit function : UInt8) (data : Bytes)
    (regular : function &&& FunctionCode.exceptionBit = 0) :
    ((∀ adu, (t.transact (unit :: function :: data)).1 = .ok adu →
        adu[0]? = some unit ∧ adu[1]? = some function) ↔
      t.received (unit :: function :: data)
        ≠ .ok [unit, function ||| FunctionCode.exceptionBit]) ∧
    (t.received (unit :: function :: data) = .ok [unit, function ||| FunctionCode.exceptionBit] →
      t.settings.framing = .ascii ∧ ∃ line rest,
        t.inTime (unit :: function :: data) = line ++ Ascii.lineFeed :: rest ∧
        Ascii.lineFeed ∉ line ∧ Ascii.parseLine unit function line
          = .ok [unit, function ||| FunctionCode.exceptionBit]) ∧
    ∀ adu, t.received (unit :: function :: data) = .ok adu →
      adu[1]? = some (function ||| FunctionCode.exceptionBit) →
      adu ≠ [unit, function ||| FunctionCode.exceptionBit] →
        ∃ code, adu[2]? = some code ∧ (t.transact (unit :: function :: data)).1
          = .error (.exception (ExceptionCode.ofByte code)) := by
  have exception : (function ||| FunctionCode.exceptionBit) &&& FunctionCode.exceptionBit ≠ 0 := by
    rw [or_exceptionBit_and]
    decide
  have other : function ||| FunctionCode.exceptionBit ≠ function := fun h => by
    rw [h] at exception
    exact exception regular
  refine ⟨⟨fun onlyData bare => ?_, fun noBare adu hadu => ?_⟩, fun bare => ?_,
    fun adu hreceived hfunction noBare => ?_⟩
  · have hadu : (t.transact (unit :: function :: data)).1
        = .ok [unit, function ||| FunctionCode.exceptionBit] := by
      rw [transact_eq_received, bare]
      rfl
    exact other (Option.some.inj (onlyData _ hadu).2)
  · rw [transact_eq_received] at hadu
    rcases hreceived : t.received (unit :: function :: data) with fault | adu'
    · rw [hreceived] at hadu
      cases hadu
    rw [hreceived] at hadu
    change checkException adu' = .ok adu at hadu
    have headed := headed_of_received hreceived
    rcases headed.function with hfunction | hfunction
    · rw [checkException_of_regular hfunction regular] at hadu
      obtain rfl := Except.ok.inj hadu
      exact ⟨headed.unit, hfunction⟩
    · rcases checkException_of_refusal headed.unit hfunction exception with ⟨rfl, -⟩
        | ⟨code, -, hfault⟩
      · exact absurd hreceived noBare
      · rw [hfault] at hadu
        cases hadu
  · have text : t.settings.framing = .ascii := by
      by_contra delimited
      -- a refusal says that it has three bytes, and this one has two
      have three := (response_of_received bare delimited).length_of_exception rfl exception
      cases three
    exact ⟨text, line_of_received bare text⟩
  · rcases checkException_of_refusal (headed_of_received hreceived).unit hfunction exception
      with ⟨hbare, -⟩ | ⟨code, hcode, hfault⟩
    · exact absurd hbare noBare
    · refine ⟨code, hcode, ?_⟩
      rw [transact_eq_received, hreceived]
      exact hfault

/-! ## A refusal without a code

A device on a text line answers a read with two bytes: its unit id, and the function code with the
highest bit set.
-/

namespace Bare

/-- read one register of unit 17 -/
def request : Bytes := [17, 3, 0, 0, 0, 1]

/-- the line of unit 17 and function 0x83, with its LRC -/
def line : Bytes := Ascii.encode [17, 0x83]

def transceiver : Transceiver where
  settings := { framing := .ascii, endpoint := .serial "/dev/bus" {} }
  line := some { writes := [.taken [.bytes line]] }
  state := .connected

/-- The exchange succeeds with the refusal for its data. -/
theorem refusal_is_handed_out :
    (3 : UInt8) &&& FunctionCode.exceptionBit = 0 ∧
      (transceiver.transact request).1 = .ok [17, 0x83] ∧
      ¬∀ adu, (transceiver.transact request).1 = .ok adu → adu[0]? = some 17 ∧ adu[1]? = some 3 := by
  refine ⟨by decide, by decide +kernel, fun onlyData => ?_⟩
  have bare : transceiver.received request ≠ .ok [17, 3 ||| FunctionCode.exceptionBit] :=
    (exception_handed_out_iff transceiver 17 3 [0, 0, 0, 1] (by decide)).1.1 onlyData
  exact bare (by decide +kernel)

end Bare

end BusMaster
