import BusMaster.Range
import BusMaster.Transceiver

/-!
# Queries and sessions

A query is one request together with the reading of its response. Queries are values: what a
function sends, and what it makes of an answer, can be looked at without sending anything.

A session is a program over the two things a transceiver offers, `ask` for a response and `tell`
for none, and the log. It does not say who carries its requests. `Session.run` leaves that to a
`Carrier`, so the same session runs on a transceiver, on a device given as a function, or on any
list of answers.
-/

namespace BusMaster

/-- one request and the reading of its response -/
structure Query (α : Type) where
  request : Bytes
  accept : Bytes → Except RequestFault α

namespace Query

/-- the query of a function with the given data, if it fits a frame -/
def make {α : Type} (unit : UnitId) (f : FunctionCode) (data : Bytes)
    (accept : Bytes → Bytes → Except RequestFault α) : Except RequestFault (Query α) :=
  let request := unit.value :: f.wire :: data
  if request.length ≤ maxAdu then .ok ⟨request, accept request⟩
  else .error (.configuration .frameTooLarge)

/-- the query with its result changed -/
def map {α β : Type} (g : α → β) (q : Query α) : Query β :=
  { request := q.request, accept := fun response => (q.accept response).map g }

/-- the response must repeat the first `n` bytes of the request -/
def checkEcho (n : Nat) (request response : Bytes) : Except RequestFault Unit :=
  let expected := request.take n
  if response.length ≠ expected.length then .error (.length expected.length response.length)
  else if response ≠ expected then .error .echo
  else .ok ()

/-- the data of a response that gives its byte count first, which must be `expected` -/
def countedData (expected : Nat) (response : Bytes) : Except RequestFault Bytes :=
  match response.drop 2 with
  | [] => .error (.body .tooShort)
  | count :: data =>
    if count.toNat ≠ expected then .error (.length expected count.toNat)
    else if data.length < expected then .error (.body .tooShort)
    else if expected < data.length then .error (.body .trailingBytes)
    else .ok data

end Query

/-- a program over requests -/
inductive Session (α : Type) where
  /-- the end -/
  | done (result : Except RequestFault α)
  /-- send a request and go on with the response -/
  | ask (request : Bytes) (next : Except RequestFault Bytes → Session α)
  /-- send a request that nobody answers -/
  | tell (request : Bytes) (next : Except RequestFault Unit → Session α)
  /-- log a line -/
  | note (line : LogLine) (next : Session α)

/-- who carries the requests of a session -/
structure Carrier (σ : Type) where
  ask : σ → Bytes → Except RequestFault Bytes × σ
  tell : σ → Bytes → Except RequestFault Unit × σ
  note : σ → LogLine → σ

namespace Session

variable {α β σ : Type}

/-- go on with the result, unless it is a fault -/
def bind : Session α → (α → Session β) → Session β
  | .done (.ok a), f => f a
  | .done (.error fault), _ => .done (.error fault)
  | .ask request next, f => .ask request fun r => (next r).bind f
  | .tell request next, f => .tell request fun r => (next r).bind f
  | .note line next, f => .note line (next.bind f)

/-- the session with its result changed -/
def map (g : α → β) (s : Session α) : Session β := s.bind fun a => .done (.ok (g a))

/-- run a session -/
def run (c : Carrier σ) : Session α → σ → Except RequestFault α × σ
  | .done result, s => (result, s)
  | .ask request next, s =>
    let (result, s) := c.ask s request
    (next result).run c s
  | .tell request next, s =>
    let (result, s) := c.tell s request
    (next result).run c s
  | .note line next, s => next.run c (c.note s line)

/-- the complaint about an answer that does not repeat its request -/
def echoLine (request response : Bytes) : LogLine :=
  ⟨.warn, .query, "echo mismatch, request: " ++ bracketed (request.take response.length)
    ++ " response: " ++ bracketed response⟩

/-- the end of a query whose response has come in -/
def settle (q : Query α) (response : Bytes) : Session α :=
  match q.accept response with
  | .error .echo => .note (echoLine q.request response) (.done (.error .echo))
  | result => .done result

/-- the session of a single query -/
def ofQuery : Except RequestFault (Query α) → Session α
  | .error fault => .done (.error fault)
  | .ok q => .ask q.request fun
    | .error fault => .done (.error fault)
    | .ok response => settle q response

end Session

/-- a transceiver carries requests -/
def Transceiver.carrier : Carrier Transceiver where
  ask := Transceiver.transact
  tell := Transceiver.send
  note t l := t.record (.line l)

end BusMaster
