import BusMaster.Frame.Length
import BusMaster.Frame.Reception

/-!
# Bridge frames

Behind a TCP connection a frame has a header of six bytes in place of a checksum: the id of the
transaction, a protocol id of zero, and the length of what follows. The receiver delimits the body
as it would a binary frame, never asks for a byte past it, and holds the header's length against
it. Responses to other transactions are passed over.
-/

namespace BusMaster.Bridge

/-- bytes of the header -/
def headerLength : Nat := 6

/-- the frame of a request -/
def encode (id : UInt16) (adu : Bytes) : Bytes :=
  wordBytes id ++ wordBytes 0 ++ wordBytes (UInt16.ofNat adu.length) ++ adu

/-- id and length of a header -/
def parseHeader : Bytes → Except FrameFault (UInt16 × Nat)
  | [i, j, p, q, m, n] =>
    if wordOf p q ≠ 0 then .error (.unknownProtocol (wordOf p q))
    else .ok (wordOf i j, (wordOf m n).toNat)
  | header => .error (.tooShort header.length)

/-- a receiver at work -/
structure Waiting where
  id : UInt16
  unit : UInt8
  function : UInt8
  rx : Bytes := []
  deriving DecidableEq, Repr

/-- the log line of a frame -/
def frameLine (detail : FrameDetail) (direction : String) (id : UInt16) (adu : Bytes) :
    List LogLine :=
  if detail = .nothing then []
  else
    let text := frameText detail adu fun _ => ""
    [⟨.info, .bridge,
      s!"BRIDGE {direction} - tx_id: {markedWord id} len: {adu.length}" ++
        (if text.isEmpty then "" else " " ++ text)⟩]

/-- the warning about a response to another transaction -/
def staleLine (received expected : UInt16) : LogLine :=
  ⟨.warn, .bridge, s!"bridge skipping stale response, tx id: {markedWord received} expected: "
    ++ markedWord expected⟩

/-- a body whose header has come in with it -/
def accept (detail : FrameDetail) (w : Waiting) (header body : Bytes) :
    Progress Waiting × List LogLine :=
  match parseHeader header with
  | .error fault => (.done (.error fault), [])
  | .ok (id, length) =>
    if length ≠ body.length then (.done (.error (.lengthMismatch length body.length)), [])
    else if id ≠ w.id then (.ask (headerLength + 2) { w with rx := [] }, [staleLine id w.id])
    else
      match checkHeader w.unit w.function body with
      | .ok () => (.done (.ok body), frameLine detail "RX" id body)
      | .error fault => (.done (.error fault), frameLine detail "RX" id body)

/-- read the header with the first two bytes of the body, and then what the body's length asks
for -/
def await (detail : FrameDetail) (w : Waiting) : Progress Waiting × List LogLine :=
  let missing (target : Nat) : Nat := max (target - w.rx.length) 1
  if w.rx.length < headerLength then (.ask (missing (headerLength + 2)) w, [])
  else
    match responseLength (w.rx.drop headerLength) with
    | .error fault => (.done (.error fault), [])
    | .ok (.atLeast n) => (.ask (missing (headerLength + n)) w, [])
    | .ok (.exact n) =>
      if w.rx.length < headerLength + n then (.ask (missing (headerLength + n)) w, [])
      else accept detail w (w.rx.take headerLength) ((w.rx.drop headerLength).take n)

/-- the receiver of bridge frames -/
def receiver (detail : FrameDetail) : Receiver Waiting where
  poll := await detail
  push w data := { w with rx := w.rx ++ data }

end BusMaster.Bridge
