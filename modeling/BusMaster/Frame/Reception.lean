import BusMaster.Link.Line
import BusMaster.Query.Function

/-!
# Receiving

A receiver for a framing is a state that says what it wants next, `Progress`, and takes in bytes.
It never reads by itself: `receive` reads for it, as many bytes as it asks for at most, until it
has a result, the link fails or the deadline passes. So a receiver can be followed byte by byte
without a link, and how the bytes of a response were cut shows only in what it was fed.
-/

namespace BusMaster

/-- what a receiver wants next -/
inductive Progress (σ : Type) where
  /-- at most so many more bytes -/
  | ask (count : Nat) (state : σ)
  /-- nothing: this is the result -/
  | done (result : Except FrameFault Bytes)

/-- a receiver over states of type `σ`: what it wants next with the lines it logs on the way, and
how it takes in bytes -/
structure Receiver (σ : Type) where
  poll : σ → Progress σ × List LogLine
  push : σ → Bytes → σ

/-- what is left when a receiver is through -/
structure Reception where
  result : Except RequestFault Bytes
  rest : List Arrival
  moment : Moment
  lines : List LogLine

/-- the log line of raw bytes -/
def rawLine (detail : RawDetail) (direction : String) (bytes : Bytes) : List LogLine :=
  match detail with
  | .nothing => []
  | .length => [⟨.info, .link, s!"PHYS {direction} - {bytes.length} bytes"⟩]
  | .data => [⟨.info, .link, s!"PHYS {direction} - {bytes.length} bytes" ++ dump bytes⟩]

/-- read for a receiver until it is through -/
def receive {σ : Type} (receiver : Receiver σ) (detail : RawDetail) (deadline : Moment)
    (state : σ) (incoming : List Arrival) (now : Moment) (lines : List LogLine) : Reception :=
  match receiver.poll state with
  | (.done (.ok adu), said) => ⟨.ok adu, incoming, now, lines ++ said⟩
  | (.done (.error fault), said) => ⟨.error (.frame fault), incoming, now, lines ++ said⟩
  | (.ask count state, said) =>
    match _h : Arrival.hear count deadline incoming now with
    | ⟨.failed f, rest, moment⟩ => ⟨.error (.link f), rest, moment, lines ++ said⟩
    | ⟨.silence, rest, moment⟩ => ⟨.error .noReply, rest, moment, lines ++ said⟩
    | ⟨.data data, rest, moment⟩ =>
      receive receiver detail deadline (receiver.push state data) rest moment
        (lines ++ said ++ rawLine detail "RX" data)
termination_by Arrival.unread incoming
decreasing_by
  have brought : (Arrival.hear count deadline incoming now).heard = .data data := by rw [_h]
  have fewer := Arrival.unread_hear_lt brought
  rwa [_h] at fewer

/-- the first two bytes of a response must be those of the request, the exception bit aside -/
def checkHeader (unit function : UInt8) (adu : Bytes) : Except FrameFault Unit := do
  match adu[0]? with
  | some received => if received ≠ unit then throw (.unitMismatch unit received)
  | none => pure ()
  match adu[1]? with
  | some received =>
    if received ≠ function ∧ received ≠ function ||| FunctionCode.exceptionBit then
      throw (.functionMismatch function received)
  | none => pure ()

/-- what a framing logs of a frame: its first two bytes, and `rest` with the data or without -/
def frameText (detail : FrameDetail) (adu : Bytes) (rest : Bytes → String) : String :=
  match adu with
  | unit :: function :: data =>
    s!"unit: {markedByte unit} fc: {markedByte function}" ++ rest data
      ++ (if detail = .payload then dump data else "")
  | _ => ""

end BusMaster
