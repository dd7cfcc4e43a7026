import BusMaster.Journal
import BusMaster.Link.Settings

/-!
# Lines

A line is an open link, given by all that it will do: what becomes readable and when, and how it
takes each write. `Arrival.hear` is one read with a deadline. It is the only place where a reader
waits, so it is the only place where time passes while a response is awaited, and it never passes
the deadline. A read that brings bytes leaves fewer to come (`unread_hear_lt`), which is why every
receiver ends.
-/

namespace BusMaster

/-- what the next read meets -/
inductive Arrival where
  /-- bytes that can be read -/
  | bytes (data : Bytes)
  /-- the end of the stream, for this read and all later ones -/
  | finish
  /-- one read fails -/
  | fault (f : LinkFault)
  /-- what follows can be read so many nanoseconds after a read first met the pause -/
  | pause (length : Nat)
  /-- a pause that was met: what follows can be read from this moment on -/
  | readableFrom (moment : Moment)
  deriving DecidableEq, Repr

/-- what a read brought -/
inductive Heard where
  | data (bytes : Bytes)
  | failed (f : LinkFault)
  /-- nothing before the deadline -/
  | silence
  deriving DecidableEq, Repr

/-- the result of a read: what it brought, what is still to come, and when it was over -/
structure Hearing where
  heard : Heard
  rest : List Arrival
  moment : Moment
  deriving DecidableEq, Repr

namespace Arrival

/-- number of bytes still to come -/
def unread : List Arrival → Nat
  | [] => 0
  | .bytes data :: rest => data.length + unread rest
  | _ :: rest => unread rest

/-- what is left of a piece of which `n` bytes were read, in front of `rest` -/
def putBack (data : Bytes) (n : Nat) (rest : List Arrival) : List Arrival :=
  if data.length ≤ n then rest else .bytes (data.drop n) :: rest

/-- read `count` bytes or fewer, at least one, of the first piece; wait for it until `deadline` -/
def hear (count : Nat) (deadline : Moment) : List Arrival → Moment → Hearing
  | [], now => ⟨.silence, [], max now deadline⟩
  | .bytes data :: rest, now =>
    if data.isEmpty then hear count deadline rest now
    else ⟨.data (data.take (max count 1)), putBack data (max count 1) rest, now⟩
  | .finish :: rest, now => ⟨.failed .unexpectedEnd, .finish :: rest, now⟩
  | .fault f :: rest, now => ⟨.failed f, rest, now⟩
  | .pause length :: rest, now =>
    if now + length ≤ deadline then hear count deadline rest (now + length)
    else ⟨.silence, .readableFrom (now + length) :: rest, max now deadline⟩
  | .readableFrom moment :: rest, now =>
    if moment ≤ max now deadline then hear count deadline rest (max now moment)
    else ⟨.silence, .readableFrom moment :: rest, max now deadline⟩

theorem unread_putBack (data : Bytes) (n : Nat) (rest : List Arrival) :
    unread (putBack data n rest) = (data.length - n) + unread rest := by
  unfold putBack
  split <;> simp [unread, List.length_drop]
  omega

/-- a read that brings bytes brings at least one of those still to come -/
theorem unread_hear_lt {count : Nat} {deadline : Moment} {queue : List Arrival} {now : Moment}
    {data : Bytes} (h : (hear count deadline queue now).heard = .data data) :
    unread (hear count deadline queue now).rest < unread queue := by
  fun_induction hear count deadline queue now with
  | case2 piece rest now hempty ih =>
    have : piece = [] := List.isEmpty_iff.1 hempty
    simpa [unread, this] using ih h
  | case3 piece rest now hempty =>
    have : piece.length ≠ 0 := fun hzero =>
      hempty (List.isEmpty_iff.2 (List.length_eq_zero_iff.1 hzero))
    simp only [unread_putBack, unread]
    omega
  | _ => simp_all [unread]

end Arrival

/-- how a line takes a write -/
inductive WriteOutcome where
  /-- the write fails and nothing is sent -/
  | refused (f : LinkFault)
  /-- the write succeeds, and so much becomes readable in answer -/
  | taken (arrivals : List Arrival)
  deriving DecidableEq, Repr

/-- an open link -/
structure Line where
  /-- what the next reads meet -/
  incoming : List Arrival := []
  /-- how the next writes are taken; later ones succeed without an answer, or fail -/
  writes : List WriteOutcome := []
  /-- writes fail once `writes` is used up -/
  breaks : Bool := false
  deriving DecidableEq, Repr

/-- take a write -/
def Line.write (line : Line) : Except LinkFault Line :=
  match line.writes with
  | [] => if line.breaks then .error .brokenPipe else .ok line
  | .refused f :: _ => .error f
  | .taken arrivals :: rest =>
    .ok { line with incoming := line.incoming ++ arrivals, writes := rest }

/-- number of bytes in the answers to all later writes -/
def Line.unsent (line : Line) : Nat :=
  line.writes.foldl (fun
    | n, .taken arrivals => n + Arrival.unread arrivals
    | n, .refused _ => n) 0

/-- why a link could not be opened -/
inductive OpenFault where
  | link (f : LinkFault)
  /-- there is no such device -/
  | noDevice
  /-- the device does not take the settings -/
  | badSettings
  /-- none of these -/
  | unknown
  deriving DecidableEq, Repr

/-- the fault of a request that could not open its link -/
def OpenFault.toRequest : Endpoint → OpenFault → RequestFault
  | .tcp .., .link f => .link f
  | .tcp .., _ => .link .other
  | .serial .., .noDevice => .portUnavailable
  | .serial .., .badSettings => .portSettings
  | .serial .., .link .notFound => .portUnavailable
  | .serial .., .link .permissionDenied => .portInUse
  | .serial .., .link .addressInUse => .portInUse
  | .serial .., .link .invalidInput => .portSettings
  | .serial .., .link f => .link f
  | .serial .., .unknown => .link .other

/-- how one attempt to open a link goes: it fails, or gives a line -/
abbrev Attempt := Except OpenFault Line

/-- an attempt for which nothing is there -/
def OpenFault.nothingThere : Endpoint → OpenFault
  | .tcp .. => .link .connectionRefused
  | .serial .. => .noDevice

end BusMaster
