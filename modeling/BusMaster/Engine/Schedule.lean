import BusMaster.Engine.Step

/-!
# Schedules

A schedule decides in which order the consumers step. The one given here lets each consumer work
until it has to wait, then the next, and lets the clock go on only when all of them wait, to the
end of the wait of the execution (`Engine.workUntil`). The host takes its reports whenever the
consumers wait. Any other order is a run too; this one is fixed, so that a run can be repeated.
-/

namespace BusMaster

namespace Engine

/-- the time on the engine's clock -/
def now (e : Engine) : Moment := e.transceiver.now

/-- one step of a consumer that takes no time -/
def advanceNow? (e : Engine) : Consumer → Option Engine
  | .execution => if e.executionDue ≤ e.now then e.execute? else none
  | consumer => e.advance? consumer

/-- let a consumer work until it has to wait, or has made so many steps -/
def exhaust (consumer : Consumer) : Nat → Engine → Engine
  | 0, e => e
  | steps + 1, e =>
    match e.advanceNow? consumer with
    | some e => exhaust consumer steps e
    | none => e

/-- more steps than the consumers can take: what comes in over the open link bounds the messages,
a message asks for no more reads than there are pairs of a channel and a dataset, and an action is
tried 256 times -/
def effort (e : Engine) : Nat :=
  let incoming :=
    match e.transceiver.line with
    | some line => Arrival.unread line.incoming + line.unsent
    | none => 0
  let waiting := e.actions.items.length + e.states.items.length + e.messages.items.length
  let pairs := (e.catalog.channels.size + 1) * (e.catalog.datasets.size + 1)
  10000 * (waiting + incoming + 1) * pairs

/-- let the consumers work, one after another, until all of them have to wait -/
def workNow : Nat → Engine → Engine
  | 0, e => e
  | rounds + 1, e =>
    if Consumer.all.any fun consumer => (e.advanceNow? consumer).isSome then
      workNow rounds (Consumer.all.foldl (fun e consumer => e.exhaust consumer e.effort) e)
    else e

/-- take all reports -/
def takeReports (e : Engine) : List Report × Engine :=
  (e.reports.items, { e with reports := e.reports.clear })

/-- work and take reports with their moments, until nothing is left to do before `limit`; what is
due at `limit` itself is left to what comes after -/
def workUntil (limit : Option Moment) : Nat → Engine → List (Moment × Report) →
    List (Moment × Report) × Engine
  | 0, e, told => (told, e)
  | rounds + 1, e, told =>
    let worked := e.workNow e.effort
    let (reports, listened) := worked.takeReports
    let told := told ++ reports.map fun r => (listened.now, r)
    if reports.isEmpty then
      if limit.all fun limit => decide (listened.executionDue < limit) then
        match listened.execute? with
        | some e => workUntil limit rounds e told
        | none => (told, listened)
      else (told, listened)
    else workUntil limit rounds listened told

/-- work until nothing is left to do -/
def settle (e : Engine) : List (Moment × Report) × Engine := e.workUntil none e.effort []

/-- work until a moment -/
def proceed (e : Engine) (moment : Moment) : List (Moment × Report) × Engine :=
  let (told, worked) := e.workUntil (some moment) e.effort []
  (told, { worked with transceiver := worked.transceiver.advanceTo moment })

/-- write a state; if its flow is full, the consumers work until there is room -/
def write (e : Engine) (s : State) : Except RequestFault Unit × Engine :=
  if e.isRunning then
    match e.write? s with
    | some written => (.ok (), written)
    | none =>
      let worked := e.workNow e.effort
      (.ok (), (worked.write? s).getD worked)
  else (.error .stopped, e)

end Engine

end BusMaster
