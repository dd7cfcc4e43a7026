import BusMaster.Engine.Step

/-!
# Runs of the engine

Between two calls of the host any consumer may make any number of steps. A run is therefore a list
of moves, each a call of the host, a step of a consumer or the passing of time, and what holds after
all lists of moves holds under every schedule. A move that has to wait changes nothing: a consumer
without an item or without room, a host whose write finds no room, and a host that opens or closes
the link while an exchange is under way.
-/

namespace BusMaster

/-- what can happen next -/
inductive Move where
  | connect
  | disconnect
  | addNode (id : NodeId) (node : Node)
  | removeNode (id : NodeId)
  | addDataset (key : String) (d : Dataset)
  | addChannel (ch : Channel)
  | submit (a : Action)
  | pollDataset (id : DatasetId)
  | pollNode (id : NodeId)
  | tickSlow
  | tickFast
  | write (s : State)
  | takeReport
  | stop
  /-- so many nanoseconds pass -/
  | pass (length : Nat)
  /-- a consumer makes a step -/
  | advance (consumer : Consumer)
  deriving Repr

namespace Engine

/-- an exchange is under way -/
def isAwaiting (e : Engine) : Bool :=
  match e.execution with
  | .awaiting .. => true
  | _ => false

/-- the engine after a move -/
def step (e : Engine) : Move → Engine
  | .connect => if e.isAwaiting then e else e.connect.2
  | .disconnect => if e.isAwaiting then e else e.disconnect
  | .addNode id node => e.addNode id node
  | .removeNode id => e.removeNode id
  | .addDataset key d => (e.addDataset key d).2
  | .addChannel ch => (e.addChannel ch).2
  | .submit a => e.submit a
  | .pollDataset id => (e.pollDataset id).2
  | .pollNode id => (e.pollNode id).2
  | .tickSlow => e.tickSlow.2
  | .tickFast => e.tickFast.2
  | .write s => (e.write? s).getD e
  | .takeReport => e.takeReport.2
  | .stop => e.stop
  | .pass length => { e with transceiver := e.transceiver.advanceTo (e.transceiver.now + length) }
  | .advance consumer => (e.advance? consumer).getD e

/-- the engine after moves -/
def run (e : Engine) (moves : List Move) : Engine := moves.foldl step e

@[simp] theorem run_nil (e : Engine) : e.run [] = e := rfl

@[simp] theorem run_cons (e : Engine) (m : Move) (moves : List Move) :
    e.run (m :: moves) = (e.step m).run moves := rfl

theorem run_append (e : Engine) (before after : List Move) :
    e.run (before ++ after) = (e.run before).run after := List.foldl_append

/-- what holds at first and is kept by every move holds after every run -/
theorem run_induction {P : Engine → Prop} {e : Engine} (first : P e)
    (kept : ∀ e m, P e → P (e.step m)) (moves : List Move) : P (e.run moves) := by
  induction moves generalizing e with
  | nil => exact first
  | cons m moves ih => exact ih (kept e m first)

end Engine

end BusMaster
