import BusMaster.Plant.Action

/-!
# The agenda

Actions that repeat wait on one of two lists until the host ticks it; an action that does not is
handed out at once. The agenda keeps no time: how often a list is ticked is up to the host.
-/

namespace BusMaster

/-- the repeating actions, in the order they were submitted -/
structure Agenda where
  slow : List Action := []
  fast : List Action := []
  deriving Repr

namespace Agenda

/-- put a repeating action on its list -/
def add (g : Agenda) (a : Action) : Agenda :=
  match a.repeats with
  | .once => g
  | .slow => { g with slow := g.slow ++ [a] }
  | .fast => { g with fast := g.fast ++ [a] }

/-- what submitting an action hands out at once -/
def handsOut (a : Action) : List Action :=
  match a.repeats with
  | .once => [a]
  | _ => []

/-- drop the actions of a node -/
def remove (g : Agenda) (node : NodeId) : Agenda where
  slow := g.slow.filter fun a => a.node != node
  fast := g.fast.filter fun a => a.node != node

end Agenda

end BusMaster
