import BusMaster.Client.Run
import BusMaster.Text.Lines

/-!
# The program

The client as a program: it reads the command line, prints what the client prints as it goes, and
ends with 2 if the command line cannot be read, else with 0. It has no driver for ports or sockets,
so every attempt to open the link finds nothing there.
-/

open BusMaster

/-- carry the command out, printing what was not `shown` before -/
partial def follow (c : Client) (shown : Nat) : IO Unit := do
  IO.print (printout (c.printed.drop shown))
  unless c.isFinished do
    follow c.step c.printed.length

/-- run the client -/
def main (words : List String) : IO UInt32 := do
  match Arguments.read words with
  | .error fault =>
    IO.eprintln ("error: " ++ fault.message)
    return 2
  | .ok arguments =>
    match Client.start arguments [] with
    | .error fault => IO.println ("error: " ++ fault.message)
    | .ok c => follow c 0
    return 0
