import BusMaster.Bytes

/-!
# The journal

What a part of the engine did, in order: the links it tried to open, the frames it wrote and when,
the ends of its exchanges, and the lines it logged. Moments are nanoseconds of the engine's clock,
which starts at zero.
-/

namespace BusMaster

/-- nanoseconds of the engine's clock -/
abbrev Moment := Nat

/-- how urgent a log line is -/
inductive LogLevel where
  | warn
  | info
  | debug
  deriving DecidableEq, Repr

/-- warnings come first, debug lines last -/
def LogLevel.rank : LogLevel → Nat
  | .warn => 0
  | .info => 1
  | .debug => 2

/-- the word a log line opens with -/
def LogLevel.label : LogLevel → String
  | .warn => "WARN"
  | .info => "INFO"
  | .debug => "DEBUG"

/-- who logs -/
inductive LogSource where
  /-- raw reads and writes -/
  | link
  | rtu
  | ascii
  | bridge
  | transceiver
  /-- the check of a response against its request -/
  | query
  /-- the hand-out of logical addresses -/
  | enumeration
  /-- datasets and channels -/
  | catalog
  /-- the host's side of the engine -/
  | engine
  /-- the consumer of actions -/
  | execution
  /-- the consumers of messages and of host writes -/
  | fanout
  | discovery
  deriving DecidableEq, Repr

/-- one line of the log -/
structure LogLine where
  level : LogLevel
  source : LogSource
  text : String
  deriving DecidableEq, Repr

/-- the line with its level in front -/
def LogLine.render (line : LogLine) : String := line.level.label ++ " " ++ line.text

/-- the line is shown when the log is cut at `level` -/
def LogLine.upTo (level : LogLevel) (line : LogLine) : Bool := line.level.rank ≤ level.rank

end BusMaster
