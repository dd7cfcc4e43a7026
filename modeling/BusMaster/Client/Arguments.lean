import BusMaster.Number.Reading
import BusMaster.Plant.Dataset
import BusMaster.Plant.Value
import BusMaster.Query.Function
import BusMaster.Link.Settings

/-!
# The command line

The words of a command line are the options of the link, a command, and the options of the command.
An option is written with two dashes and its name or with one dash and its letter. Its value is
what follows the equals sign, what follows the letter, or the next word, unless that looks like an
option itself. No option may be given twice.

`readOptions` knows this grammar for any table of options (`OptionForm`); `Arguments.read` is the
command line of the client.
-/

namespace BusMaster

/-- an option a command line may hold -/
structure OptionForm where
  /-- written behind two dashes -/
  name : String
  /-- written behind one dash -/
  letter : Option Char := none
  takesValue : Bool := true
  deriving DecidableEq, Repr

/-- what is wrong with a command line -/
inductive UsageFault where
  /-- a word that has no place where it stands -/
  | unexpected (word : String)
  /-- an option that lacks its value -/
  | missingValue (name : String)
  /-- an option that is given twice -/
  | repeated (name : String)
  /-- an option whose value cannot be read -/
  | badValue (name value : String)
  /-- two options that exclude each other -/
  | conflict (first second : String)
  /-- an option that must be given -/
  | missingOption (name : String)
  /-- no command is given -/
  | missingCommand
  deriving DecidableEq, Repr

/-- the wording of a usage fault -/
def UsageFault.message : UsageFault → String
  | .unexpected word => s!"unexpected argument: {word}"
  | .missingValue name => s!"a value is required for --{name}"
  | .repeated name => s!"--{name} cannot be given twice"
  | .badValue name value => s!"bad value for --{name}: {value}"
  | .conflict first second => s!"--{first} cannot be used with --{second}"
  | .missingOption name => s!"--{name} must be given"
  | .missingCommand => "a command must be given"

/-- what a word of a command line is -/
inductive Word where
  /-- no option -/
  | plain
  /-- an option with its value, empty for one that takes none -/
  | complete (name value : String)
  /-- an option whose value is the next word -/
  | awaiting (name : String)
  /-- none of the options -/
  | unknown
  deriving DecidableEq, Repr

namespace Word

/-- the word behind two dashes: a name, with or without an equals sign and a value -/
def ofLong (forms : List OptionForm) (body : List Char) : Word :=
  let (name, rest) := body.span fun c => c ≠ '='
  match forms.find? fun form => form.name.toList == name, rest with
  | none, _ => .unknown
  | some form, [] => if form.takesValue then .awaiting form.name else .complete form.name ""
  | some form, _ :: value =>
    if form.takesValue then .complete form.name (String.ofList value) else .unknown

/-- the word behind one dash: a letter, with or without a value -/
def ofShort (forms : List OptionForm) (letter : Char) (rest : List Char) : Word :=
  match forms.find? fun form => form.letter == some letter, rest with
  | none, _ => .unknown
  | some form, [] => .awaiting form.name
  | some form, '=' :: value => .complete form.name (String.ofList value)
  | some form, value => .complete form.name (String.ofList value)

/-- what a word is; a dash alone is no option -/
def read (forms : List OptionForm) (word : String) : Word :=
  match word.toList with
  | '-' :: '-' :: body => ofLong forms body
  | '-' :: letter :: rest => ofShort forms letter rest
  | _ => .plain

end Word

/-- options with their values, in the order they were given -/
abbrev Given := List (String × String)

/-- the options in front, and the words from the first one that is no option on -/
def readOptions (forms : List OptionForm) : List String → Except UsageFault (Given × List String)
  | [] => .ok ([], [])
  | word :: rest =>
    match Word.read forms word with
    | .plain => .ok ([], word :: rest)
    | .unknown => .error (.unexpected word)
    | .complete name value => do
      let (given, words) ← readOptions forms rest
      return ((name, value) :: given, words)
    | .awaiting name =>
      match rest with
      | [] => .error (.missingValue name)
      | value :: rest =>
        if Word.read [] value = .plain then do
          let (given, words) ← readOptions forms rest
          return ((name, value) :: given, words)
        else .error (.missingValue name)

namespace Given

/-- no option is given twice -/
def checkOnce : Given → Except UsageFault Unit
  | [] => .ok ()
  | (name, _) :: rest =>
    if rest.any fun (other, _) => other == name then .error (.repeated name) else checkOnce rest

/-- the value of an option, if it is given -/
def value? {α : Type} (given : Given) (name : String) (read : String → Option α) :
    Except UsageFault (Option α) :=
  match given.lookup name with
  | none => .ok none
  | some text =>
    match read text with
    | some value => .ok (some value)
    | none => .error (.badValue name text)

/-- the value of an option, or the value it has when it is not given -/
def valueOr {α : Type} (given : Given) (name : String) (fallback : α)
    (read : String → Option α) : Except UsageFault α := do
  return (← given.value? name read).getD fallback

/-- the option is given -/
def has (given : Given) (name : String) : Bool := (given.lookup name).isSome

end Given

/-- options of the link -/
structure LinkOptions where
  tcp : Option String := none
  serial : Option String := none
  baud : UInt32 := 9600
  parity : Parity := .none
  /-- derived from the link when unset -/
  framing : Option Framing := none
  unit : UInt8 := 1
  protocol : Protocol := .standard
  /-- milliseconds a response may take -/
  timeout : Nat := 1000
  detail : Detail := ⟨.header, .nothing⟩
  deriving Repr

/-- options of a dataset -/
structure DatasetOptions where
  cls : MessageClass := .holdingRegister
  address : UInt16
  offset : UInt16 := 0
  value : ValueClass := .uint16
  deriving Repr

/-- what the client is told to do -/
inductive Command where
  /-- poll so many values every so many milliseconds, and print every change -/
  | poll (dataset : DatasetOptions) (quantity : UInt16) (period : Nat) (fast : Bool)
  /-- write one value; this command has no form on the command line -/
  | write (dataset : DatasetOptions) (index : UInt16) (text : String)
  /-- hand out logical addresses from `first` on -/
  | enumerate (first : UInt8)
  deriving Repr

/-- the command line of the client -/
structure Arguments where
  link : LinkOptions
  command : Command
  deriving Repr

namespace Arguments

/-- the value a configuration word stands for -/
def readName {α : Type} (ofName : String → Except ConfigFault α) (text : String) : Option α :=
  (ofName text).toOption

/-- a whole number of at most `max` -/
def readBounded (max : Nat) (text : String) : Option Nat := (readInt 0 max text).map Int.toNat

/-- a byte -/
def readByte (text : String) : Option UInt8 := (readBounded 0xFF text).map UInt8.ofNat

/-- a word -/
def readWord (text : String) : Option UInt16 := (readBounded 0xFFFF text).map UInt16.ofNat

/-- milliseconds; no sign but a plus -/
def readMilliseconds : String → Option Nat := readUpTo (UInt64.size - 1)

/-- the options of the link -/
def linkForms : List OptionForm :=
  [⟨"tcp", none, true⟩, ⟨"serial", none, true⟩, ⟨"baud", none, true⟩, ⟨"parity", none, true⟩,
    ⟨"framing", some 'f', true⟩, ⟨"unit", some 'u', true⟩, ⟨"protocol", none, true⟩,
    ⟨"timeout", some 't', true⟩, ⟨"frame-decode", none, true⟩, ⟨"phys-decode", none, true⟩]

/-- the options of polling -/
def pollForms : List OptionForm :=
  [⟨"class", some 'c', true⟩, ⟨"address", some 's', true⟩, ⟨"offset", some 'o', true⟩,
    ⟨"value", some 'v', true⟩, ⟨"quantity", some 'q', true⟩, ⟨"period", some 'p', true⟩,
    ⟨"fast", none, false⟩]

/-- the options of the hand-out of addresses -/
def enumerateForms : List OptionForm := [⟨"first", some 's', true⟩]

/-- the options of the link, from what is given -/
def linkOptions (given : Given) : Except UsageFault LinkOptions := do
  given.checkOnce
  let tcp ← given.value? "tcp" some
  let serial ← given.value? "serial" some
  if tcp.isSome && serial.isSome then throw (.conflict "serial" "tcp")
  return {
    tcp := tcp
    serial := serial
    baud := UInt32.ofNat (← given.valueOr "baud" 9600 (readBounded 0xFFFFFFFF))
    parity := ← given.valueOr "parity" .none (readName Parity.ofName)
    framing := ← given.value? "framing" (readName Framing.ofName)
    unit := ← given.valueOr "unit" 1 readByte
    protocol := ← given.valueOr "protocol" .standard (readName Protocol.ofName)
    timeout := ← given.valueOr "timeout" 1000 readMilliseconds
    detail := ⟨← given.valueOr "frame-decode" .header (readName FrameDetail.ofName),
      ← given.valueOr "phys-decode" .nothing (readName RawDetail.ofName)⟩ }

/-- the options of polling, from what is given -/
def pollCommand (given : Given) : Except UsageFault Command := do
  given.checkOnce
  let cls ← given.valueOr "class" .holdingRegister (readName MessageClass.ofName)
  let offset ← given.valueOr "offset" 0 readWord
  let value ← given.valueOr "value" .uint16 (readName ValueClass.ofName)
  let quantity ← given.valueOr "quantity" 1 readWord
  let period ← given.valueOr "period" 1000 readMilliseconds
  match ← given.value? "address" readWord with
  | some address => return .poll ⟨cls, address, offset, value⟩ quantity period (given.has "fast")
  | none => throw (.missingOption "address")

/-- the words of a command hold options only; two dashes may close them -/
def readClosed (forms : List OptionForm) (words : List String) : Except UsageFault Given := do
  let options := if words.getLast? = some "--" then words.dropLast else words
  match ← readOptions forms options with
  | (given, []) => return given
  | (_, word :: _) => throw (.unexpected word)

/-- the options of the link, and the words from the command on -/
def readLink (words : List String) : Except UsageFault (LinkOptions × List String) := do
  let (given, rest) ← readOptions linkForms words
  return (← linkOptions given, rest)

/-- the command the words stand for -/
def readCommand : List String → Except UsageFault Command
  | [] => .error .missingCommand
  | "poll" :: words => do pollCommand (← readClosed pollForms words)
  | "enumerate" :: words => do
    let given ← readClosed enumerateForms words
    given.checkOnce
    return .enumerate (← given.valueOr "first" 2 readByte)
  | word :: _ => .error (.unexpected word)

/-- the command line of the client -/
def read (words : List String) : Except UsageFault Arguments := do
  let (link, rest) ← readLink words
  return ⟨link, ← readCommand rest⟩

end Arguments

end BusMaster
