import Std.Data.TreeMap.AdditionalOperations
import BusMaster.Plant.Action
import BusMaster.Journal

/-!
# The catalog

The catalog holds the datasets and channels of every node, the last payload read for each dataset
and the last value of each channel. Datasets are found by number, numbers by the host's key, and
channels by id, in the order of their ids.

`Catalog.apply` takes in what was read: it keeps the payload, and unless the dataset's policy holds
it back, decodes every channel bound to the dataset, reports those whose policy says so, and asks
for the reads that change bitmaps name. `Catalog.buildWrite` goes the other way, from the value of
a channel to the action that writes it. Both find a channel by `Channel.position`.
-/

namespace BusMaster

/-- a registered dataset and what was last read for it -/
structure DatasetEntry where
  key : String
  dataset : Dataset
  cache : Option Payload := none
  deriving Repr

/-- a registered channel, its value and the one before -/
structure ChannelEntry where
  channel : Channel
  current : Option Value := none
  previous : Option Value := none
  deriving Repr

/-- the datasets and channels of every node -/
structure Catalog where
  /-- the number given out last -/
  lastId : Nat := 0
  keys : Std.TreeMap String DatasetId := {}
  datasets : Std.TreeMap DatasetId DatasetEntry := {}
  channels : Std.TreeMap ChannelId ChannelEntry := {}

/-- what one message brought -/
structure Update where
  dataset : Dataset
  /-- the payload differs from the one kept before -/
  changed : Bool
  /-- values to report, in the order of channel ids -/
  states : List State := []
  /-- reads that change bitmaps ask for -/
  cascades : List Action := []
  deriving Repr

/-- a log line of the catalog -/
def catalogLine (level : LogLevel) (text : String) : LogLine := ⟨level, .catalog, text⟩

/-- the value is the one known already -/
def isKnown (known : Option Value) (value : Value) : Bool :=
  match known with
  | some v => v.same value
  | none => false

/-- bits 0 to 11 of a change bitmap name channels, bits 12 to 14 elements, and bit 15 the datasets
without a scope -/
def namedBy (bitmap : UInt16) (d : Dataset) : Bool :=
  (List.range 16).any fun bit =>
    bitmap.toNat.testBit bit &&
      match d.scope with
      | some scope =>
        if bit < 12 then scope.channel.toNat == bit
        else if bit < 15 then scope.element.toNat == bit - 12
        else false
      | none => bit == 15

namespace ChannelEntry

/-- the entry after its channel was read from a payload; a change bitmap keeps no value -/
def refresh (e : ChannelEntry) (p : Payload) : ChannelEntry :=
  match e.channel.read p with
  | .error _ => e
  | .ok value =>
    if e.channel.cls = .changeBitmap ∨ isKnown e.current value then e
    else { e with current := some value, previous := e.current }

/-- the state to report after a read, under the policy of the dataset -/
def report? (e : ChannelEntry) (policy : ReportPolicy) (p : Payload) : Option State :=
  match e.channel.read p with
  | .error _ => none
  | .ok value =>
    if e.channel.cls = .changeBitmap then none
    else
      match e.channel.report.getD policy with
      | .always => some ⟨e.channel.id, value⟩
      | .change => if isKnown e.current value then none else some ⟨e.channel.id, value⟩
      | .never => none

/-- the change bitmap in a payload -/
def bitmap? (e : ChannelEntry) (p : Payload) : Option UInt16 :=
  match e.channel.cls, e.channel.read p with
  | .changeBitmap, .ok (.int i) => some (UInt16.ofInt i)
  | _, _ => none

/-- the complaint about a channel that cannot be read -/
def complaint? (e : ChannelEntry) (p : Payload) : Option LogLine :=
  match e.channel.read p with
  | .error fault =>
    some (catalogLine .warn s!"unable to decode {e.channel.id}: {fault.message}")
  | .ok _ => none

end ChannelEntry

namespace Catalog

/-- register a dataset; a key that is known already keeps its number and its dataset -/
def addDataset (c : Catalog) (key : String) (d : Dataset) :
    DatasetId × Catalog × List LogLine :=
  match c.keys[key]? with
  | some id => (id, c, [])
  | none =>
    let id := c.lastId + 1
    (id,
      { c with
        lastId := id
        keys := c.keys.insert key id
        datasets := c.datasets.insert id { key := key, dataset := d } },
      [catalogLine .debug s!"{key} registered as {datasetText id} ({d.cls.label})"])

/-- why a channel cannot be registered -/
def checkChannel (c : Catalog) (ch : Channel) : Except ConfigFault Unit :=
  match c.datasets[ch.dataset]? with
  | some entry => ch.checkFootprint entry.dataset
  | none => .error .unknownDataset

/-- register a channel, in place of one with the same id, unless it does not fit its dataset -/
def addChannel (c : Catalog) (ch : Channel) : Bool × Catalog × List LogLine :=
  match c.checkChannel ch with
  | .ok () => (true, { c with channels := c.channels.insert ch.id { channel := ch } }, [])
  | .error fault =>
    let place := s!"({ch.cls.label} at index {ch.index}) of {datasetText ch.dataset}"
    (false, c, [catalogLine .warn s!"rejected channel {ch.id} {place}: {fault.message}"])

/-- the channel is bound to a dataset of another node -/
def isElsewhere (c : Catalog) (node : NodeId) (ch : Channel) : Bool :=
  match c.datasets[ch.dataset]? with
  | some entry => entry.dataset.node != node
  | none => false

/-- remove the channels of a node and count them -/
def removeChannels (c : Catalog) (node : NodeId) : Nat × Catalog :=
  let kept := c.channels.filter fun _ e => c.isElsewhere node e.channel
  (c.channels.size - kept.size, { c with channels := kept })

/-- remove the datasets of a node with their channels, and count the datasets -/
def removeDatasets (c : Catalog) (node : NodeId) : Nat × Catalog :=
  let gone := c.datasets.toList.filter fun (_, e) => e.dataset.node == node
  let kept := c.datasets.filter fun _ e => e.dataset.node != node
  (gone.length,
    { c with
      keys := gone.foldl (fun keys (_, e) => keys.erase e.key) c.keys
      datasets := kept
      channels := c.channels.filter fun _ e => kept.contains e.channel.dataset })

/-- a registered dataset -/
def dataset? (c : Catalog) (id : DatasetId) : Option Dataset :=
  c.datasets[id]?.map (·.dataset)

/-- numbers and definitions of the datasets of a node, ascending -/
def datasetsOf (c : Catalog) (node : NodeId) : List (DatasetId × Dataset) :=
  (c.datasets.toList.filter fun (_, e) => e.dataset.node == node).map fun (id, e) =>
    (id, e.dataset)

/-- a registered channel -/
def channel? (c : Catalog) (id : ChannelId) : Option Channel := c.channels[id]?.map (·.channel)

/-- the last value of a channel -/
def value? (c : Catalog) (id : ChannelId) : Option Value := c.channels[id]?.bind (·.current)

/-- the value of a channel before it last changed -/
def previous? (c : Catalog) (id : ChannelId) : Option Value :=
  c.channels[id]?.bind (·.previous)

/-- the action that polls a dataset -/
def readAction (c : Catalog) (id : DatasetId) : Except ConfigFault Action :=
  match c.datasets[id]? with
  | some entry => .ok (Action.ofDataset id entry.dataset)
  | none => .error .unknownDataset

/-- the channels bound to a dataset, in the order of their ids -/
def boundTo (c : Catalog) (id : DatasetId) : List ChannelEntry :=
  (c.channels.toList.map (·.2)).filter fun e => e.channel.dataset == id

/-- the reads a change bitmap of dataset `id` on `node` asks for, ascending -/
def named (c : Catalog) (id : DatasetId) (node : NodeId) (bitmap : UInt16) : List Action :=
  (c.datasets.toList.filter fun (other, e) =>
      other != id && e.dataset.node == node && !e.dataset.internal
        && (e.dataset.cls.isBits || e.dataset.cls.isRegisters) && namedBy bitmap e.dataset).map
    fun (other, e) => { Action.ofDataset other e.dataset with repeats := .once }

/-- the payload differs from what is kept -/
def differs (cache : Option Payload) (p : Payload) : Bool :=
  match cache with
  | some kept => !(kept == p)
  | none => true

/-- the channels of the dataset are told: its policy allows it and it is not internal -/
def fansOut (d : Dataset) (changed : Bool) : Bool :=
  !d.internal &&
    match d.report with
    | .always => true
    | .change => changed
    | .never => false

/-- take in what was read: keep the payload and tell the channels -/
def apply (c : Catalog) (m : Message) : Except ConfigFault (Update × Catalog × List LogLine) :=
  match c.datasets[m.dataset]? with
  | none => .error .unknownDataset
  | some entry =>
    let d := entry.dataset
    let changed := differs entry.cache m.payload
    let kept := { c with
      datasets := c.datasets.insert m.dataset { entry with cache := some m.payload } }
    if fansOut d changed then
      let bound := c.boundTo m.dataset
      let bitmaps := bound.filterMap fun e => e.bitmap? m.payload
      .ok (
        { dataset := d
          changed := changed
          states := bound.filterMap fun e => e.report? d.report m.payload
          cascades := bitmaps.flatMap (c.named m.dataset d.node) },
        { kept with
          channels := c.channels.map fun _ e =>
            if e.channel.dataset = m.dataset then e.refresh m.payload else e },
        bound.filterMap fun e => e.complaint? m.payload)
    else .ok ({ dataset := d, changed := changed }, kept, [])

/-- the register that holds a byte, with the other byte as it was last read -/
def mergeByte (cache : Option Payload) (position : Nat) (b : UInt8) : Bytes :=
  let first := 2 * (position / 16)
  let (high, low) :=
    match cache with
    | some (.registers bytes) =>
      match Channel.slice bytes first 2 with
      | [high, low] => (high, low)
      | _ => (0, 0)
    | _ => (0, 0)
  if bytePosition position = first then [b, low] else [high, b]

/-- where and what a field at a bit position is written: whole registers, bits at an offset, or one
register around a byte -/
def place (entry : DatasetEntry) (position : Nat) (a : Action) (field : Field) :
    Except ConfigFault Action := do
  let d := entry.dataset
  if position / 16 < UInt16.size then
    let register := UInt16.ofNat (position / 16)
    match field with
    | .bits s =>
      if d.cls.isRegisters ∧ position % 16 = 0 ∧ s.size % 16 = 0 then
        let bytes := s.toRegisters
        return { a with
          address := ← addAddress d.address register
          length := UInt16.ofNat (bytes.length / 2)
          payload := some (.registers bytes) }
      else if d.offset.toNat + position < UInt16.size then
        return { a with
          offset := UInt16.ofNat (d.offset.toNat + position)
          length := UInt16.ofNat s.size
          payload := some (.bits s) }
      else throw .addressOverflow
    | .bytes [b] =>
      return { a with
        address := ← addAddress d.address register
        length := 1
        payload := some (.registers (mergeByte entry.cache position b)) }
    | .bytes bytes =>
      return { a with
        address := ← addAddress d.address register
        length := UInt16.ofNat (bytes.length / 2)
        payload := some (.registers bytes) }
  else throw .addressOverflow

/-- the action that writes the value of a channel -/
def buildWrite (c : Catalog) (s : State) : Except ConfigFault Action :=
  match c.channels[s.channel]? with
  | none => .error .unknownChannel
  | some { channel := ch, .. } =>
    match c.datasets[ch.dataset]? with
    | none => .error .unknownDataset
    | some entry => do
      let d := entry.dataset
      if d.cls.isWritable && (d.cls.isBits || d.cls.isRegisters) then
        let field ← ch.encoding.encode ch.cls s.value
        let write := { Action.ofDataset ch.dataset d with
          action := .write, repeats := .once, internal := false }
        place entry ch.position write field
      else throw .readOnly

end Catalog

end BusMaster
