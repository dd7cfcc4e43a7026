import BusMaster.Plant.Dataset
import BusMaster.Plant.Value

/-!
# Channels

A channel is a value at a fixed place of a dataset. Its index counts values of its own width, so
that a register at index 2 is the third one, a pair of registers at index 1 is the third and fourth,
and a byte at index 1 is the high byte of the first register. `Channel.position` and `Channel.last`
bound its bits; a channel is taken only where the payload of its dataset holds all of them
(`Channel.checkFootprint`), and `Channel.extract` cuts them out of a payload.
-/

namespace BusMaster

/-- a value at a fixed place of a dataset -/
structure Channel where
  id : ChannelId
  dataset : DatasetId
  /-- position in the dataset, in values of the channel's width -/
  index : UInt16
  cls : ValueClass
  encoding : Encoding := {}
  /-- engineering unit, for the host -/
  unit : Option String := none
  /-- the dataset's policy when unset -/
  report : Option ReportPolicy := none
  deriving DecidableEq, Repr

/-- the byte that holds bits `i` to `i + 8` of register bytes: the low byte comes second -/
def bytePosition (i : Nat) : Nat := if i % 16 = 0 then 2 * (i / 16) + 1 else 2 * (i / 16)

namespace Channel

/-- the first bit of the channel in a payload -/
def position (c : Channel) : Nat := c.index.toNat * c.cls.width

/-- the bit after the last one of the channel -/
def last (c : Channel) : Nat := c.position + c.cls.width

/-- the channel must lie within the payload of the dataset, and bits hold only bit fields -/
def checkFootprint (c : Channel) (d : Dataset) : Except ConfigFault Unit :=
  if d.bitLength = 0 then .error .unsupportedClass
  else if d.cls.isBits && !c.cls.isBitField then .error .unsupportedClass
  else if d.bitLength < c.last then .error .valueOutOfRange
  else .ok ()

/-- the bytes of `count` bytes at `first` -/
def slice (bytes : Bytes) (first count : Nat) : Bytes := (bytes.drop first).take count

/-- the field of the channel in a payload -/
def extract (c : Channel) (p : Payload) : Except ConfigFault Field :=
  if p.bitLength < c.last then .error .valueOutOfRange
  else if c.cls.isBitField then .ok (.bits (p.toBits.range c.position c.last))
  else
    match p with
    | .bits _ => .error .valueMismatch
    | .registers bytes =>
      if c.cls.width = 8 then .ok (.bytes (slice bytes (bytePosition c.position) 1))
      else .ok (.bytes (slice bytes (c.position / 8) (c.cls.width / 8)))

/-- the value of the channel in a payload -/
def read (c : Channel) (p : Payload) : Except ConfigFault Value := do
  c.encoding.decode c.cls (← c.extract p)

end Channel

end BusMaster
