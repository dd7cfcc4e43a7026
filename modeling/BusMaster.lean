import BusMaster.Bytes
import BusMaster.Text.Blank
import BusMaster.Text.Digits
import BusMaster.Text.Lines
import BusMaster.Text.Shown
import BusMaster.Text.Quoted
import BusMaster.Fault
import BusMaster.Journal
import BusMaster.Checksum
import BusMaster.Hex
import BusMaster.Register
import BusMaster.Bits
import BusMaster.Number.Binary
import BusMaster.Number.Shortest
import BusMaster.Number.Reading
import BusMaster.Range
import BusMaster.Plant.Dataset
import BusMaster.Plant.Value
import BusMaster.Plant.Channel
import BusMaster.Plant.Action
import BusMaster.Plant.Catalog
import BusMaster.Plant.Agenda
import BusMaster.Link.Settings
import BusMaster.Link.Line
import BusMaster.Frame.Length
import BusMaster.Frame.Reception
import BusMaster.Frame.Rtu
import BusMaster.Frame.Ascii
import BusMaster.Frame.Bridge
import BusMaster.Transceiver
import BusMaster.Query.Function
import BusMaster.Query.Session
import BusMaster.Query.Standard
import BusMaster.Query.Extended
import BusMaster.Query.Layer
import BusMaster.Engine.Flow
import BusMaster.Engine.Device
import BusMaster.Engine.Execution
import BusMaster.Engine.Basic
import BusMaster.Engine.Step
import BusMaster.Engine.Schedule
import BusMaster.Engine.Run
import BusMaster.Client.Arguments
import BusMaster.Client.Run
import BusMaster.Main
import BusMaster.Proofs.Bits.Packing
import BusMaster.Proofs.Words
import BusMaster.Proofs.Addressing
import BusMaster.Proofs.Device.Image
import BusMaster.Proofs.Device.Standard
import BusMaster.Proofs.Query.Enumeration
import BusMaster.Proofs.Query.Session
import BusMaster.Proofs.Query.Shape
import BusMaster.Proofs.Query.Transfer
import BusMaster.Proofs.Query.Requests
import BusMaster.Proofs.Query.Reach
import BusMaster.Proofs.Plant.Placement
import BusMaster.Proofs.Plant.Registration
import BusMaster.Proofs.Device.Exchange
import BusMaster.Proofs.ReadBack.Standard
import BusMaster.Proofs.Device.DeviceBit
import BusMaster.Proofs.Device.Extended
import BusMaster.Proofs.Plant.Extraction
import BusMaster.Proofs.ReadBack.Extended
import BusMaster.Proofs.Engine.Balance
import BusMaster.Proofs.Engine.Census
import BusMaster.Proofs.Engine.Spreading
import BusMaster.Proofs.Engine.Flows
import BusMaster.Proofs.Engine.Intake
import BusMaster.Proofs.Engine.Jobs
import BusMaster.Proofs.Engine.Ledger
import BusMaster.Proofs.Engine.WriteOrder
import BusMaster.Proofs.Engine.Mirror
import BusMaster.Proofs.Engine.Outbox
import BusMaster.Proofs.Engine.Overtaking
import BusMaster.Proofs.Engine.Retries
import BusMaster.Proofs.Engine.Scheduling
import BusMaster.Proofs.Engine.Repeating
import BusMaster.Proofs.Frame.Bridge
import BusMaster.Proofs.Frame.Length
import BusMaster.Proofs.Link.Line
import BusMaster.Proofs.Transceiver.Alignment
import BusMaster.Proofs.Transceiver.Exchange
import BusMaster.Proofs.Frame.Reception
import BusMaster.Proofs.Checksum
import BusMaster.Proofs.Frame.Rtu
import BusMaster.Proofs.Frame.Ascii
import BusMaster.Proofs.Transceiver.Exception
import BusMaster.Proofs.Transceiver.Matching
import BusMaster.Proofs.Transceiver.Waiting
import BusMaster.Proofs.Transceiver.Connection
import BusMaster.Proofs.Plant.History
import BusMaster.Proofs.Plant.Entries
import BusMaster.Proofs.Plant.Following
import BusMaster.Proofs.Plant.Halves
import BusMaster.Proofs.Number.Binary
import BusMaster.Proofs.Plant.Reported
import BusMaster.Proofs.Plant.Canonical
import BusMaster.Proofs.Plant.WriteBack
import BusMaster.Proofs.ReadBack.Neighbour
import BusMaster.Proofs.Engine.History
import BusMaster.Proofs.Engine.Relay
import BusMaster.Proofs.Engine.Lookups
import BusMaster.Proofs.Engine.Reports
import BusMaster.Proofs.Engine.Discovery
import BusMaster.Proofs.Query.Blame
import BusMaster.Proofs.Transceiver.Counting
import BusMaster.Proofs.Engine.Figures
import BusMaster.Proofs.Engine.Tally
import BusMaster.Proofs.Bits.Listing
import BusMaster.Proofs.Bits.Conversions
import BusMaster.Proofs.Query.Coils
import BusMaster.Proofs.Query.Course
import BusMaster.Proofs.Query.Assigning
import BusMaster.Proofs.Engine.Turns
import BusMaster.Proofs.Engine.HandOut
import BusMaster.Proofs.Plant.Removal
import BusMaster.Proofs.Engine.Removal
import BusMaster.Proofs.Device.Masked
import BusMaster.Proofs.Query.Answers
import BusMaster.Proofs.Hex
import BusMaster.Proofs.Frame.Spelling
import BusMaster.Proofs.Frame.Pieces
import BusMaster.Proofs.Plant.Unmoved
import BusMaster.Proofs.Plant.Policies
import BusMaster.Proofs.Plant.Readable
import BusMaster.Proofs.Plant.Cascades
import BusMaster.Proofs.Query.Consecutive
import BusMaster.Proofs.Number.Rounding
import BusMaster.Proofs.Number.Powers
import BusMaster.Proofs.Plant.Integers
import BusMaster.Proofs.Plant.Views
import BusMaster.Proofs.Frame.Bounds
import BusMaster.Proofs.Transceiver.Pacing
import BusMaster.Proofs.Number.Reading
import BusMaster.Proofs.Client.Lengths
import BusMaster.Proofs.Client.Schedules
