import Mathlib
import CacheMeter.Agent
import CacheMeter.Agent.Checked
import CacheMeter.Agent.Log
import CacheMeter.Agent.Timetable
import CacheMeter.Binary64
import CacheMeter.Bytes.Utf8
import CacheMeter.Bytes.Word
import CacheMeter.CommandLine
import CacheMeter.CommandLine.LogFilter
import CacheMeter.Counters
import CacheMeter.Intake
import CacheMeter.Main
import CacheMeter.Merge
import CacheMeter.Merge.IndexedHeap
import CacheMeter.Message
import CacheMeter.Message.Wire
import CacheMeter.Proofs.Agent.BreakOff
import CacheMeter.Proofs.Agent.Chances
import CacheMeter.Proofs.Agent.Delivery
import CacheMeter.Proofs.Agent.Early
import CacheMeter.Proofs.Agent.Publishing
import CacheMeter.Proofs.Agent.Readiness
import CacheMeter.Proofs.Agent.Schedules
import CacheMeter.Proofs.Agent.Site
import CacheMeter.Proofs.Agent.Sums
import CacheMeter.Proofs.Agent.Telling
import CacheMeter.Proofs.Agent.Work
import CacheMeter.Proofs.Binary64.Rounding
import CacheMeter.Proofs.Bytes.Subparts
import CacheMeter.Proofs.Intake.Batching
import CacheMeter.Proofs.Intake.Books
import CacheMeter.Proofs.Intake.Exhaustion
import CacheMeter.Proofs.Intake.Feed
import CacheMeter.Proofs.Intake.Labels
import CacheMeter.Proofs.Intake.Leftovers
import CacheMeter.Proofs.Intake.Names
import CacheMeter.Proofs.Intake.Pass
import CacheMeter.Proofs.Intake.Release
import CacheMeter.Proofs.Intake.Succession
import CacheMeter.Proofs.Intake.Timing
import CacheMeter.Proofs.Merge.Batch
import CacheMeter.Proofs.Merge.Frame
import CacheMeter.Proofs.Merge.HeapIndex
import CacheMeter.Proofs.Merge.HeapMap
import CacheMeter.Proofs.Merge.HeapOrder
import CacheMeter.Proofs.Merge.Interleaving
import CacheMeter.Proofs.Merge.Network
import CacheMeter.Proofs.Merge.Polling
import CacheMeter.Proofs.Merge.Reader
import CacheMeter.Proofs.Merge.Rebinding
import CacheMeter.Proofs.Merge.Release
import CacheMeter.Proofs.Merge.Session
import CacheMeter.Proofs.Merge.Twins
import CacheMeter.Proofs.Message.Padding
import CacheMeter.Proofs.Message.RoundTrip
import CacheMeter.Proofs.Ring.Addressing
import CacheMeter.Proofs.Ring.Allocation
import CacheMeter.Proofs.Ring.Appending
import CacheMeter.Proofs.Ring.Binding
import CacheMeter.Proofs.Ring.Chains
import CacheMeter.Proofs.Ring.Channel
import CacheMeter.Proofs.Ring.Confinement
import CacheMeter.Proofs.Ring.Delivery
import CacheMeter.Proofs.Ring.Enclosure
import CacheMeter.Proofs.Ring.Imprint
import CacheMeter.Proofs.Ring.Rounds
import CacheMeter.Proofs.Ring.Spans
import CacheMeter.Proofs.Ring.Storages
import CacheMeter.Proofs.Roster.Ledger
import CacheMeter.Proofs.Roster.Queue
import CacheMeter.Proofs.Settings.Acceptance
import CacheMeter.Proofs.Timeline.Grid
import CacheMeter.Proofs.Timeline.Offsets
import CacheMeter.Proofs.Window.Attribution
import CacheMeter.Proofs.Window.Calls
import CacheMeter.Proofs.Window.Chronicle
import CacheMeter.Proofs.Window.Conservation
import CacheMeter.Proofs.Window.Excess
import CacheMeter.Proofs.Window.Jumps
import CacheMeter.Proofs.Window.Landing
import CacheMeter.Proofs.Window.Opening
import CacheMeter.Proofs.Window.Reordering
import CacheMeter.Proofs.Window.Seams
import CacheMeter.Proofs.Window.Shares
import CacheMeter.Proofs.Window.Spreading
import CacheMeter.Proofs.Window.Tiling
import CacheMeter.Ring.Cells
import CacheMeter.Ring.Record
import CacheMeter.Ring.Region
import CacheMeter.Ring.View
import CacheMeter.Roster
import CacheMeter.Settings
import CacheMeter.Settings.Duration
import CacheMeter.Settings.File
import CacheMeter.Slot
import CacheMeter.Table
import CacheMeter.Tally
import CacheMeter.Text.Alphanumeric
import CacheMeter.Text.Blank
import CacheMeter.Text.Digit
import CacheMeter.Text.Pattern
import CacheMeter.Timeline
import CacheMeter.Window
import CacheMeter.Yaml.Document
import CacheMeter.Yaml.Mark
import CacheMeter.Yaml.Node
import CacheMeter.Yaml.Scalar
import CacheMeter.Yaml.Token
