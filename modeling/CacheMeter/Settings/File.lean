import CacheMeter.Bytes.Utf8
import CacheMeter.Settings
import CacheMeter.Yaml.Document

/-!
# Settings files

Settings are kept as a YAML mapping.  Fields left out take their defaults, fields
that are not known are ignored, and a known field given twice is an error.

Main results:

- `Settings.ofNode?` reads settings from a YAML value.
- `Settings.ofFile` reads and checks the contents of a file, or says what failed.
-/

namespace CacheMeter.Settings

open Yaml

/-! ## From YAML -/

/-- A duration given as text. -/
def durationOfNode? (node : Node) : Option Duration := do
  Duration.parse? (← node.text?)

/-- Ring settings from a mapping. -/
def Rings.ofNode? (node : Node) : Option Rings := do
  let defaults : Rings := {}
  let fields ← node.fields?
  let dataPages ← fieldOr fields "data_pages" defaults.dataPages Node.word32?
  let watermarkBytes ← fieldOr fields "watermark_bytes" defaults.watermarkBytes Node.word32?
  let cpus ← fieldOr fields "cpus" defaults.cpus fun node => do
    (← node.items?).mapM Node.word32?
  return { dataPages, watermarkBytes, cpus }

/-- Slot settings from a mapping. -/
def Aggregation.ofNode? (node : Node) : Option Aggregation := do
  let defaults : Aggregation := {}
  let fields ← node.fields?
  let slotLength ← fieldOr fields "slot_length" defaults.slotLength durationOfNode?
  let slotCount ← fieldOr fields "window_size" defaults.slotCount Node.word32?
  let slotOffset ← fieldOr fields "slot_offset" defaults.slotOffset durationOfNode?
  return { slotLength, slotCount, slotOffset }

/-- Settings from a mapping. -/
def ofNode? (node : Node) : Option Settings := do
  let defaults : Settings := {}
  let fields ← node.fields?
  let logLevel ← fieldOr fields "log_level" defaults.logLevel Node.text?
  let rings ← fieldOr fields "ring" defaults.rings Rings.ofNode?
  let aggregation ← fieldOr fields "aggregation" defaults.aggregation Aggregation.ofNode?
  let pollInterval ← fieldOr fields "poll_interval" defaults.pollInterval durationOfNode?
  let statsInterval ← fieldOr fields "stats_interval" defaults.statsInterval durationOfNode?
  return { logLevel, rings, aggregation, pollInterval, statsInterval }

/-! ## From a file -/

/-- Why a settings file is not used. -/
inductive FileFault
  | unreadable (path : String)
  | malformed (path : String)
  | refused (cause : Refusal)
deriving DecidableEq, Repr

/-- The text shown for a settings file that is not used. -/
def FileFault.message : FileFault → String
  | .unreadable path => "reading config file " ++ path
  | .malformed path => "parsing config file " ++ path
  | .refused cause => cause.message

/-- Read and check the contents of the file at `path`; `none` stands for a file that
cannot be read. -/
def ofFile (path : String) (contents : Option Bytes) : Except FileFault Settings :=
  match contents.bind Bytes.decode? with
  | none => .error (.unreadable path)
  | some text =>
    match (read? text).bind ofNode? with
    | none => .error (.malformed path)
    | some settings =>
      match settings.check with
      | .error cause => .error (.refused cause)
      | .ok _ => .ok settings

end CacheMeter.Settings
