import CacheMeter.Intake
import CacheMeter.Settings.Duration

/-!
# What the agent logs

Log lines are values: a level, a message and named fields.

Main results:

- `ofSlot?` describes a completed slot; `ofSlot?_fresh` says that an empty slot is
  not worth a line.
- `ofSnapshot` reports message counts; `ofFlush`, `ofLost` and `ofFailure` are the
  other lines of a session.
-/

namespace CacheMeter

/-- One line of the log. -/
structure LogLine where
  level : String
  message : String
  fields : List (String × String)
deriving DecidableEq, Repr

namespace LogLine

/-! ## Completed slots -/

/-- The entry with the most cache misses, the first of equals. -/
def busiest? : List (UInt32 × Counters) → Option (UInt32 × Counters)
  | [] => none
  | entry :: rest =>
    match busiest? rest with
    | none => some entry
    | some best => some (if entry.2.cacheMisses < best.2.cacheMisses then best else entry)

/-- The sum of a counter over all entities of a slot. -/
def total (slot : Slot) (counter : Counters → UInt64) : Nat :=
  slot.totals.values.foldr (fun counters total => (counter counters).toNat + total) 0

/-- The process name under which an entity is shown. -/
def commandOf (roster : Roster) (entity : UInt32) : String :=
  match roster.get? entity with
  | some label => label.command
  | none => "unknown"

/-- The line for a completed slot; there is none for an empty one. -/
def ofSlot? (emission : Emission) : Option LogLine :=
  let slot := emission.slot
  match busiest? slot.totals.entries with
  | none => none
  | some (entity, _) =>
    some
      { level := "DEBUG"
        message := "slot complete"
        fields :=
          [("start", toString slot.startTime.toNat),
            ("entities", toString slot.totals.entries.length),
            ("cycles", toString (total slot Counters.cycles)),
            ("llc_misses", toString (total slot Counters.cacheMisses)),
            ("top_entity", "Some(" ++ toString entity.toNat ++ ")"),
            ("top_comm", commandOf emission.roster entity)] }

theorem ofSlot?_fresh (startTime length : UInt64) (roster : Roster) :
    ofSlot? { slot := Slot.fresh startTime length, roster := roster } = none := rfl

/-! ## Counts -/

/-- The lines for a snapshot of the message counts, taken every `interval`; there are
none if nothing was counted. -/
def ofSnapshot (snapshot : Tally.Snapshot) (interval : Duration) : List LogLine :=
  if snapshot.isEmpty then []
  else
    { level := "INFO"
      message := "message stats"
      fields :=
        [("messages", toString snapshot.total),
          ("lost", toString snapshot.lostSamples.toNat),
          ("decode_errors", toString snapshot.decodeErrors.toNat),
          ("interval", interval.text)] }
      :: snapshot.messages.map fun entry =>
        { level := "DEBUG"
          message := "  by kind"
          fields := [("kind", entry.1.name), ("count", toString entry.2.toNat)] }

/-! ## Other lines -/

/-- The line for the slots emitted at the end of a session. -/
def ofFlush (drained : Nat) : LogLine where
  level := "INFO"
  message := "aggregation window flushed"
  fields := [("drained", toString drained)]

/-- The line for samples lost during a poll; there is none if none were. -/
def ofLost (lost : Nat) : List LogLine :=
  if lost = 0 then []
  else
    [{ level := "WARN"
       message := "kernel dropped perf records"
       fields := [("lost", toString lost)] }]

/-- The line for a failed poll. -/
def ofFailure (failure : Intake.Failure) : LogLine where
  level := "WARN"
  message := "ring poll failed"
  fields := [("error", failure.message)]

end LogLine

end CacheMeter
