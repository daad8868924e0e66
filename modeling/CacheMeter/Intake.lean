import CacheMeter.Merge
import CacheMeter.Roster
import CacheMeter.Tally
import CacheMeter.Window

/-!
# From rings to slots

The intake reads the rings of all processors in time order, decodes each record and
feeds measurements to the window.  Slots that leave the window are emitted together
with the roster of that moment.

Main results:

- `Pass.consume` is what one record does; `consume_tooLong` says that a measurement
  that cannot be placed on the timeline is skipped.
- `Intake.poll` consumes everything published; `poll_noReaders` is its refusal.
- `Intake.drain` emits the slots still held.
-/

namespace CacheMeter

/-! ## State and reports -/

/-- The window being filled, the roster that labels its slots, and the counts. -/
structure Intake where
  window : Window
  roster : Roster := Roster.empty
  tally : Tally := Tally.zero
deriving DecidableEq, Inhabited

/-- A slot handed on, with the roster at that moment. -/
structure Emission where
  slot : Slot
  roster : Roster
deriving DecidableEq, Inhabited

namespace Intake

/-- What one poll did. -/
structure Summary where
  records : Nat := 0
  measurements : Nat := 0
  lostSamples : Nat := 0
  decodeErrors : Nat := 0
  slotsEmitted : Nat := 0
deriving DecidableEq, Repr, Inhabited

/-- Why a poll fails. -/
inductive Failure
  | merging (cause : Merge.Refusal)
  | reading (cause : Ring.Refusal)
  | aggregating (cause : Window.Refusal)
deriving DecidableEq, Repr

/-- The text shown for a failed poll. -/
def Failure.message : Failure → String
  | .merging cause => "merging rings: " ++ cause.message
  | .reading cause => "reading ring: " ++ cause.message
  | .aggregating cause => "aggregating: " ++ cause.message

/-! ## One record -/

/-- A poll under way: the intake, what was done so far and what was emitted. -/
structure Pass where
  intake : Intake
  summary : Summary := {}
  emitted : List Emission := []
deriving DecidableEq, Inhabited

namespace Pass

/-- Count a record that cannot be used. -/
def skip (pass : Pass) : Pass :=
  { pass with
    intake := { pass.intake with tally := pass.intake.tally.recordDecodeError }
    summary :=
      { pass.summary with
        records := pass.summary.records + 1
        decodeErrors := pass.summary.decodeErrors + 1 } }

/-- Count a decoded message. -/
def count (pass : Pass) (kind : Message.Kind) : Pass :=
  { pass with
    intake := { pass.intake with tally := pass.intake.tally.record kind }
    summary := { pass.summary with records := pass.summary.records + 1 } }

/-- Bring roster and window up to a measurement's end, emit the slots that leave the
window, and spread the measurement. -/
def measure (pass : Pass) (m : Measurement) : Except Failure Pass :=
  let roster := (pass.intake.roster.advance m.endTime).2
  let (evicted, window) := pass.intake.window.advance m.endTime
  match window.update m with
  | .error cause => .error (.aggregating cause)
  | .ok window =>
    .ok
      { intake := { pass.intake with window := window, roster := roster }
        summary :=
          { pass.summary with
            measurements := pass.summary.measurements + 1
            slotsEmitted := pass.summary.slotsEmitted + evicted.length }
        emitted := pass.emitted ++ evicted.map fun slot => { slot := slot, roster := roster } }

/-- Count the samples reported lost. -/
def lose (pass : Pass) (notice : LostNotice) : Pass :=
  { pass with
    intake := { pass.intake with tally := pass.intake.tally.recordLost notice.lost }
    summary :=
      { pass.summary with lostSamples := pass.summary.lostSamples + notice.lost.toNat } }

/-- Queue a roster update. -/
def enroll (pass : Pass) (change : Roster → Roster) : Pass :=
  { pass with intake := { pass.intake with roster := change pass.intake.roster } }

/-- Take in a decoded message.  A measurement that cannot be placed on the timeline
is skipped like a record that cannot be decoded. -/
def accept (pass : Pass) (message : Message) : Except Failure Pass :=
  match message with
  | .measurement m =>
    match Window.checkMeasurement m with
    | .error _ => .ok pass.skip
    | .ok _ => (pass.count .measurement).measure m
  | .lost notice => .ok ((pass.count .lost).lose notice)
  | .rmidAlloc update => .ok ((pass.count .rmidAlloc).enroll fun roster => roster.alloc update)
  | .rmidFree update => .ok ((pass.count .rmidFree).enroll fun roster => roster.free update)

/-- What one record does to a pass. -/
def consume (pass : Pass) (record : Merge.MergedRecord) : Except Failure Pass :=
  match Message.decodeRecord record.recordType record.payload with
  | .error _ => .ok pass.skip
  | .ok message => pass.accept message

theorem consume_tooLong {pass : Pass} {record : Merge.MergedRecord} {m : Measurement}
    (hdecode : Message.decodeRecord record.recordType record.payload = .ok (.measurement m))
    (hlong : Timeline.halfTurn ≤ m.duration.toNat) : pass.consume record = .ok pass.skip := by
  have hnot : ¬ m.duration.toNat < Timeline.halfTurn := Nat.not_lt.mpr hlong
  simp only [consume, hdecode, accept, Window.checkMeasurement, if_neg hnot]

/-! ## A whole batch -/

/-- The failure that a refused merge step amounts to. -/
def failureOf : Merge.Refusal → Failure
  | .ring cause => .reading cause
  | cause => .merging cause

/-- Consume at most `limit` records of an open batch.  The last component is the
failure that ended the pass, if one did. -/
def run (memory : Memory) : Nat → Pass → Merger → Pass × Merger × Option Failure
  | 0, pass, merger => (pass, merger, none)
  | limit + 1, pass, merger =>
    if merger.isEmpty then (pass, merger, none)
    else
      match merger.current memory with
      | .error cause => (pass, merger, some (failureOf cause))
      | .ok record =>
        match merger.pop memory with
        | .error cause => (pass, merger, some (.merging cause))
        | .ok merger =>
          match pass.consume record with
          | .error failure => (pass, merger, some failure)
          | .ok pass => run memory limit pass merger

end Pass

/-! ## Polling -/

/-- What a poll leaves behind and reports. -/
structure Outcome where
  intake : Intake
  readers : Array Reader
  memory : Memory
  emitted : List Emission
  result : Except Failure Summary

/-- Consume everything published to the rings so far and release their space. -/
def poll (intake : Intake) (readers : Array Reader) (memory : Memory) : Outcome :=
  match Merger.start { readers := readers } memory with
  | .error cause =>
    { intake := intake
      readers := readers
      memory := memory
      emitted := []
      result := .error (.merging cause) }
  | .ok merger =>
    let (pass, merger, failure) :=
      Pass.run memory merger.backlog { intake := intake } merger
    let (merger, memory) := merger.finish memory
    { intake := pass.intake
      readers := merger.readers
      memory := memory
      emitted := pass.emitted
      result :=
        match failure with
        | none => .ok pass.summary
        | some failure => .error failure }

theorem poll_noReaders (intake : Intake) (memory : Memory) :
    (intake.poll #[] memory).result = .error (.merging .noRings) ∧
      (intake.poll #[] memory).intake = intake ∧
      (intake.poll #[] memory).memory = memory := by
  simp [poll, Merger.start]

/-- Emit every slot still held, each with the present roster. -/
def drain (intake : Intake) : List Emission × Intake :=
  let (slots, window) := intake.window.reset
  (slots.map fun slot => { slot := slot, roster := intake.roster },
    { intake with window := window })

end Intake

end CacheMeter
