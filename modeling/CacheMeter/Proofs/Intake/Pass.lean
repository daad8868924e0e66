import Mathlib
import CacheMeter.Intake
import CacheMeter.Proofs.Merge.Polling
import CacheMeter.Proofs.Window.Conservation

/-!
# What a poll comes to

Nothing a record holds makes a pass fail, so a poll consumes its whole batch and comes to a
fold over the records in the order in which the merger gives them.  Most records leave the
window alone.  One that holds a measurement moves it and is taken in, and the slots that
leave are emitted.

Main results:

- Definition `Intake.Pass.digest`: what one record does, written out.
- Theorem `Intake.Pass.consume_eq_digest`: that is what a pass does with it.
- Theorem `Intake.poll_eq_digested`: a poll is the fold of its batch.
- Definition `Intake.accepted?`: the measurement of a record, if it holds one that can be
  placed on the timeline.
- Theorem `Intake.Pass.digest_follows`: a record does to the window what its measurement
  does.
- Theorem `Intake.poll_follows`: so does a poll with the records of its batch.
-/

namespace CacheMeter.Intake

open Merge

/-- What a record says: all of it that a pass looks at. -/
def content (record : MergedRecord) : UInt32 × Bytes :=
  (record.recordType, record.payload)

/-! ## One record -/

/-- A measurement passes the check if it is shorter than half a turn. -/
theorem checkMeasurement_eq_ok_iff {m : Measurement} :
    Window.checkMeasurement m = .ok () ↔ m.duration.toNat < Timeline.halfTurn := by
  unfold Window.checkMeasurement
  split_ifs with h <;> simp [h]

namespace Pass

/-- Roster and window are brought up to the end of a measurement, the slots that leave are
emitted with the roster of that moment, and the measurement is taken in. -/
def takeIn (pass : Pass) (m : Measurement) : Pass :=
  let roster := (pass.intake.roster.advance m.endTime).2
  let (evicted, window) := pass.intake.window.ingest m
  { intake := { pass.intake with window := window, roster := roster }
    summary :=
      { pass.summary with
        measurements := pass.summary.measurements + 1
        slotsEmitted := pass.summary.slotsEmitted + evicted.length }
    emitted := pass.emitted ++ evicted.map fun slot => { slot := slot, roster := roster } }

/-- What one record does, written out.  A record that holds no message, or a measurement that
cannot be placed on the timeline, is skipped and counted as such.  A message is counted by its
kind.  Of a notice the samples lost are added up, and updates of the roster join its queue.  A
measurement brings roster and window up to its end, what leaves the window is emitted with the
roster of that moment, and the measurement is taken in. -/
def digest (pass : Pass) (record : UInt32 × Bytes) : Pass :=
  let intake := pass.intake
  let tally := intake.tally
  let roster := intake.roster
  let summary := { pass.summary with records := pass.summary.records + 1 }
  let skipped : Pass :=
    { intake := { intake with tally := { tally with decodeErrors := tally.decodeErrors + 1 } }
      summary := { summary with decodeErrors := summary.decodeErrors + 1 }
      emitted := pass.emitted }
  match Message.decodeRecord record.1 record.2 with
  | .error _ => skipped
  | .ok (.lost notice) =>
    { intake :=
        { intake with
          tally :=
            { tally with
              lostNotices := tally.lostNotices + 1
              lostSamples := tally.lostSamples + notice.lost } }
      summary := { summary with lostSamples := summary.lostSamples + notice.lost.toNat }
      emitted := pass.emitted }
  | .ok (.rmidAlloc update) =>
    let label : Roster.Label :=
      { command := update.command.text, processGroup := update.processGroup, valid := true }
    let item : Roster.Pending := ⟨update.timestamp, .bind update.rmid label⟩
    { intake :=
        { intake with
          roster := { roster with queue := Roster.enqueue item roster.queue }
          tally := { tally with rmidAllocs := tally.rmidAllocs + 1 } }
      summary := summary
      emitted := pass.emitted }
  | .ok (.rmidFree update) =>
    let item : Roster.Pending := ⟨update.timestamp, .release update.rmid⟩
    { intake :=
        { intake with
          roster := { roster with queue := Roster.enqueue item roster.queue }
          tally := { tally with rmidFrees := tally.rmidFrees + 1 } }
      summary := summary
      emitted := pass.emitted }
  | .ok (.measurement m) =>
    if m.duration.toNat < Timeline.halfTurn then
      let current := (roster.advance m.endTime).2
      let (evicted, window) := intake.window.ingest m
      { intake :=
          { window := window
            roster := current
            tally := { tally with measurements := tally.measurements + 1 } }
        summary :=
          { summary with
            measurements := summary.measurements + 1
            slotsEmitted := summary.slotsEmitted + evicted.length }
        emitted := pass.emitted ++ evicted.map fun slot => { slot := slot, roster := current } }
    else skipped

/-- The steps of a pass do just that. -/
theorem digest_eq (pass : Pass) (record : UInt32 × Bytes) :
    pass.digest record =
      match Message.decodeRecord record.1 record.2 with
      | .error _ => pass.skip
      | .ok (.measurement m) =>
        if m.duration.toNat < Timeline.halfTurn then (pass.count .measurement).takeIn m
        else pass.skip
      | .ok (.lost notice) => (pass.count .lost).lose notice
      | .ok (.rmidAlloc update) =>
        (pass.count .rmidAlloc).enroll fun roster => roster.alloc update
      | .ok (.rmidFree update) =>
        (pass.count .rmidFree).enroll fun roster => roster.free update := by
  unfold digest
  cases Message.decodeRecord record.1 record.2 with
  | error cause => rfl
  | ok message => cases message <;> rfl

/-- What records do, one after the other. -/
def digestAll (pass : Pass) (records : List (UInt32 × Bytes)) : Pass :=
  records.foldl digest pass

/-- A measurement that can be placed on the timeline is never refused later. -/
theorem measure_eq_takeIn (pass : Pass) {m : Measurement}
    (hshort : m.duration.toNat < Timeline.halfTurn) : pass.measure m = .ok (pass.takeIn m) := by
  unfold measure takeIn Window.ingest
  dsimp only
  rw [Window.update_of_lt hshort]

/-- A measurement is taken in if it is short enough, and skipped if not. -/
theorem accept_measurement (pass : Pass) (m : Measurement) :
    pass.accept (.measurement m) =
      .ok (if m.duration.toNat < Timeline.halfTurn then (pass.count .measurement).takeIn m
        else pass.skip) := by
  unfold accept
  dsimp only
  split_ifs with hshort
  · rw [checkMeasurement_eq_ok_iff.mpr hshort]
    exact measure_eq_takeIn _ hshort
  · rw [Window.checkMeasurement, if_neg hshort]

/-- No record makes a pass fail. -/
theorem consume_eq_digest (pass : Pass) (record : MergedRecord) :
    pass.consume record = .ok (pass.digest (content record)) := by
  rw [consume, digest_eq, content]
  cases Message.decodeRecord record.recordType record.payload with
  | error cause => rfl
  | ok message =>
    cases message with
    | measurement m => exact pass.accept_measurement m
    | lost | rmidAlloc | rmidFree => rfl

end Pass

/-! ## A batch -/

/-- A pass consumes what draining the merger gives. -/
theorem Pass.run_eq_digestAll (memory : Memory) (limit : Nat) (pass : Pass) (merger : Merger)
    (hdrains : (merger.drainUpTo memory limit).refusal = none) :
    Pass.run memory limit pass merger =
      (pass.digestAll ((merger.drainUpTo memory limit).records.map content),
        (merger.drainUpTo memory limit).merger, none) := by
  induction limit generalizing pass merger with
  | zero => rfl
  | succ limit ih =>
    unfold Pass.run
    rw [Merger.drainUpTo] at hdrains ⊢
    cases hempty : merger.isEmpty with
    | true => rfl
    | false =>
      rw [hempty] at hdrains
      cases hcurrent : merger.current memory with
      | error refusal => simp [hcurrent] at hdrains
      | ok record =>
        cases hpop : merger.pop memory with
        | error refusal => simp [hcurrent, hpop] at hdrains
        | ok popped =>
          rw [hcurrent, hpop] at hdrains
          have hrest := ih (pass.digest (content record)) popped (by simpa using hdrains)
          simp only [Bool.false_eq_true, ↓reduceIte, pass.consume_eq_digest record, hrest]
          rfl

/-- What records come to that are taken out in one pass. -/
def digested (intake : Intake) (records : List MergedRecord) : Pass :=
  Pass.digestAll { intake := intake } (records.map content)

/-- A poll of at least one ring succeeds, consumes its batch and releases it. -/
theorem poll_eq_digested (intake : Intake) {readers : Array Reader} (memory : Memory)
    (hrings : readers ≠ #[]) :
    intake.poll readers memory =
      { intake := (intake.digested (Merger.batch readers memory).records).intake
        readers := ((Merger.batch readers memory).merger.finish memory).1.readers
        memory := ((Merger.batch readers memory).merger.finish memory).2
        emitted := (intake.digested (Merger.batch readers memory).records).emitted
        result := .ok (intake.digested (Merger.batch readers memory).records).summary } := by
  have hstart : Merger.start { readers := readers } memory =
      .ok (Merger.started { readers := readers } memory) :=
    Merger.start_eq_started hrings rfl
  have hrun := Pass.run_eq_digestAll memory
    (Merger.started { readers := readers } memory).backlog { intake := intake } _
    (Merger.batch_drainsTo readers memory).refusal
  rw [poll, hstart]
  dsimp only
  rw [hrun]
  rfl

/-! ## Measurements and slots -/

/-- The measurement that a record holds, unless it is refused. -/
def accepted? (record : MergedRecord) : Option Measurement :=
  match Message.decodeRecord record.recordType record.payload with
  | .ok (.measurement m) =>
    match Window.checkMeasurement m with
    | .ok _ => some m
    | .error _ => none
  | _ => none

/-- Slots of emissions, without the roster they were labelled with. -/
def slotsOf (emitted : List Emission) : List Slot :=
  emitted.map Emission.slot

/-- Slots emitted first and then are emitted. -/
@[simp]
theorem slotsOf_append (first second : List Emission) :
    slotsOf (first ++ second) = slotsOf first ++ slotsOf second :=
  List.map_append

/-- Labelling slots for emission does not change them. -/
theorem slotsOf_map (slots : List Slot) (roster : Roster) :
    slotsOf (slots.map fun slot => { slot := slot, roster := roster }) = slots := by
  rw [slotsOf, List.map_map]
  exact List.map_id slots

namespace Pass

variable {before middle after : Pass} {first second : List Measurement}

/-- Between two states of a pass the window took in `measurements`, and exactly the slots
that left it meanwhile were emitted. -/
structure Follows (before after : Pass) (measurements : List Measurement) : Prop where
  window : after.intake.window = (before.intake.window.ingestAll measurements).2
  emitted : slotsOf after.emitted =
    slotsOf before.emitted ++ (before.intake.window.ingestAll measurements).1

/-- Nothing done follows from nothing. -/
theorem Follows.refl (pass : Pass) : Follows pass pass [] where
  window := rfl
  emitted := (List.append_nil _).symm

/-- What follows first and then follows. -/
theorem Follows.trans (h : Follows before middle first) (h' : Follows middle after second) :
    Follows before after (first ++ second) where
  window := by rw [h'.window, h.window, Window.ingestAll_append]
  emitted := by
    rw [h'.emitted, h.emitted, h.window, Window.ingestAll_append, List.append_assoc]

/-- Steps that touch neither window nor emissions take in nothing. -/
theorem follows_nil (hwindow : after.intake.window = before.intake.window)
    (hemitted : after.emitted = before.emitted) : Follows before after [] where
  window := hwindow
  emitted := by rw [hemitted]; exact (List.append_nil _).symm

/-- To take in a measurement is what the window does with it. -/
theorem takeIn_follows (pass : Pass) (m : Measurement) : Follows pass (pass.takeIn m) [m] where
  window := by simp only [takeIn, Window.ingestAll]
  emitted := by
    simp only [takeIn, Window.ingestAll, slotsOf_append, slotsOf_map, List.append_nil]

/-- A record does to the window what is accepted of it. -/
theorem digest_follows (pass : Pass) (record : MergedRecord) :
    Follows pass (pass.digest (content record)) (accepted? record).toList := by
  rw [digest_eq, content, accepted?]
  cases Message.decodeRecord record.recordType record.payload with
  | error cause => exact follows_nil rfl rfl
  | ok message =>
    cases message with
    | measurement m =>
      dsimp only
      split_ifs with hshort
      · have hcounted : Follows pass (pass.count .measurement) [] := follows_nil rfl rfl
        rw [checkMeasurement_eq_ok_iff.mpr hshort]
        exact hcounted.trans ((pass.count .measurement).takeIn_follows m)
      · rw [Window.checkMeasurement, if_neg hshort]
        exact follows_nil rfl rfl
    | lost | rmidAlloc | rmidFree => exact follows_nil rfl rfl

/-- So do all records of a batch. -/
theorem digestAll_follows (pass : Pass) (records : List MergedRecord) :
    Follows pass (pass.digestAll (records.map content)) (records.filterMap accepted?) := by
  induction records generalizing pass with
  | nil => exact .refl pass
  | cons record rest ih =>
    have hmeasurements : (record :: rest).filterMap accepted? =
        (accepted? record).toList ++ rest.filterMap accepted? := by
      cases haccepted : accepted? record <;> simp [haccepted]
    rw [hmeasurements]
    exact (pass.digest_follows record).trans (ih (pass.digest (content record)))

end Pass

/-- A poll takes in the measurements of its batch, in the order in which the merger gives
them. -/
theorem poll_follows (intake : Intake) {readers : Array Reader} (memory : Memory)
    (hrings : readers ≠ #[]) :
    ∃ pass, Pass.Follows { intake := intake } pass
        ((Merger.batch readers memory).records.filterMap accepted?) ∧
      intake.poll readers memory =
        { intake := pass.intake
          readers := ((Merger.batch readers memory).merger.finish memory).1.readers
          memory := ((Merger.batch readers memory).merger.finish memory).2
          emitted := pass.emitted
          result := .ok pass.summary } :=
  ⟨intake.digested (Merger.batch readers memory).records, Pass.digestAll_follows _ _,
    intake.poll_eq_digested memory hrings⟩

end CacheMeter.Intake
