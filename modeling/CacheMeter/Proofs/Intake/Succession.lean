import Mathlib
import CacheMeter.Proofs.Intake.Feed
import CacheMeter.Proofs.Window.Chronicle

/-!
# Slots handed on in succession

To the window a poll is a move to the end of each measurement accepted and an update with
it.  The updates evict nothing, so the slots that polls emit are all those that left the
window, and draining hands on the rest.

Main results:

- Definition `Intake.pollAll`: polls one after the other, each of any rings.
- Theorem `Window.Accounted.run_takings`: the chronicle of a window that takes in
  measurements.
- Theorem `Intake.slots_in_succession`: every slot is handed on once, oldest first.
-/

namespace CacheMeter

namespace Window

/-! ## Taking in as calls -/

/-- The calls by which measurements are taken in. -/
def takings (measurements : List Measurement) : List Call :=
  measurements.flatMap fun m => [.advance m.endTime, .update m]

variable {chronicle : Chronicle}

/-- Taking in a measurement drops no slot in the chronicle. -/
theorem Accounted.run_taking (h : Accounted chronicle) (m : Measurement) :
    chronicle.run [.advance m.endTime, .update m] =
      { chronicle.moved m.endTime with window := (chronicle.window.ingest m).2 } := by
  have hrun : chronicle.run [.advance m.endTime, .update m] =
      (chronicle.moved m.endTime).step (.update m) := rfl
  rw [hrun]
  rcases Nat.lt_or_ge m.duration.toNat Timeline.halfTurn with hshort | hlong
  · rw [h.update_moved hshort, h.contiguous.ingest_eq h.bounded hshort]
  · rw [Chronicle.step_update_of_ge _ hlong, ingest, update_of_ge hlong]
    rfl

/-- The chronicle of a window that takes in measurements has exactly the slots that
leave. -/
theorem Accounted.run_takings (h : Accounted chronicle) (measurements : List Measurement) :
    (chronicle.run (takings measurements)).window =
        (chronicle.window.ingestAll measurements).2 ∧
      (chronicle.run (takings measurements)).evicted =
        chronicle.evicted ++ (chronicle.window.ingestAll measurements).1 := by
  induction measurements generalizing chronicle with
  | nil => exact ⟨rfl, (List.append_nil _).symm⟩
  | cons m rest ih =>
    have hrun : chronicle.run (takings (m :: rest)) =
        (chronicle.run [.advance m.endTime, .update m]).run (takings rest) := rfl
    have hfirst := h.run_taking m
    rcases ih (h.run [.advance m.endTime, .update m]) with ⟨hwindow, hevicted⟩
    rw [hrun, hwindow, hevicted, hfirst]
    exact ⟨rfl, List.append_assoc _ _ _⟩

end Window

namespace Intake

/-! ## Polls -/

/-- The measurements that a poll takes in. -/
def takenIn (readers : Array Reader) (memory : Memory) : List Measurement :=
  (Merger.batch readers memory).records.filterMap accepted?

/-- Polls one after the other.  The first component lists what they emit. -/
def pollAll (intake : Intake) : List (Array Reader × Memory) → List Emission × Intake
  | [] => ([], intake)
  | (readers, memory) :: rest =>
    let outcome := intake.poll readers memory
    let (later, last) := outcome.intake.pollAll rest
    (outcome.emitted ++ later, last)

/-- The measurements that polls take in. -/
def takenInAll (polls : List (Array Reader × Memory)) : List Measurement :=
  polls.flatMap fun (readers, memory) => takenIn readers memory

theorem records_batch_noReaders (memory : Memory) : (Merger.batch #[] memory).records = [] := by
  have hbacklog : (Merger.started { readers := #[] } memory).backlog = 0 := by
    simp [Merger.started, Merger.backlog]
  rw [Merger.batch, hbacklog]
  rfl

theorem poll_takenIn (intake : Intake) (readers : Array Reader) (memory : Memory) :
    (intake.poll readers memory).intake.window =
        (intake.window.ingestAll (takenIn readers memory)).2 ∧
      slotsOf (intake.poll readers memory).emitted =
        (intake.window.ingestAll (takenIn readers memory)).1 := by
  by_cases hrings : readers = #[]
  · rcases Feed.poll_of_isEmpty intake memory hrings with ⟨hintake, -, -, hemitted⟩
    rw [hintake, hemitted, hrings, takenIn, records_batch_noReaders]
    exact ⟨rfl, rfl⟩
  · rcases intake.poll_follows memory hrings with ⟨pass, hfollows, hpoll⟩
    rw [hpoll]
    exact ⟨hfollows.window, hfollows.emitted⟩

/-- Polls do to the window what taking in their measurements does. -/
theorem pollAll_takenInAll (intake : Intake) (polls : List (Array Reader × Memory)) :
    (intake.pollAll polls).2.window = (intake.window.ingestAll (takenInAll polls)).2 ∧
      slotsOf (intake.pollAll polls).1 =
        (intake.window.ingestAll (takenInAll polls)).1 := by
  induction polls generalizing intake with
  | nil => exact ⟨rfl, rfl⟩
  | cons poll rest ih =>
    rcases poll with ⟨readers, memory⟩
    rcases intake.poll_takenIn readers memory with ⟨hwindow, hemitted⟩
    rcases ih (intake.poll readers memory).intake with ⟨hlast, hlater⟩
    have hsplit : takenInAll ((readers, memory) :: rest) =
        takenIn readers memory ++ takenInAll rest := rfl
    rw [hsplit, Window.ingestAll_append, ← hwindow, ← hemitted, ← hlast, ← hlater, pollAll,
      slotsOf_append]
    exact ⟨rfl, rfl⟩

/-! ## Everything handed on -/

/-- The slots that were emitted, and those that draining emits now, are those of a
chronicle. -/
structure InSuccession (chronicle : Window.Chronicle) (emitted : List Emission)
    (intake : Intake) : Prop where
  window_eq : intake.window = chronicle.window
  emitted_eq : slotsOf emitted = chronicle.evicted
  drained_eq : slotsOf (emitted ++ intake.drain.1) =
    chronicle.evicted ++ chronicle.window.slots
  /-- Every slot that ever was is handed on once and in its turn, … -/
  spans_eq : Window.spans (slotsOf (emitted ++ intake.drain.1)) =
    Window.spans chronicle.opened
  /-- … oldest first, … -/
  ascending : Window.Ascending (slotsOf (emitted ++ intake.drain.1))
  /-- … and none is left. -/
  nothing_left : intake.drain.2.window.slots = []

theorem inSuccession_of_accounted {chronicle : Window.Chronicle} {emitted : List Emission}
    {intake : Intake} (h : Window.Accounted chronicle)
    (hwindow : intake.window = chronicle.window)
    (hemitted : slotsOf emitted = chronicle.evicted) :
    InSuccession chronicle emitted intake := by
  have hdrain : slotsOf intake.drain.1 = chronicle.window.slots := by
    rw [← hwindow]
    exact slotsOf_map _ _
  have hall : slotsOf (emitted ++ intake.drain.1) = chronicle.slots := by
    rw [slotsOf_append, hemitted, hdrain]
    rfl
  refine ⟨hwindow, hemitted, hall, ?_, ?_, rfl⟩
  · rw [hall, h.spans_eq]
  · rw [hall]
    exact h.ascending

/-- No slot is lost, repeated or handed on out of turn: not by the calls that move, fill
and reset a window, and not by polls of any rings followed by a drain. -/
theorem slots_in_succession {shape : Window.Shape} (hcheck : shape.check = .ok ())
    (hspan : shape.slotCount.toNat * shape.slotLength.toNat ≤ 2 ^ 62) :
    (∀ calls, Window.Orderly
        (({ window := { shape := shape } } : Window.Chronicle).run calls) ∧
      (({ window := { shape := shape } } : Window.Chronicle).run calls).window =
        Window.after { shape := shape } calls) ∧
      ∀ roster tally polls,
        let start : Intake := { window := { shape := shape }, roster := roster, tally := tally }
        InSuccession
          (({ window := { shape := shape } } : Window.Chronicle).run
            (Window.takings (takenInAll polls)))
          (start.pollAll polls).1 (start.pollAll polls).2 := by
  have hidle := Window.accounted_idle (Window.Shape.bounded_of_check hcheck hspan)
  refine ⟨?_, ?_⟩
  · intro calls
    exact ⟨(hidle.run calls).orderly, Window.Chronicle.window_run _ calls⟩
  · intro roster tally polls start
    have haccounted := hidle.run (Window.takings (takenInAll polls))
    rcases hidle.run_takings (takenInAll polls) with ⟨hwindow, hevicted⟩
    rcases start.pollAll_takenInAll polls with ⟨hlast, hemitted⟩
    refine inSuccession_of_accounted haccounted (hlast.trans hwindow.symm) ?_
    rw [hemitted, hevicted]
    rfl

/-- The rings of a feed, as a poll finds them after some steps. -/
def found (actions : List Feed.Action) : Array Reader × Memory :=
  let feed := (Feed.idle Feed.decades).run actions
  (feed.net.merger.readers, feed.net.memory)

/-- The measurement before the first poll fills the window, the one before the second
slides it. -/
theorem slots_in_succession_crossing :
    Feed.decades.check = .ok () ∧
      Feed.decades.slotCount.toNat * Feed.decades.slotLength.toNat ≤ 2 ^ 62 ∧
      ∃ emitted intake,
        ({ window := { shape := Feed.decades } } : Intake).pollAll
          [found (Feed.crossing.take 3), found (Feed.crossing.take 7)] = (emitted, intake) ∧
        (slotsOf (emitted ++ intake.drain.1)).map Slot.startTime =
          [18446744073709551596, 18446744073709551606, 0, 10, 20] ∧
        Window.Ascending (slotsOf (emitted ++ intake.drain.1)) := by
  have hcheck : Feed.decades.check = .ok () := by decide
  have hspan : Feed.decades.slotCount.toNat * Feed.decades.slotLength.toNat ≤ 2 ^ 62 := by
    decide
  have hhanded := (slots_in_succession hcheck hspan).2 Roster.empty Tally.zero
    [found (Feed.crossing.take 3), found (Feed.crossing.take 7)]
  refine ⟨hcheck, hspan, _, _, rfl, ?_, hhanded.ascending⟩
  decide +kernel

end Intake

end CacheMeter
