import Mathlib
import CacheMeter.Proofs.Intake.Feed
import CacheMeter.Proofs.Merge.Release

/-!
# A poll always succeeds

Opening a batch, looking at its first record, taking it out and spreading a measurement can
all be refused.  None of it happens to a poll: it has a merger of its own, which agrees with
the rings from the first record to the last, and a measurement is checked before the window
sees it.  So whatever the rings hold, a poll of at least one ring consumes everything that was
published when it began, and releases it.

Main results:

- Theorem `Merger.addAll_eq`: registering the rings of a poll is not refused.
- Theorem `Intake.Pass.run_succeeds`: no record ends a pass early, and no bound on the number
  of records is needed.
- Theorem `Intake.poll_releases`: polls succeed and release their rings.
-/

namespace CacheMeter

open CacheMeter.Ring CacheMeter.Merge

namespace Merger

/-- A merger of the listed rings, registered one by one. -/
def addAll (readers : List Reader) : Except Merge.Refusal Merger :=
  readers.foldlM addRing {}

/-- Between batches no ring is refused. -/
theorem foldlM_addRing (readers : List Reader) (merger : Merger)
    (hclosed : merger.isOpen = false) :
    readers.foldlM addRing merger =
      .ok { merger with readers := merger.readers ++ readers.toArray } := by
  induction readers generalizing merger with
  | nil => simp [pure, Except.pure]
  | cons reader rest ih =>
    have hadd : merger.addRing reader =
        .ok { merger with readers := merger.readers.push reader } := by
      rw [addRing, hclosed, if_neg Bool.false_ne_true]
    rw [List.foldlM_cons, hadd]
    exact (ih { merger with readers := merger.readers.push reader } hclosed).trans (by simp)

theorem addAll_eq (readers : Array Reader) :
    addAll readers.toList = .ok { readers := readers } := by
  rw [addAll, foldlM_addRing _ _ rfl]
  simp

end Merger

namespace Intake

/-- A pass over an open batch ends because nothing is left, and not because a record fails or
the bound on their number is reached. -/
theorem Pass.run_succeeds (intake : Intake) {readers : Array Reader} (memory : Memory)
    (hrings : readers ≠ #[]) :
    ∃ merger, Merger.start { readers := readers } memory = .ok merger ∧
      ∀ limit, merger.backlog ≤ limit →
        (Pass.run memory limit { intake := intake } merger).2.1.isEmpty = true ∧
          (Pass.run memory limit { intake := intake } merger).2.2 = none := by
  refine ⟨_, Merger.start_eq_started hrings rfl, fun limit hlimit => ?_⟩
  have hdrains := (Merger.keyed_start readers memory).drainsTo rfl hlimit
  rw [Pass.run_eq_digestAll memory limit _ _ hdrains.refusal]
  exact ⟨hdrains.isEmpty, rfl⟩

/-- What a poll of at least one ring comes to. -/
structure Releases (intake : Intake) (readers : Array Reader) (memory : Memory) : Prop where
  /-- No ring is refused, … -/
  registers : Merger.addAll readers.toList = .ok { readers := readers }
  /-- … no record is, and none is left when the pass ends, … -/
  consumes : ∃ merger, Merger.start { readers := readers } memory = .ok merger ∧
    ∀ limit, merger.backlog ≤ limit →
      (Pass.run memory limit { intake := intake } merger).2.1.isEmpty = true ∧
        (Pass.run memory limit { intake := intake } merger).2.2 = none
  /-- … so the poll succeeds. -/
  succeeds : ∃ summary, (intake.poll readers memory).result = .ok summary
  /-- Every reader has read what was published at the start, … -/
  readers_eq : (intake.poll readers memory).readers =
    readers.map fun reader => reader.caughtUp memory
  /-- … its ring is told so, … -/
  tail_eq : ∀ reader ∈ readers,
    ((intake.poll readers memory).memory.region reader.region).tail =
      (memory.region reader.region).head
  /-- … and nothing else is written. -/
  size_eq : (intake.poll readers memory).memory.size = memory.size
  same : ∀ index, Region.SameButTail (memory.region index)
    ((intake.poll readers memory).memory.region index)

theorem releases_poll (intake : Intake) {readers : Array Reader} (memory : Memory)
    (hrings : readers ≠ #[]) : Releases intake readers memory := by
  have hpoll := poll_eq_digested intake memory hrings
  have hbatch := Merger.readers_batch readers memory
  obtain ⟨hsize, hsame, htail⟩ := Merger.released_finish readers memory _ hbatch
  exact
    { registers := Merger.addAll_eq readers
      consumes := Pass.run_succeeds intake memory hrings
      succeeds := by
        rw [hpoll]
        exact ⟨_, rfl⟩
      readers_eq := by
        rw [hpoll]
        exact hbatch
      tail_eq := by
        rw [hpoll]
        exact htail
      size_eq := by
        rw [hpoll]
        exact hsize
      same := by
        rw [hpoll]
        exact hsame }

/-- A poll of at least one ring succeeds and releases everything that was published when it
began, whatever the rings, their cursors and the intake hold; without a ring it is refused and
changes nothing. -/
theorem poll_releases (intake : Intake) (readers : Array Reader) (memory : Memory) :
    (readers ≠ #[] → Releases intake readers memory) ∧
      intake.poll #[] memory =
        { intake := intake
          readers := #[]
          memory := memory
          emitted := []
          result := .error (.merging .noRings) } :=
  ⟨fun hrings => releases_poll intake memory hrings, rfl⟩

/-- Two readers of the same region, one of them behind what is published there. -/
def astray : Array Reader :=
  #[{ region := 0, view := { dataStart := 1072, capacity := 32, readPos := 0, writePos := 0 } },
    { region := 0, view := { dataStart := 1072, capacity := 32, readPos := 24, writePos := 8 } }]

/-- Every header in a region of zeroes is corrupt. -/
theorem poll_releases_corrupt :
    astray ≠ #[] ∧
      Releases { window := { shape := Feed.decades } } astray
        #[(Region.zeroed 1104 0 4 8).publishHead 16] := by
  have hrings : astray ≠ #[] := by decide
  exact ⟨hrings, (poll_releases _ _ _).1 hrings⟩

end Intake

end CacheMeter
