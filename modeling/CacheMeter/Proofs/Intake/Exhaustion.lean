import Mathlib
import CacheMeter.Proofs.Intake.Books
import CacheMeter.Proofs.Merge.Release

/-!
# Reading comes to an end

How far a record reaches is read from memory that may hold anything: the announced size may be
zero, unaligned, or more than what is left, and the cursors need not be where a record begins.
All the same a pop moves the read cursor by at least a header, or by everything unread if that
is less, and never past the write cursor.  So a ring is read to its end within as many pops as
it has unread bytes in units of eight, and a batch within the sum of these over its rings,
whichever of them the heap has popped next.

Main results:

- Theorem `View.readsOn_popped`: what one pop does to the cursors.
- Theorem `View.exists_emptiesAfter`: how often one ring can be popped.
- Theorem `Merger.Keyed.exists_endsAfter`: how many records come out of a batch.
- Theorem `Intake.reading_ends`: both, and the pass over a batch.
-/

namespace CacheMeter

open CacheMeter.Ring CacheMeter.Merge

/-! ## One ring -/

namespace Ring.View

variable {view later : View}

/-- Unread bytes in units of eight, a part of a unit counted as one. -/
def quota (view : View) : Nat :=
  (view.used + 7) / 8

/-- The later view has read on from the earlier one, by at least a header or by everything
unread if that is less.  What was left to read has not been passed. -/
structure ReadsOn (view later : View) : Prop where
  /-- Only the read cursor moved. -/
  frame : later = { view with readPos := later.readPos }
  least_le : min headerSize view.used ≤ (later.readPos - view.readPos).toNat
  left_eq : (later.readPos - view.readPos).toNat + later.used = view.used

/-- A pop moves on by a header, or by all that is left. -/
theorem min_le_moved (view : View) (region : Region) :
    min headerSize view.used ≤ view.moved region :=
  min_le_min_right _ (le_max_right _ _)

/-- A pop reads on, whatever it reads. -/
theorem readsOn_popped (view : View) (region : Region) : ReadsOn view (view.popped region) := by
  have hmoved : ((view.popped region).readPos - view.readPos).toNat = view.moved region := by
    rw [popped, ← moved, UInt64.add_comm, UInt64.add_sub_cancel, toNat_ofNat_moved]
  have hleast := view.min_le_moved region
  have hmost := view.moved_le region
  refine ⟨rfl, ?_, ?_⟩
  · rwa [hmoved]
  · rw [hmoved, used_popped]
    omega

/-- To read on takes from the quota. -/
theorem ReadsOn.quota_lt (h : ReadsOn view later) (hfull : view.isEmpty = false) :
    later.quota < view.quota := by
  have hleast := h.least_le
  have hleft := h.left_eq
  have hused := used_pos_of_full hfull
  rw [headerSize] at hleast
  rw [quota, quota]
  omega

/-- The view after it is popped a number of times, unless a pop is refused. -/
def popTimes (region : Region) : Nat → View → Except Refusal View
  | 0, view => .ok view
  | count + 1, view => do popTimes region count (← view.pop region)

/-- The view can be popped just so many times, and then has caught up with the write cursor. -/
structure EmptiesAfter (view : View) (region : Region) (pops : Nat) : Prop where
  granted : view.popTimes region pops = .ok { view with readPos := view.writePos }
  refused : ∀ more, pops < more → view.popTimes region more = .error .empty

/-- A view that is not empty is popped once, and then the rest of the times. -/
theorem popTimes_succ (hfull : view.isEmpty = false) (region : Region) (count : Nat) :
    view.popTimes region (count + 1) = (view.popped region).popTimes region count := by
  rw [popTimes, pop_eq_popped hfull]
  rfl

theorem popTimes_of_isEmpty (hempty : view.isEmpty = true) (region : Region) (count : Nat) :
    view.popTimes region (count + 1) = .error .empty := by
  rw [popTimes, pop_isEmpty hempty]
  rfl

theorem emptiesAfter_zero (hempty : view.isEmpty = true) (region : Region) :
    view.EmptiesAfter region 0 where
  granted := by
    cases view with
    | mk dataStart capacity readPos writePos =>
      have hcursors : readPos = writePos := of_decide_eq_true hempty
      rw [popTimes, hcursors]
  refused more hmore := by
    obtain ⟨count, rfl⟩ := Nat.exists_eq_add_one.mpr hmore
    exact popTimes_of_isEmpty hempty region count

theorem EmptiesAfter.succ {region : Region} {pops : Nat} (hfull : view.isEmpty = false)
    (h : (view.popped region).EmptiesAfter region pops) : view.EmptiesAfter region (pops + 1) where
  granted := by
    rw [popTimes_succ hfull, h.granted]
    rfl
  refused more hmore := by
    obtain ⟨count, rfl⟩ := Nat.exists_eq_add_one.mpr (Nat.zero_lt_of_lt hmore)
    rw [popTimes_succ hfull, h.refused count (Nat.lt_of_succ_lt_succ hmore)]

/-- Whatever the region and the cursors hold, a ring is read to its end within its quota. -/
theorem exists_emptiesAfter (view : View) (region : Region) :
    ∃ pops ≤ view.quota, view.EmptiesAfter region pops := by
  induction hquota : view.quota using Nat.strong_induction_on generalizing view with
  | _ quota ih =>
    cases hempty : view.isEmpty with
    | true => exact ⟨0, Nat.zero_le _, emptiesAfter_zero hempty region⟩
    | false =>
      have hless := (view.readsOn_popped region).quota_lt hempty
      rw [hquota] at hless
      obtain ⟨pops, hpops, hempties⟩ := ih _ hless _ rfl
      exact ⟨pops + 1, by omega, hempties.succ hempty⟩

end Ring.View

/-! ## Many rings -/

namespace Merger

variable {merger : Merger} {memory : Memory} {ring pops : Nat}

/-- The quotas of all rings together. -/
def quota (merger : Merger) : Nat :=
  (merger.readers.toList.map fun reader => reader.view.quota).sum

/-- Whichever ring is popped, the sum of the quotas falls. -/
theorem quota_popped_lt (hfull : (merger.reader ring).view.isEmpty = false) (memory : Memory) :
    (merger.popped memory ring).quota < merger.quota := by
  have htotal := sum_map_popped (fun reader => reader.view.quota) hfull memory
  have hview : ((merger.reader ring).popped memory).view.quota <
      (merger.reader ring).view.quota := (View.readsOn_popped _ _).quota_lt hfull
  rw [quota, quota]
  omega

/-- Just so many records can be taken out of the batch.  None of them is refused, and heap and
rings agree whenever one stops. -/
structure EndsAfter (merger : Merger) (memory : Memory) (pops : Nat) : Prop where
  keyed : ∀ limit, Keyed (merger.drainUpTo memory limit).merger memory
  refusal : ∀ limit, (merger.drainUpTo memory limit).refusal = none
  length_eq : ∀ limit, (merger.drainUpTo memory limit).records.length = min limit pops
  isEmpty_iff : ∀ limit, (merger.drainUpTo memory limit).merger.isEmpty = true ↔ pops ≤ limit

/-- Once all records are taken out, every ring has been read up to its write cursor. -/
theorem EndsAfter.readers_eq (h : merger.EndsAfter memory pops) {limit : Nat}
    (hlimit : pops ≤ limit) : (merger.drainUpTo memory limit).merger.readers =
      merger.readers.map fun reader => reader.movedTo reader.view.writePos := by
  obtain ⟨hsize, hmoves⟩ := moves_drainUpTo memory limit merger
  have hempty := (h.isEmpty_iff limit).mpr hlimit
  exact readers_eq_of_moves hsize hmoves ((h.keyed limit).isEmpty_iff.mp hempty)

/-- A batch at its end ends after no pop. -/
theorem Keyed.endsAfter_zero (h : Keyed merger memory) (hempty : merger.isEmpty = true) :
    merger.EndsAfter memory 0 where
  keyed limit := by rwa [drainUpTo_of_isEmpty hempty]
  refusal limit := by rw [drainUpTo_of_isEmpty hempty]
  length_eq limit := by rw [drainUpTo_of_isEmpty hempty, Nat.min_zero, List.length_nil]
  isEmpty_iff limit := by simp [drainUpTo_of_isEmpty hempty, hempty]

/-- A record can be taken out, and behind it as many as before. -/
theorem Keyed.endsAfter_succ (h : Keyed merger memory) (hopen : merger.isOpen = true)
    {entry : Entry} (hpeek : merger.heap.peek? = some entry)
    (hrest : (merger.popped memory entry.ring).EndsAfter memory pops) :
    merger.EndsAfter memory (pops + 1) := by
  have hempty := isEmpty_eq_false_of_peek? hpeek
  have hdrained := h.drainUpTo_succ hopen hpeek
  -- Either nothing was taken out yet, or the record and what came out behind it.
  constructor <;> intro limit <;> cases limit with
  | zero => simp [drainUpTo, h, hempty]
  | succ limit =>
    simp [hdrained, hrest.keyed, hrest.refusal, hrest.length_eq, hrest.isEmpty_iff]

/-- From any open batch as many records come out as the sum of the quotas allows, or fewer. -/
theorem Keyed.exists_endsAfter (h : Keyed merger memory) (hopen : merger.isOpen = true) :
    ∃ pops ≤ merger.quota, merger.EndsAfter memory pops := by
  induction hquota : merger.quota using Nat.strong_induction_on generalizing merger with
  | _ quota ih =>
    cases hpeek : merger.heap.peek? with
    | none =>
      have hempty : merger.isEmpty = true :=
        IndexedHeap.Valid.isEmpty_iff_peek?.mpr hpeek
      exact ⟨0, Nat.zero_le _, h.endsAfter_zero hempty⟩
    | some entry =>
      have hfull := (h.of_peek? hpeek).1
      have hless := quota_popped_lt hfull memory
      rw [hquota] at hless
      obtain ⟨pops, hpops, hends⟩ := ih _ hless (h.popped (lt_size_of_full hfull)) hopen rfl
      exact ⟨pops + 1, by omega, h.endsAfter_succ hopen hpeek hends⟩

/-- No record that comes out of a batch is longer than the data region of its ring.  A header can
announce more, but that much cannot be copied. -/
def Copyable (merger : Merger) (memory : Memory) : Prop :=
  ∀ limit, ∀ record ∈ (merger.drainUpTo memory limit).records,
    record.payload.length ≤ (merger.reader record.ring).view.capacity

end Merger

/-! ## The pass over a batch -/

namespace Intake

/-- The loop over a batch goes round just so many times, if it is not stopped before, and then
every ring has been read up to its write cursor. -/
structure LoopsFor (memory : Memory) (merger : Merger) (pops : Nat) : Prop where
  ends : merger.EndsAfter memory pops
  readers_eq : ∀ limit, pops ≤ limit → (merger.drainUpTo memory limit).merger.readers =
    merger.readers.map fun reader => reader.movedTo reader.view.writePos
  /-- If all records can be copied, a pass counts one each time round and does not fail. -/
  pass_eq : merger.Copyable memory → ∀ (limit : Nat) (pass : Pass), ∃ later : Pass,
    Pass.run memory limit pass merger = (later, (merger.drainUpTo memory limit).merger, none) ∧
      later.summary.records = pass.summary.records + min limit pops

theorem loopsFor_of_endsAfter {merger : Merger} {memory : Memory} {pops : Nat}
    (h : merger.EndsAfter memory pops) : LoopsFor memory merger pops where
  ends := h
  readers_eq _ hlimit := h.readers_eq hlimit
  pass_eq _ limit pass := by
    refine ⟨_, Pass.run_eq_digestAll memory limit pass merger (h.refusal limit), ?_⟩
    rw [(pass.booked_digestAll _).records_eq, List.length_map, h.length_eq]

/-- Whatever regions and cursors hold, a pop of a view with unread bytes succeeds and reads on,
popping ends within the quota of the view, and the loop over a batch within the sum of the
quotas of its rings. -/
theorem reading_ends (view : View) (region : Region) (readers : Array Reader) (memory : Memory) :
    (view.isEmpty = false → ∃ later, view.pop region = .ok later ∧ view.ReadsOn later) ∧
      (∃ pops ≤ view.quota, view.EmptiesAfter region pops) ∧
      (readers ≠ #[] → ∃ merger, Merger.start { readers := readers } memory = .ok merger ∧
        merger.readers = (readers.map fun reader => reader.startRead memory) ∧
        ∃ pops ≤ merger.quota, LoopsFor memory merger pops) := by
  refine ⟨fun hfull => ?_, view.exists_emptiesAfter region, fun hrings => ?_⟩
  · exact ⟨view.popped region, View.pop_eq_popped hfull, view.readsOn_popped region⟩
  · obtain ⟨pops, hpops, hends⟩ := (Merger.keyed_start readers memory).exists_endsAfter rfl
    exact ⟨_, Merger.start_eq_started hrings rfl, rfl, pops, hpops, loopsFor_of_endsAfter hends⟩

/-- A region of zeroes announces records of no size at all, and a read cursor may be ahead of
what is published. -/
theorem reading_ends_corrupt :
    let memory : Memory := #[(Region.zeroed 1104 0 4 8).publishHead 16]
    let view : View := { dataStart := 1072, capacity := 32, readPos := 24, writePos := 8 }
    (view.isEmpty = false ∧
      ∃ later, view.pop (memory.region 0) = .ok later ∧ view.ReadsOn later) ∧
      astray ≠ #[] ∧
      ∃ merger, Merger.start { readers := astray } memory = .ok merger ∧
        merger.readers = (astray.map fun reader => reader.startRead memory) ∧
        ∃ pops ≤ merger.quota, LoopsFor memory merger pops := by
  intro memory view
  have hrings : astray ≠ #[] := by decide
  obtain ⟨hpop, -, hstart⟩ := reading_ends view (memory.region 0) astray memory
  exact ⟨⟨by decide, hpop (by decide)⟩, hrings, hstart hrings⟩

end Intake

end CacheMeter
