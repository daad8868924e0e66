import Mathlib
import CacheMeter.Agent.Checked
import CacheMeter.Proofs.Intake.Exhaustion
import CacheMeter.Proofs.Intake.Succession
import CacheMeter.Proofs.Window.Opening

/-!
# Sums of a poll

A poll counts what it reads in words, and what rings hold can make two of its sums outgrow
theirs: the samples reported lost, and the sums of a slot that the log is handed.  Then the
poll breaks off in the middle of its batch.  Whatever else it adds up is bounded by the space
that is unread and the breadth of the window.

Main results:

- Theorem `checkedSum?_eq`: adding words up one by one is adding them up and looking once.
- Theorem `Intake.Pass.breakOff?_cases`: a pass over records breaks off with the first of them
  that makes a sum outgrow its word, or with none.
- Theorem `Intake.Pass.Bounded.digestAll`: how many slots a pass emits.
- Theorem `Intake.sums`: what a poll reports, and when it breaks off.
-/

namespace CacheMeter

open Merge

/-! ## Sums in words -/

/-- Adding words up one by one is adding them up and looking once. -/
theorem foldl_checkedAdd? (first : UInt64) (words : List UInt64) :
    words.foldl (fun sum? word => sum?.bind fun sum => checkedAdd? sum word) (some first) =
      if first.toNat + (words.map UInt64.toNat).sum < UInt64.size then
        some (UInt64.ofNat (first.toNat + (words.map UInt64.toNat).sum))
      else none := by
  induction words generalizing first with
  | nil =>
    rw [List.map_nil, List.sum_nil, Nat.add_zero, if_pos first.toNat_lt, UInt64.ofNat_toNat]
    rfl
  | cons word rest ih =>
    rw [List.foldl_cons, Option.bind_some, checkedAdd?, List.map_cons, List.sum_cons,
      ← Nat.add_assoc]
    split_ifs with hword hall hall
    · rw [ih, UInt64.toNat_add, Nat.mod_eq_of_lt hword, if_pos hall]
    · rw [ih, UInt64.toNat_add, Nat.mod_eq_of_lt hword, if_neg hall]
    · omega
    · -- A sum that was given up stays given up.
      clear ih hall
      induction rest with
      | nil => rfl
      | cons next rest ih => exact ih

/-- A sum made word by word is given up exactly if it does not fit a word. -/
theorem checkedSum?_eq (words : List UInt64) :
    checkedSum? words =
      if (words.map UInt64.toNat).sum < UInt64.size then
        some (UInt64.ofNat (words.map UInt64.toNat).sum)
      else none := by
  rw [checkedSum?, foldl_checkedAdd?, UInt64.toNat_zero, Nat.zero_add]

/-- What the log shows for a counter is the sum over the entities. -/
theorem LogLine.total_eq (slot : Slot) (counter : Counters → UInt64) :
    total slot counter = ((slot.totals.values.map counter).map UInt64.toNat).sum := by
  rw [total, List.map_map, List.sum, List.foldr_map]
  rfl

/-- What the log adds up for a slot fits words. -/
def LogLine.Bounded (slot : Slot) : Prop :=
  total slot Counters.cycles < 2 ^ 64 ∧ total slot Counters.cacheMisses < 2 ^ 64

/-- The log gets through with a slot exactly if its sums fit words. -/
theorem LogLine.fits_iff {slot : Slot} : LogLine.fits slot = true ↔ LogLine.Bounded slot := by
  rw [fits, checkedSum?_eq, checkedSum?_eq, ← total_eq, ← total_eq, Bool.and_eq_true]
  refine and_congr ?_ ?_ <;>
    split_ifs with hfits <;> simpa using hfits

/-- What a report shows for all messages is the sum over their kinds. -/
theorem Tally.Snapshot.total_eq (snapshot : Snapshot) :
    snapshot.total = ((snapshot.messages.map Prod.snd).map UInt64.toNat).sum := by
  rw [total, List.map_map, List.sum, List.foldr_map]
  rfl

/-- In a snapshot of the counts these are the messages of the four kinds. -/
theorem Tally.total_snapshot (tally : Tally) :
    tally.snapshot.1.total =
      tally.measurements.toNat + tally.rmidAllocs.toNat + tally.rmidFrees.toNat +
        tally.lostNotices.toNat := by
  have hskip (entries : List (Message.Kind × UInt64)) :
      (entries.filter fun entry => entry.2 ≠ 0).foldr
          (fun entry total => entry.2.toNat + total) 0 =
        entries.foldr (fun entry total => entry.2.toNat + total) 0 := by
    induction entries with
    | nil => rfl
    | cons entry rest ih => by_cases hzero : entry.2 = 0 <;> simpa [hzero] using ih
  rw [Snapshot.total, snapshot, hskip]
  simp only [Message.Kind.all, List.map_cons, List.map_nil, List.foldr_cons, List.foldr_nil, count]
  omega

/-- To count a message adds at most one, as a counter that wraps only loses. -/
theorem Tally.total_record_le (tally : Tally) (kind : Message.Kind) :
    (tally.record kind).snapshot.1.total ≤ tally.snapshot.1.total + 1 := by
  rw [total_snapshot, total_snapshot]
  have hone : (1 : UInt64).toNat = 1 := rfl
  cases kind <;> simp only [record, recordMany, UInt64.toNat_add, hone] <;> omega

/-- A report gets through exactly if that fits a word. -/
theorem Tally.Snapshot.fits_iff {snapshot : Snapshot} :
    snapshot.fits = true ↔ snapshot.total < 2 ^ 64 := by
  rw [fits, checkedSum?_eq, ← total_eq]
  split_ifs with hfits <;> simpa using hfits

/-! ## Handlers -/

namespace Handler

variable {handlers : List Handler} {emissions : List Emission}

/-- Handlers get through with slots exactly if the log, if it is among them, does with each. -/
theorem allFit_iff : allFit handlers emissions = true ↔
    (.log ∈ handlers → ∀ emission ∈ emissions, LogLine.Bounded emission.slot) := by
  simp only [allFit, calls, List.all_eq_true, List.mem_flatMap, List.mem_map,
    forall_exists_index, and_imp]
  constructor
  · intro hall hlog emission hemission
    exact LogLine.fits_iff.mp (hall _ emission hemission .log hlog rfl)
  · rintro hall _ emission hemission handler hhandler rfl
    cases handler with
    | named name => rfl
    | log => exact LogLine.fits_iff.mpr (hall hhandler emission hemission)

/-- They get through with all slots if they do with the first and with the rest. -/
theorem allFit_append {more : List Emission} : allFit handlers (emissions ++ more) = true ↔
    allFit handlers emissions = true ∧ allFit handlers more = true := by
  rw [allFit, calls, List.flatMap_append, List.all_append, Bool.and_eq_true]
  rfl

end Handler

/-- What happens when slots are handed to handlers is what happens call by call. -/
theorem dispatch_eq (handlers : List Handler) (emissions : List Emission) :
    dispatch handlers emissions =
      (Handler.calls handlers emissions).flatMap fun call => call.1.events call.2 := by
  simp only [dispatch, Handler.calls, List.flatMap_assoc, List.flatMap_map]

/-- Handlers are told the beginning of what they would have been told. -/
theorem dispatchChecked_begins (handlers : List Handler) (first more : List Emission) :
    dispatchChecked handlers first <+: dispatch handlers (first ++ more) := by
  have hcalls : (Handler.calls handlers first).takeWhile
      (fun call => call.1.fits call.2) <+: Handler.calls handlers (first ++ more) := by
    rw [Handler.calls, Handler.calls, List.flatMap_append]
    exact (List.takeWhile_prefix _).trans (List.prefix_append _ _)
  obtain ⟨rest, hrest⟩ := hcalls
  rw [dispatch_eq, ← hrest, List.flatMap_append]
  exact List.prefix_append _ _

/-! ## Where a pass breaks off -/

namespace Intake

/-- A report fits if each of its counts does. -/
theorem Summary.fits_iff {summary : Summary} : summary.fits = true ↔
    summary.records < UInt64.size ∧ summary.measurements < UInt64.size ∧
      summary.lostSamples < UInt64.size ∧ summary.decodeErrors < UInt64.size ∧
      summary.slotsEmitted < UInt64.size := by
  simp only [fits, Bool.and_eq_true, decide_eq_true_eq, and_assoc]

/-- Counts that fit in the end fitted before. -/
theorem Summary.fits_of_add {first second : Summary} (h : (first.add second).fits = true) :
    first.fits = true := by
  rw [fits_iff] at h ⊢
  simp only [add] at h
  omega

namespace Pass

variable {handlers : List Handler} {memory : Memory} {pass : Pass}

/-- A sum that fits in the end fitted all along. -/
theorem fits_of_andThen {first second : Pass} (h : (first.andThen second).fits handlers = true) :
    first.fits handlers = true := by
  rw [fits, Bool.and_eq_true] at h ⊢
  exact ⟨Summary.fits_of_add h.1, (Handler.allFit_append.mp h.2).1⟩

/-- A pass over records breaks off with one of them: all sums fit before it, and not after. -/
structure BreaksAt (handlers : List Handler) (pass : Pass) (records : List (UInt32 × Bytes))
    (broken : Pass) : Prop where
  exists_record : ∃ front record back, records = front ++ record :: back ∧
    (pass.digestAll front).fits handlers = true ∧ broken = pass.digestAll (front ++ [record])
  not_fits : broken.fits handlers = false

/-- A pass may break off later. -/
theorem BreaksAt.cons {record : UInt32 × Bytes} {rest : List (UInt32 × Bytes)} {broken : Pass}
    (h : BreaksAt handlers (pass.digest record) rest broken) :
    BreaksAt handlers pass (record :: rest) broken where
  exists_record := by
    obtain ⟨front, last, back, rfl, hfits, rfl⟩ := h.exists_record
    exact ⟨record :: front, last, back, rfl, hfits, rfl⟩
  not_fits := h.not_fits

/-- Where a pass breaks off, the sums of the whole pass do not fit either. -/
theorem BreaksAt.digestAll_not_fits {records : List (UInt32 × Bytes)} {broken : Pass}
    (h : BreaksAt handlers pass records broken) :
    ¬ (pass.digestAll records).fits handlers = true := by
  obtain ⟨front, record, back, rfl, -, rfl⟩ := h.exists_record
  rw [List.append_cons, digestAll_append]
  intro hfits
  exact absurd h.not_fits (by rw [fits_of_andThen hfits]; decide)

/-- What was emitted where a pass breaks off is the beginning of what the whole pass emits. -/
theorem BreaksAt.exists_emitted {records : List (UInt32 × Bytes)} {broken : Pass}
    (h : BreaksAt handlers pass records broken) :
    ∃ more, (pass.digestAll records).emitted = broken.emitted ++ more := by
  obtain ⟨front, record, back, rfl, -, rfl⟩ := h.exists_record
  rw [List.append_cons, digestAll_append]
  exact ⟨_, rfl⟩

/-- A pass over records breaks off with the first of them that makes a sum outgrow its word, or
with none. -/
theorem breakOff?_cases {limit : Nat} {merger : Merger} (hfits : pass.fits handlers = true)
    (hdrains : (merger.drainUpTo memory limit).refusal = none) :
    (breakOff? handlers memory limit pass merger = none ∧
        (pass.digestAll ((merger.drainUpTo memory limit).records.map content)).fits handlers =
          true) ∨
      ∃ broken, breakOff? handlers memory limit pass merger = some broken ∧
        BreaksAt handlers pass ((merger.drainUpTo memory limit).records.map content) broken := by
  -- The loop and the reference drain step together, so that both are unrolled at once.
  induction limit generalizing pass merger with
  | zero => exact .inl ⟨rfl, hfits⟩
  | succ limit ih =>
    unfold breakOff?
    rw [Merger.drainUpTo] at hdrains ⊢
    cases hempty : merger.isEmpty with
    | true => exact .inl ⟨rfl, hfits⟩
    | false =>
      rw [hempty] at hdrains
      cases hcurrent : merger.current memory with
      | error refusal => simp [hcurrent] at hdrains
      | ok record =>
        cases hpop : merger.pop memory with
        | error refusal => simp [hcurrent, hpop] at hdrains
        | ok popped =>
          rw [hcurrent, hpop] at hdrains
          have hrest : (popped.drainUpTo memory limit).refusal = none := by simpa using hdrains
          simp only [Bool.false_eq_true, ↓reduceIte, pass.consume_eq_digest record]
          by_cases hnext : (pass.digest (content record)).fits handlers = true
          · rw [if_pos hnext]
            rcases ih hnext hrest with ⟨hnone, hall⟩ | ⟨broken, hbroken, hat⟩
            · exact .inl ⟨hnone, hall⟩
            · exact .inr ⟨broken, hbroken, hat.cons⟩
          · rw [if_neg hnext]
            refine .inr ⟨_, rfl, ⟨[], content record, _, rfl, hfits, rfl⟩, ?_⟩
            simpa using hnext

end Pass

end Intake

/-! ## How much a pass counts -/

namespace Window

/-- A move never makes more than `width` slots leave, and leaves no more behind, if no more were
held and a whole window has no more. -/
theorem length_advance_le {window : Window} {width : Nat} (hslots : window.slots.length ≤ width)
    (hcount : window.shape.slotCount.toNat ≤ width) (timestamp : UInt64) :
    (window.advance timestamp).1.length ≤ width ∧
      (window.advance timestamp).2.slots.length ≤ width := by
  rcases advance_cases window timestamp with
    ⟨-, hmove⟩ | ⟨newest, ahead, hlast, -, ⟨-, hmove⟩ | ⟨-, -, hmove⟩ | ⟨-, hless, hmove⟩⟩
  · rw [hmove]
    exact ⟨Nat.zero_le _, by rwa [length_freshSlots]⟩
  · rw [hmove]
    exact ⟨Nat.zero_le _, hslots⟩
  · rw [hmove]
    exact ⟨hslots, by rwa [length_freshSlots]⟩
  · have hne : window.slots ≠ [] := by
      intro hnil
      simp [hnil] at hlast
    have hleft := length_slide hne window.shape.slotLength (slideCount window.shape ahead)
    have hall := congrArg List.length (slide_append hlast window.shape.slotLength
      (slideCount window.shape ahead))
    rw [List.length_append, List.length_append, length_freshRun] at hall
    rw [hmove]
    dsimp only
    omega

/-- A measurement makes no more slots leave than the window is wide. -/
theorem length_ingest_le {window : Window} {width : Nat} (hslots : window.slots.length ≤ width)
    (hcount : window.shape.slotCount.toNat ≤ width) {m : Measurement}
    (hshort : m.duration.toNat < Timeline.halfTurn) :
    (window.ingest m).1.length ≤ width ∧ (window.ingest m).2.slots.length ≤ width := by
  obtain ⟨hleft, hheld⟩ := length_advance_le hslots hcount m.endTime
  have hagain := length_advance_le hheld (by rwa [shape_advance]) m.endTime
  have hspans (slots : List Slot) : (distribute slots m).length = slots.length := by
    have hsame := congrArg List.length (spans_distribute slots m)
    rwa [spans, spans, List.length_map, List.length_map] at hsame
  unfold ingest
  dsimp only
  rw [update_of_lt hshort]
  exact ⟨hleft, (hspans _).trans_le hagain.2⟩

/-- The slots that a window holds, or those of a whole one if that is more. -/
def breadth (window : Window) : Nat :=
  max window.slots.length window.shape.slotCount.toNat

end Window

namespace Intake

/-- The window of a pass holds at most `width` slots, and a whole one has no more; for each
measurement no more were emitted. -/
structure Pass.Bounded (width : Nat) (pass : Pass) : Prop where
  slots_le : pass.intake.window.slots.length ≤ width
  count_le : pass.intake.window.shape.slotCount.toNat ≤ width
  emitted_le : pass.summary.slotsEmitted ≤ pass.summary.measurements * width

/-- One record keeps the bounds. -/
theorem Pass.Bounded.digest {width : Nat} {pass : Pass} (h : pass.Bounded width)
    (record : UInt32 × Bytes) : (pass.digest record).Bounded width := by
  rw [Pass.digest_eq]
  cases Message.decodeRecord record.1 record.2 with
  | error cause => exact ⟨h.slots_le, h.count_le, h.emitted_le⟩
  | ok message =>
    cases message with
    | measurement m =>
      dsimp only
      split_ifs with hshort
      · obtain ⟨hleft, hheld⟩ := Window.length_ingest_le h.slots_le h.count_le hshort
        have hemitted := h.emitted_le
        refine ⟨hheld, ?_, ?_⟩
        · exact (congrArg (fun shape => shape.slotCount.toNat)
            (Window.shape_ingest pass.intake.window m)).trans_le h.count_le
        · simp only [takeIn, count, Nat.add_mul, Nat.one_mul]
          omega
      · exact ⟨h.slots_le, h.count_le, h.emitted_le⟩
    | lost | rmidAlloc | rmidFree => exact ⟨h.slots_le, h.count_le, h.emitted_le⟩

/-- So do all records of a batch. -/
theorem Pass.Bounded.digestAll {width : Nat} {pass : Pass} (h : pass.Bounded width)
    (records : List (UInt32 × Bytes)) : (pass.digestAll records).Bounded width := by
  induction records generalizing pass with
  | nil => exact h
  | cons record rest ih => exact ih (h.digest record)

/-- The unread space of the rings of a poll, in units of eight bytes. -/
def space (readers : Array Reader) (memory : Memory) : Nat :=
  (Merger.started { readers := readers } memory).quota

/-- A batch has no more records than there is unread space. -/
theorem length_batchOf_le (readers : Array Reader) (memory : Memory) :
    (batchOf readers memory).length ≤ space readers memory := by
  obtain ⟨pops, hpops, hends⟩ := (Merger.keyed_start readers memory).exists_endsAfter rfl
  rw [batchOf, List.length_map, Merger.batch, hends.length_eq]
  exact (Nat.min_le_right _ _).trans hpops

/-- A record adds at most one to the messages counted. -/
theorem Pass.total_digest_le (pass : Pass) (record : UInt32 × Bytes) :
    (pass.digest record).intake.tally.snapshot.1.total ≤
      pass.intake.tally.snapshot.1.total + 1 := by
  rw [Pass.digest_eq]
  cases Message.decodeRecord record.1 record.2 with
  | error cause => exact Nat.le_succ _
  | ok message =>
    cases message with
    | measurement m =>
      dsimp only
      split_ifs
      · exact pass.intake.tally.total_record_le .measurement
      · exact Nat.le_succ _
    | lost => exact pass.intake.tally.total_record_le .lost
    | rmidAlloc => exact pass.intake.tally.total_record_le .rmidAlloc
    | rmidFree => exact pass.intake.tally.total_record_le .rmidFree

/-- So all records of a batch add at most their number. -/
theorem total_digested_le (intake : Intake) (records : List MergedRecord) :
    (intake.digested records).intake.tally.snapshot.1.total ≤
      intake.tally.snapshot.1.total + records.length := by
  suffices hfrom : ∀ (pass : Pass) (contents : List (UInt32 × Bytes)),
      (pass.digestAll contents).intake.tally.snapshot.1.total ≤
        pass.intake.tally.snapshot.1.total + contents.length by
    have hall := hfrom { intake := intake } (records.map content)
    rwa [List.length_map] at hall
  intro pass contents
  induction contents generalizing pass with
  | nil => exact le_rfl
  | cons record rest ih =>
    have hfirst := pass.total_digest_le record
    have hrest := ih (pass.digest record)
    rw [List.length_cons]
    exact hrest.trans (by omega)

/-! ## Polls -/

/-- What a poll counts, whatever it finds in the rings: the samples lost in truth, and of
everything else no more than there is `space` for in the rings and the window is wide. -/
structure Counts (space width : Nat) (records : List (UInt32 × Bytes)) (summary : Summary) :
    Prop where
  lostSamples_eq : summary.lostSamples = (records.map lostIn).sum
  records_le : summary.records ≤ space
  measurements_le : summary.measurements ≤ space
  decodeErrors_le : summary.decodeErrors ≤ space
  slotsEmitted_le : summary.slotsEmitted ≤ space * width

/-- With room for all else that is counted, just the samples lost can be too many for a word. -/
theorem Counts.fits_iff {space width : Nat} {records : List (UInt32 × Bytes)} {summary : Summary}
    (h : Counts space width records summary) (hroom : space * (width + 1) < 2 ^ 64) :
    summary.fits = true ↔ (records.map lostIn).sum < 2 ^ 64 := by
  obtain ⟨hlost, hrecords, hmeasurements, hdecodeErrors, hslots⟩ := h
  have hsize : UInt64.size = 2 ^ 64 := rfl
  rw [Nat.mul_succ] at hroom
  rw [Summary.fits_iff, hlost]
  omega

/-- What holds of the sums of a poll and of the log that it hands slots to. -/
structure Sums (intake : Intake) (handlers : List Handler) (readers : Array Reader)
    (memory : Memory) : Prop where
  /-- A poll of at least one ring reports how many samples were lost in truth. -/
  report : readers ≠ #[] → ∃ summary, (intake.poll readers memory).result = .ok summary ∧
    Counts (space readers memory) intake.window.breadth (batchOf readers memory) summary
  /-- It breaks off unless what it would report fits words, and all that the log adds up does. -/
  breakOff?_eq_none_iff : intake.breakOff? handlers readers memory = none ↔
    (∀ summary, (intake.poll readers memory).result = .ok summary → summary.fits = true) ∧
      (.log ∈ handlers → ∀ emission ∈ (intake.poll readers memory).emitted,
        LogLine.Bounded emission.slot)
  /-- If it does, then with the first record that makes a sum outgrow its word. -/
  breaksAt : ∀ broken, intake.breakOff? handlers readers memory = some broken →
    Pass.BreaksAt handlers { intake := intake } (batchOf readers memory) broken
  /-- With room for the other counts, only the samples lost and the log's sums matter. -/
  breakOff?_eq_none_iff_lost : space readers memory * (intake.window.breadth + 1) < 2 ^ 64 →
    (intake.breakOff? handlers readers memory = none ↔
      ((batchOf readers memory).map lostIn).sum < 2 ^ 64 ∧
        (.log ∈ handlers → ∀ emission ∈ (intake.poll readers memory).emitted,
          LogLine.Bounded emission.slot))

section Polls

variable (intake : Intake) (handlers : List Handler) (readers : Array Reader) (memory : Memory)

/-- What a poll hands on is what its pass over the batch emits. -/
theorem emitted_poll : (intake.poll readers memory).emitted =
    (intake.digested (Merger.batch readers memory).records).emitted := by
  by_cases hrings : readers = #[]
  · rw [hrings, records_batch_noReaders]
    exact (Feed.poll_of_isEmpty intake memory rfl).2.2.2
  · rw [intake.poll_eq_digested memory hrings]

/-- A poll is a pass over its batch, as far as it gets. -/
theorem breakOff?_cases :
    (intake.breakOff? handlers readers memory = none ∧
        (intake.digested (Merger.batch readers memory).records).fits handlers = true) ∨
      ∃ broken, intake.breakOff? handlers readers memory = some broken ∧
        Pass.BreaksAt handlers { intake := intake } (batchOf readers memory) broken := by
  have hfits : Pass.fits handlers { intake := intake } = true := by
    rw [Pass.fits, Bool.and_eq_true, Handler.allFit_iff]
    exact ⟨rfl, by simp⟩
  by_cases hrings : readers = #[]
  · rw [hrings, records_batch_noReaders]
    exact .inl ⟨rfl, hfits⟩
  · have hstart : Merger.start { readers := readers } memory =
        .ok (Merger.started { readers := readers } memory) :=
      Merger.start_eq_started hrings rfl
    rw [Intake.breakOff?, hstart]
    exact Pass.breakOff?_cases hfits (Merger.batch_drainsTo readers memory).refusal

/-- A poll that breaks off does so at a record. -/
theorem breaksAt_of_eq_some {broken : Pass}
    (h : intake.breakOff? handlers readers memory = some broken) :
    Pass.BreaksAt handlers { intake := intake } (batchOf readers memory) broken := by
  rcases intake.breakOff?_cases handlers readers memory with ⟨hnone, -⟩ | ⟨other, hother, hat⟩
  · exact absurd (h.symm.trans hnone) (Option.some_ne_none broken)
  · obtain rfl := Option.some.inj (h.symm.trans hother)
    exact hat

/-- What a poll counts is bounded by the space and the breadth of the window. -/
theorem counts : Counts (space readers memory) intake.window.breadth (batchOf readers memory)
    (intake.digested (Merger.batch readers memory).records).summary := by
  have hbatch := length_batchOf_le readers memory
  have hbooked := Pass.booked_digestAll { intake := intake } (batchOf readers memory)
  have hfresh : Pass.Bounded intake.window.breadth { intake := intake } :=
    ⟨le_max_left _ _, le_max_right _ _, Nat.zero_le _⟩
  have hemitted := (hfresh.digestAll (batchOf readers memory)).emitted_le
  have hmeasurements := hbooked.measurements_eq
  have hdecodeErrors := hbooked.decodeErrors_eq
  have hlostSamples := hbooked.lostSamples_eq
  have hrecords := hbooked.records_eq
  simp only [Nat.zero_add] at hmeasurements hdecodeErrors hlostSamples hrecords
  have hmeasured : due (batchOf readers memory) (.messages .measurement) ≤
      (batchOf readers memory).length := List.countP_le_length
  have hskipped : due (batchOf readers memory) .decodeErrors ≤
      (batchOf readers memory).length := List.countP_le_length
  rw [digested, ← batchOf]
  exact
    { lostSamples_eq := hlostSamples
      records_le := hrecords.trans_le hbatch
      measurements_le := hmeasurements.trans_le (hmeasured.trans hbatch)
      decodeErrors_le := hdecodeErrors.trans_le (hskipped.trans hbatch)
      slotsEmitted_le := hemitted.trans
        (Nat.mul_le_mul_right _ (hmeasurements.trans_le (hmeasured.trans hbatch))) }

/-- The sums of a pass fit exactly if those of the report and of the log do. -/
theorem fits_digested_iff :
    (intake.digested (Merger.batch readers memory).records).fits handlers = true ↔
      (∀ summary, (intake.poll readers memory).result = .ok summary → summary.fits = true) ∧
        (.log ∈ handlers → ∀ emission ∈ (intake.poll readers memory).emitted,
          LogLine.Bounded emission.slot) := by
  rw [Pass.fits, Bool.and_eq_true, Handler.allFit_iff, ← emitted_poll]
  refine and_congr_left' ?_
  by_cases hrings : readers = #[]
  · rw [hrings, records_batch_noReaders, (intake.poll_noReaders memory).1]
    exact iff_of_true rfl fun _ => nofun
  · rw [intake.poll_eq_digested memory hrings]
    exact ⟨fun hfits summary hresult => Except.ok.inj hresult ▸ hfits, fun hall => hall _ rfl⟩

/-- All sums of a poll are true, and it breaks off exactly with the first that outgrows its word. -/
theorem sums : Sums intake handlers readers memory := by
  have hnone : intake.breakOff? handlers readers memory = none ↔
      (intake.digested (Merger.batch readers memory).records).fits handlers = true := by
    rcases intake.breakOff?_cases handlers readers memory with
      ⟨hnone, hall⟩ | ⟨broken, hbroken, hat⟩
    · exact iff_of_true hnone hall
    · exact iff_of_false (by rw [hbroken]; exact Option.some_ne_none broken)
        hat.digestAll_not_fits
  refine ⟨fun hrings => ⟨_, ?_, intake.counts readers memory⟩, ?_, ?_, fun hroom => ?_⟩
  · rw [intake.poll_eq_digested memory hrings]
  · rw [hnone, fits_digested_iff]
  · exact fun _ hbroken => intake.breaksAt_of_eq_some handlers readers memory hbroken
  · rw [hnone, Pass.fits, Bool.and_eq_true, (intake.counts readers memory).fits_iff hroom,
      Handler.allFit_iff, emitted_poll]

end Polls

end Intake

end CacheMeter
