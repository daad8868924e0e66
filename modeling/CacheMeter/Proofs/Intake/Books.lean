import Mathlib
import CacheMeter.Proofs.Intake.Batching
import CacheMeter.Proofs.Intake.Release

/-!
# Two accounts of the same records

A poll reports what it did, and a tally that somebody else may read and start anew counts the
same records.  The two are kept apart, record by record.  They agree on every batch, and over
any run the snapshots taken so far together with what the tally still holds come to the sum of
the reports.

Main results:

- Definition `Intake.countedAs?`: the kind under which a record is counted, if it is.
- Theorem `Intake.Pass.booked_digest`: what one record adds to either account.
- Theorem `Intake.balanced_poll`: both accounts of a poll.
- Theorem `Books.kept_run`: both accounts after polls, drains and snapshots in any order.
-/

namespace CacheMeter

open Merge

/-! ## Counters -/

namespace Tally

/-- What a tally counts. -/
inductive Counter
  | messages (kind : Message.Kind)
  | lostSamples
  | decodeErrors
deriving DecidableEq

/-- What a tally holds on a counter. -/
def read (tally : Tally) : Counter → UInt64
  | .messages kind => tally.count kind
  | .lostSamples => tally.lostSamples
  | .decodeErrors => tally.decodeErrors

/-- What a snapshot says of a counter. -/
def Snapshot.read (snapshot : Snapshot) : Counter → UInt64
  | .messages kind => snapshot.count kind
  | .lostSamples => snapshot.lostSamples
  | .decodeErrors => snapshot.decodeErrors

/-- A snapshot shows every counter as it stands. -/
@[simp]
theorem read_snapshot (tally : Tally) (counter : Counter) :
    tally.snapshot.1.read counter = tally.read counter := by
  cases counter with
  | messages kind => exact tally.count_snapshot kind
  | lostSamples | decodeErrors => rfl

/-- A message adds one to the counter of its kind. -/
theorem read_record (tally : Tally) (kind : Message.Kind) (counter : Counter) :
    (tally.record kind).read counter =
      tally.read counter + if counter = .messages kind then 1 else 0 := by
  cases counter with
  | messages other =>
    rw [record, read, count_recordMany]
    by_cases hsame : kind = other
    · simp [read, hsame]
    · simp [read, hsame, Ne.symm hsame]
  | lostSamples | decodeErrors => cases kind <;> simp [record, recordMany, read]

/-- A lost notice adds what it reports. -/
theorem read_recordLost (tally : Tally) (lost : UInt64) (counter : Counter) :
    (tally.recordLost lost).read counter =
      tally.read counter + if counter = .lostSamples then lost else 0 := by
  rcases counter with kind | _ | _
  · cases kind <;> simp [recordLost, read, count]
  · simp [recordLost, read]
  · simp [recordLost, read]

/-- A record that is skipped adds one error. -/
theorem read_recordDecodeError (tally : Tally) (counter : Counter) :
    tally.recordDecodeError.read counter =
      tally.read counter + if counter = .decodeErrors then 1 else 0 := by
  rcases counter with kind | _ | _
  · cases kind <;> simp [recordDecodeError, read, count]
  · simp [recordDecodeError, read]
  · simp [recordDecodeError, read]

/-- Taking a snapshot starts every counter anew. -/
@[simp]
theorem read_snapshot_snd (tally : Tally) (counter : Counter) :
    tally.snapshot.2.read counter = 0 := by
  rcases counter with kind | _ | _
  · cases kind <;> rfl
  · rfl
  · rfl

end Tally

namespace Intake

/-- Reports add up one by one, from the front as well. -/
theorem Summary.total_concat (summaries : List Summary) (summary : Summary) :
    total (summaries ++ [summary]) = (total summaries).add summary := by
  simp [total, add]

/-! ## What a record is counted as -/

/-- The kind under which a record is counted.  There is none for a record that is skipped. -/
def countedAs? (record : UInt32 × Bytes) : Option Message.Kind :=
  match Message.decodeRecord record.1 record.2 with
  | .error _ => none
  | .ok (.measurement m) =>
    if m.duration.toNat < Timeline.halfTurn then some .measurement else none
  | .ok message => some message.kind

/-- How many samples a record reports lost. -/
def lostIn (record : UInt32 × Bytes) : Nat :=
  match Message.decodeRecord record.1 record.2 with
  | .ok (.lost notice) => notice.lost.toNat
  | _ => 0

/-- How many of the records are counted under a kind, or skipped. -/
def numberOf (kind? : Option Message.Kind) (records : List (UInt32 × Bytes)) : Nat :=
  records.countP fun record => countedAs? record = kind?

/-- What records add to a counter. -/
def due (records : List (UInt32 × Bytes)) : Tally.Counter → Nat
  | .messages kind => numberOf (some kind) records
  | .lostSamples => (records.map lostIn).sum
  | .decodeErrors => numberOf none records

/-- What two batches add to a counter they add one after the other. -/
theorem due_append (first second : List (UInt32 × Bytes)) (counter : Tally.Counter) :
    due (first ++ second) counter = due first counter + due second counter := by
  cases counter with
  | messages kind => exact List.countP_append
  | lostSamples => simp [due]
  | decodeErrors => exact List.countP_append

/-- A record is skipped or counted under one kind. -/
theorem length_eq_numberOf (records : List (UInt32 × Bytes)) :
    records.length = numberOf (some .measurement) records + numberOf none records +
      (numberOf (some .lost) records + numberOf (some .rmidAlloc) records +
        numberOf (some .rmidFree) records) := by
  induction records with
  | nil => rfl
  | cons record rest ih =>
    simp only [numberOf, List.length_cons, List.countP_cons] at ih ⊢
    rcases countedAs? record with _ | kind
    · simp
      omega
    · cases kind <;> simp <;> omega

/-- Counting a message that reports nothing lost adds to the tally what is due. -/
theorem read_record_eq_due (tally : Tally) {record : UInt32 × Bytes} {kind : Message.Kind}
    (hcounted : countedAs? record = some kind) (hlost : lostIn record = 0)
    (counter : Tally.Counter) :
    (tally.record kind).read counter = tally.read counter + .ofNat (due [record] counter) := by
  rw [Tally.read_record]
  rcases counter with other | _ | _
  · by_cases hsame : other = kind
    · simp [due, numberOf, hcounted, hsame]
    · simp [due, numberOf, hcounted, hsame, Ne.symm hsame]
  · simp [due, hlost]
  · simp [due, numberOf, hcounted]

/-- Counting a notice and the samples it reports lost adds to the tally what is due. -/
theorem read_recordLost_eq_due (tally : Tally) {record : UInt32 × Bytes} {lost : UInt64}
    (hcounted : countedAs? record = some .lost) (hlost : lostIn record = lost.toNat)
    (counter : Tally.Counter) :
    ((tally.record .lost).recordLost lost).read counter =
      tally.read counter + .ofNat (due [record] counter) := by
  rw [Tally.read_recordLost, Tally.read_record]
  rcases counter with other | _ | _
  · by_cases hsame : other = .lost
    · simp [due, numberOf, hcounted, hsame]
    · simp [due, numberOf, hcounted, hsame, Ne.symm hsame]
  · simp [due, hlost]
  · simp [due, numberOf, hcounted]

/-- Counting a decode error adds to the tally what is due for a record that is skipped. -/
theorem read_recordDecodeError_eq_due (tally : Tally) {record : UInt32 × Bytes}
    (hcounted : countedAs? record = none) (hlost : lostIn record = 0)
    (counter : Tally.Counter) :
    tally.recordDecodeError.read counter =
      tally.read counter + .ofNat (due [record] counter) := by
  rw [Tally.read_recordDecodeError]
  rcases counter with kind | _ | _ <;> simp [due, numberOf, hcounted, hlost]

/-! ## A batch -/

namespace Pass

variable {before middle after : Pass} {first second : List (UInt32 × Bytes)}

/-- Between two states of a pass, report and tally counted the same records. -/
structure Booked (before after : Pass) (records : List (UInt32 × Bytes)) : Prop where
  records_eq : after.summary.records = before.summary.records + records.length
  measurements_eq : after.summary.measurements =
    before.summary.measurements + due records (.messages .measurement)
  lostSamples_eq : after.summary.lostSamples =
    before.summary.lostSamples + due records .lostSamples
  decodeErrors_eq : after.summary.decodeErrors =
    before.summary.decodeErrors + due records .decodeErrors
  slotsEmitted_eq : after.summary.slotsEmitted + before.emitted.length =
    before.summary.slotsEmitted + after.emitted.length
  read_eq : ∀ counter, after.intake.tally.read counter =
    before.intake.tally.read counter + .ofNat (due records counter)

/-- Nothing done is nothing booked. -/
theorem Booked.refl (pass : Pass) : Booked pass pass [] where
  records_eq := rfl
  measurements_eq := rfl
  lostSamples_eq := rfl
  decodeErrors_eq := rfl
  slotsEmitted_eq := rfl
  read_eq counter := by cases counter <;> exact (UInt64.add_zero _).symm

/-- What is booked first and then is booked. -/
theorem Booked.trans (h : Booked before middle first) (h' : Booked middle after second) :
    Booked before after (first ++ second) where
  records_eq := by rw [h'.records_eq, h.records_eq, List.length_append, Nat.add_assoc]
  measurements_eq := by rw [h'.measurements_eq, h.measurements_eq, due_append, Nat.add_assoc]
  lostSamples_eq := by rw [h'.lostSamples_eq, h.lostSamples_eq, due_append, Nat.add_assoc]
  decodeErrors_eq := by rw [h'.decodeErrors_eq, h.decodeErrors_eq, due_append, Nat.add_assoc]
  slotsEmitted_eq := by
    have hfirst := h.slotsEmitted_eq
    have hsecond := h'.slotsEmitted_eq
    omega
  read_eq counter := by
    rw [h'.read_eq, h.read_eq, due_append, UInt64.ofNat_add, UInt64.add_assoc]

/-- A record that is skipped is booked as an error. -/
theorem booked_skip (pass : Pass) {record : UInt32 × Bytes} (hcounted : countedAs? record = none)
    (hlost : lostIn record = 0) : Booked pass pass.skip [record] where
  records_eq := rfl
  measurements_eq := by simp [due, numberOf, skip, hcounted]
  lostSamples_eq := by simp [due, skip, hlost]
  decodeErrors_eq := by simp [due, numberOf, skip, hcounted]
  slotsEmitted_eq := rfl
  read_eq := read_recordDecodeError_eq_due _ hcounted hlost

/-- An update of the roster, of either kind. -/
theorem booked_enroll (pass : Pass) {record : UInt32 × Bytes} {kind : Message.Kind}
    (change : Roster → Roster) (hcounted : countedAs? record = some kind)
    (hkind : kind ≠ .measurement) (hlost : lostIn record = 0) :
    Booked pass ((pass.count kind).enroll change) [record] where
  records_eq := rfl
  measurements_eq := by simp [due, numberOf, count, enroll, hcounted, hkind]
  lostSamples_eq := by simp [due, count, enroll, hlost]
  decodeErrors_eq := by simp [due, numberOf, count, enroll, hcounted]
  slotsEmitted_eq := rfl
  read_eq := read_record_eq_due _ hcounted hlost

/-- A lost notice is booked with its samples. -/
theorem booked_lose (pass : Pass) {record : UInt32 × Bytes} {notice : LostNotice}
    (hcounted : countedAs? record = some .lost) (hlost : lostIn record = notice.lost.toNat) :
    Booked pass ((pass.count .lost).lose notice) [record] where
  records_eq := rfl
  measurements_eq := by simp [due, numberOf, count, lose, hcounted]
  lostSamples_eq := by simp [due, count, lose, hlost]
  decodeErrors_eq := by simp [due, numberOf, count, lose, hcounted]
  slotsEmitted_eq := rfl
  read_eq := read_recordLost_eq_due _ hcounted hlost

/-- A measurement is booked with the slots that leave. -/
theorem booked_takeIn (pass : Pass) {record : UInt32 × Bytes} (m : Measurement)
    (hcounted : countedAs? record = some .measurement) (hlost : lostIn record = 0) :
    Booked pass ((pass.count .measurement).takeIn m) [record] where
  records_eq := rfl
  measurements_eq := by simp [due, numberOf, count, takeIn, hcounted]
  lostSamples_eq := by simp [due, count, takeIn, hlost]
  decodeErrors_eq := by simp [due, numberOf, count, takeIn, hcounted]
  slotsEmitted_eq := by
    simp only [takeIn, count, List.length_append, List.length_map]
    omega
  read_eq := read_record_eq_due _ hcounted hlost

/-- What a record adds to the report is what it adds to the tally. -/
theorem booked_digest (pass : Pass) (record : UInt32 × Bytes) :
    Booked pass (pass.digest record) [record] := by
  rw [digest_eq]
  cases hdecode : Message.decodeRecord record.1 record.2 with
  | error cause =>
    exact pass.booked_skip (by simp [countedAs?, hdecode]) (by simp [lostIn, hdecode])
  | ok message =>
    cases message with
    | measurement m =>
      have hlost : lostIn record = 0 := by simp [lostIn, hdecode]
      dsimp only
      split_ifs with hshort
      · exact pass.booked_takeIn m (by simp [countedAs?, hdecode, hshort]) hlost
      · exact pass.booked_skip (by simp [countedAs?, hdecode, hshort]) hlost
    | lost notice =>
      exact pass.booked_lose (by simp [countedAs?, hdecode, Message.kind])
        (by simp [lostIn, hdecode])
    | rmidAlloc update | rmidFree update =>
      exact pass.booked_enroll _ (by simp [countedAs?, hdecode, Message.kind]) (by decide)
        (by simp [lostIn, hdecode])

/-- And so it is record by record. -/
theorem booked_digestAll (pass : Pass) (records : List (UInt32 × Bytes)) :
    Booked pass (pass.digestAll records) records := by
  induction records generalizing pass with
  | nil => exact .refl pass
  | cons record rest ih => exact (pass.booked_digest record).trans (ih (pass.digest record))

end Pass

/-! ## A poll -/

/-- The records that a poll of the rings takes out, in the order in which it does. -/
def batchOf (readers : Array Reader) (memory : Memory) : List (UInt32 × Bytes) :=
  (Merger.batch readers memory).records.map content

/-- Report and tally of a poll against the records it took out. -/
structure Balanced (records : List (UInt32 × Bytes)) (before : Tally) (outcome : Outcome)
    (summary : Summary) : Prop where
  length_eq : summary.records = records.length
  measurements_eq : summary.measurements = numberOf (some .measurement) records
  decodeErrors_eq : summary.decodeErrors = numberOf none records
  lostSamples_eq : summary.lostSamples = (records.map lostIn).sum
  records_eq : summary.records = summary.measurements + summary.decodeErrors +
    (numberOf (some .lost) records + numberOf (some .rmidAlloc) records +
      numberOf (some .rmidFree) records)
  slotsEmitted_eq : summary.slotsEmitted = outcome.emitted.length
  /-- The tally grows by the same amounts, counter by counter. -/
  read_eq : ∀ counter, outcome.intake.tally.read counter =
    before.read counter + .ofNat (due records counter)

/-- The report of a poll balances with the tally. -/
theorem balanced_poll (intake : Intake) {readers : Array Reader} (memory : Memory)
    {summary : Summary} (hpoll : (intake.poll readers memory).result = .ok summary) :
    Balanced (batchOf readers memory) intake.tally (intake.poll readers memory) summary := by
  have hrings : readers ≠ #[] := by
    rintro rfl
    rw [(poll_noReaders intake memory).1] at hpoll
    cases hpoll
  have hbooked := Pass.booked_digestAll { intake := intake } (batchOf readers memory)
  rw [poll_eq_digested intake memory hrings] at hpoll ⊢
  obtain rfl := Except.ok.inj hpoll
  have hmeasurements := hbooked.measurements_eq
  have hdecodeErrors := hbooked.decodeErrors_eq
  have hlostSamples := hbooked.lostSamples_eq
  have hslots := hbooked.slotsEmitted_eq
  have hsplit := length_eq_numberOf (batchOf readers memory)
  have hlength := hbooked.records_eq
  simp only [Nat.zero_add] at hmeasurements hdecodeErrors hlostSamples hlength
  exact
    { length_eq := hlength
      measurements_eq := hmeasurements
      decodeErrors_eq := hdecodeErrors
      lostSamples_eq := hlostSamples
      records_eq := by
        rw [digested, ← batchOf, hlength, hmeasurements, hdecodeErrors, hsplit]
        rfl
      slotsEmitted_eq := by
        rw [digested, ← batchOf]
        simpa using hslots
      read_eq := hbooked.read_eq }

/-- A record that is counted once, as a decode error, and is otherwise ignored. -/
structure Pass.Refused (before after : Pass) : Prop where
  summary_eq : after.summary =
    { before.summary with
      records := before.summary.records + 1
      decodeErrors := before.summary.decodeErrors + 1 }
  tally_eq : after.intake.tally =
    { before.intake.tally with decodeErrors := before.intake.tally.decodeErrors + 1 }
  window_eq : after.intake.window = before.intake.window
  roster_eq : after.intake.roster = before.intake.roster
  emitted_eq : after.emitted = before.emitted

/-- To skip a record is to refuse it. -/
theorem Pass.refused_skip (pass : Pass) : Refused pass pass.skip where
  summary_eq := rfl
  tally_eq := rfl
  window_eq := rfl
  roster_eq := rfl
  emitted_eq := rfl

end Intake

/-! ## Any run -/

/-- What is done with an intake and its tally. -/
inductive Books.Call
  | poll (readers : Array Reader) (memory : Memory)
  | drain
  | snapshot

/-- An intake with all that was reported of it: the reports of its polls that succeeded, the
records that they took out, and the snapshots of its tally. -/
structure Books where
  intake : Intake
  consumed : List (UInt32 × Bytes) := []
  summaries : List Intake.Summary := []
  snapshots : List Tally.Snapshot := []

namespace Books

/-- One call. -/
def step (books : Books) : Call → Books
  | .poll readers memory =>
    let outcome := books.intake.poll readers memory
    match outcome.result with
    | .error _ => { books with intake := outcome.intake }
    | .ok summary =>
      { books with
        intake := outcome.intake
        consumed := books.consumed ++ Intake.batchOf readers memory
        summaries := books.summaries ++ [summary] }
  | .drain => { books with intake := books.intake.drain.2 }
  | .snapshot =>
    { books with
      intake := { books.intake with tally := books.intake.tally.snapshot.2 }
      snapshots := books.snapshots ++ [books.intake.tally.snapshot.1] }

/-- Calls in any order. -/
def run (books : Books) (calls : List Call) : Books :=
  calls.foldl step books

/-- What the snapshots say of a counter, together with what it still holds. -/
def shown (books : Books) (counter : Tally.Counter) : Nat :=
  (books.snapshots.map fun snapshot => (snapshot.read counter).toNat).sum +
    (books.intake.tally.read counter).toNat

/-- All reports together. -/
def total (books : Books) : Intake.Summary :=
  Intake.Summary.total books.summaries

/-- Reports and snapshots account for the records consumed since the tally was `start`. -/
structure Kept (start : Tally) (books : Books) : Prop where
  shown_eq : ∀ counter, books.shown counter ≡
    (start.read counter).toNat + Intake.due books.consumed counter [MOD UInt64.size]
  records_eq : books.total.records = books.consumed.length
  measurements_eq : books.total.measurements =
    Intake.numberOf (some .measurement) books.consumed
  decodeErrors_eq : books.total.decodeErrors = Intake.numberOf none books.consumed
  lostSamples_eq : books.total.lostSamples = (books.consumed.map Intake.lostIn).sum

variable {start : Tally} {books : Books}

/-- Books are kept from the start. -/
theorem kept_new (intake : Intake) : Kept intake.tally { intake := intake } where
  shown_eq counter := by
    cases counter <;> simp [shown, Intake.due, Intake.numberOf, Nat.ModEq]
  records_eq := rfl
  measurements_eq := rfl
  decodeErrors_eq := rfl
  lostSamples_eq := rfl

/-- A word that grows by a number grows by it up to whole turns. -/
theorem toNat_add_ofNat_modEq (word : UInt64) (n : Nat) :
    (word + .ofNat n).toNat ≡ word.toNat + n [MOD UInt64.size] := by
  rw [UInt64.toNat_add, UInt64.toNat_ofNat', Nat.add_mod_mod]
  exact Nat.mod_modEq _ _

/-- A poll keeps them. -/
theorem Kept.poll (h : Kept start books) (readers : Array Reader) (memory : Memory) :
    Kept start (books.step (.poll readers memory)) := by
  rw [Books.step]
  by_cases hrings : readers = #[]
  · rw [hrings]
    exact h
  obtain ⟨summary, hresult⟩ := (Intake.releases_poll books.intake memory hrings).succeeds
  have hbalanced := Intake.balanced_poll books.intake memory hresult
  simp only [hresult]
  refine ⟨fun counter => ?_, ?_, ?_, ?_, ?_⟩
  · have hgrown : (books.intake.poll readers memory).intake.tally.read counter =
        books.intake.tally.read counter +
          .ofNat (Intake.due (Intake.batchOf readers memory) counter) :=
      hbalanced.read_eq counter
    have hshown := h.shown_eq counter
    rw [shown, hgrown, Intake.due_append, ← Nat.add_assoc]
    exact ((toNat_add_ofNat_modEq _ _).add_left _).trans
      (by simpa only [shown, Nat.add_assoc] using hshown.add_right _)
  all_goals rw [total, Intake.Summary.total_concat]
  · exact (congrArg₂ _ h.records_eq hbalanced.length_eq).trans List.length_append.symm
  · exact (congrArg₂ _ h.measurements_eq hbalanced.measurements_eq).trans
      List.countP_append.symm
  · exact (congrArg₂ _ h.decodeErrors_eq hbalanced.decodeErrors_eq).trans
      List.countP_append.symm
  · rw [List.map_append, List.sum_append]
    exact congrArg₂ _ h.lostSamples_eq hbalanced.lostSamples_eq

/-- Every call keeps them. -/
theorem Kept.step (h : Kept start books) (call : Call) : Kept start (books.step call) := by
  cases call with
  | poll readers memory => exact h.poll readers memory
  | drain =>
    exact ⟨h.shown_eq, h.records_eq, h.measurements_eq, h.decodeErrors_eq, h.lostSamples_eq⟩
  | snapshot =>
    refine ⟨fun counter => ?_, h.records_eq, h.measurements_eq, h.decodeErrors_eq,
      h.lostSamples_eq⟩
    -- What the counter held is now said by the snapshot.
    have hshown : (books.step .snapshot).shown counter = books.shown counter := by
      simp [Books.step, shown]
    rw [hshown]
    exact h.shown_eq counter

/-- They are kept all along. -/
theorem Kept.run (h : Kept start books) (calls : List Call) : Kept start (books.run calls) := by
  induction calls generalizing books with
  | nil => exact h
  | cons call rest ih => exact ih (h.step call)

/-- Reports, snapshots and what the tally still holds agree, up to whole turns of a word. -/
structure Settled (start : Tally) (books : Books) : Prop where
  measurements : books.shown (.messages .measurement) ≡
    (start.read (.messages .measurement)).toNat + books.total.measurements [MOD UInt64.size]
  decodeErrors : books.shown .decodeErrors ≡
    (start.read .decodeErrors).toNat + books.total.decodeErrors [MOD UInt64.size]
  lostSamples : books.shown .lostSamples ≡
    (start.read .lostSamples).toNat + books.total.lostSamples [MOD UInt64.size]
  /-- The other three kinds make up the rest of the records, … -/
  others : books.shown (.messages .lost) + books.shown (.messages .rmidAlloc) +
      books.shown (.messages .rmidFree) +
        (books.total.measurements + books.total.decodeErrors) ≡
    (start.read (.messages .lost)).toNat + (start.read (.messages .rmidAlloc)).toNat +
      (start.read (.messages .rmidFree)).toNat + books.total.records [MOD UInt64.size]
  /-- … each with as many as the polls took out. -/
  each : ∀ kind, books.shown (.messages kind) ≡
    (start.read (.messages kind)).toNat + Intake.numberOf (some kind) books.consumed
      [MOD UInt64.size]

/-- Books that were kept are settled in the end. -/
theorem Kept.settled (h : Kept start books) : Settled start books where
  measurements := by
    rw [h.measurements_eq]
    exact h.shown_eq (.messages .measurement)
  decodeErrors := by
    rw [h.decodeErrors_eq]
    exact h.shown_eq .decodeErrors
  lostSamples := by
    rw [h.lostSamples_eq]
    exact h.shown_eq .lostSamples
  others := by
    have hsum := ((h.shown_eq (.messages .lost)).add (h.shown_eq (.messages .rmidAlloc))).add
      (h.shown_eq (.messages .rmidFree))
    have hall := hsum.add_right (books.total.measurements + books.total.decodeErrors)
    refine hall.trans (congrArg (· % UInt64.size) ?_)
    rw [h.records_eq, h.measurements_eq, h.decodeErrors_eq, Intake.length_eq_numberOf]
    simp only [Intake.due]
    omega
  each kind := h.shown_eq (.messages kind)

/-- The books balance.  For every poll that succeeds, report and tally count the records that it
took out, kind by kind.  A measurement too long for the timeline is one decode error and nothing
else.  After polls, drains and snapshots in any order, of whatever rings, no count is lost and
none is shown twice. -/
theorem books_balance (intake : Intake) :
    (∀ readers memory summary, (intake.poll readers memory).result = .ok summary →
      Intake.Balanced (Intake.batchOf readers memory) intake.tally
        (intake.poll readers memory) summary) ∧
      (∀ (pass : Intake.Pass) (record : MergedRecord) (m : Measurement),
        Message.decodeRecord record.recordType record.payload = .ok (.measurement m) →
        Timeline.halfTurn ≤ m.duration.toNat →
        ∃ after, pass.consume record = .ok after ∧ Intake.Pass.Refused pass after) ∧
      ∀ calls, Settled intake.tally (({ intake := intake } : Books).run calls) :=
  ⟨fun _ memory _ hpoll => Intake.balanced_poll intake memory hpoll,
    fun pass _ _ hdecode hlong =>
      ⟨pass.skip, Intake.Pass.consume_tooLong hdecode hlong, pass.refused_skip⟩,
    fun calls => ((kept_new intake).run calls).settled⟩

/-- A measurement that reaches back over more than half of the circle. -/
def overlong : Measurement where
  entity := 3
  cycles := 1
  instructions := 1
  cacheMisses := 1
  endTime := 5
  duration := 9223372036854775808

/-- The overlong measurement, a notice of lost samples and an identifier that is released. -/
def assorted : Feed :=
  (Feed.idle Feed.decades).run
    [.attach Feed.narrow,
      .produce 0 (.write (Message.encodeMeasurement overlong) sampleRecordType),
      .produce 0 (.write (Message.encodeLostNotice { id := 0, lost := 40 }) lostRecordType),
      .produce 0 (.write (Message.encodeRmidFree { timestamp := 7, rmid := 1 }) sampleRecordType),
      .produce 0 .finishWrite]

/-- A measurement, a loss and a record that nobody can read are booked. -/
theorem books_balance_assorted :
    (assorted.intake.poll assorted.net.merger.readers assorted.net.memory).result =
        .ok { records := 3, lostSamples := 40, decodeErrors := 1 } ∧
      Intake.Balanced (Intake.batchOf assorted.net.merger.readers assorted.net.memory)
        assorted.intake.tally
        (assorted.intake.poll assorted.net.merger.readers assorted.net.memory)
        { records := 3, lostSamples := 40, decodeErrors := 1 } ∧
      (∃ after,
        Intake.Pass.consume { intake := assorted.intake }
            { time := 5
              ring := 0
              recordType := sampleRecordType
              payload := Bytes.ofWord32 48 ++ Message.encodeMeasurement overlong } = .ok after ∧
          Intake.Pass.Refused { intake := assorted.intake } after) ∧
      Settled assorted.intake.tally
        (({ intake := assorted.intake } : Books).run
          [.poll assorted.net.merger.readers assorted.net.memory, .snapshot, .drain,
            .poll assorted.net.merger.readers assorted.net.memory]) := by
  have hpoll :
      (assorted.intake.poll assorted.net.merger.readers assorted.net.memory).result =
        .ok { records := 3, lostSamples := 40, decodeErrors := 1 } := by
    decide +kernel
  exact ⟨hpoll, (books_balance assorted.intake).1 _ _ _ hpoll,
    (books_balance assorted.intake).2.1 _ _ overlong (by decide +kernel) (by decide),
    (books_balance assorted.intake).2.2 _⟩

end Books

end CacheMeter
