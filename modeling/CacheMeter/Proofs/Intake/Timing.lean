import Mathlib
import CacheMeter.Proofs.Intake.Feed
import CacheMeter.Proofs.Message.Padding

/-!
# One time for a record

The time of a record is read twice.  The merger reads its key out of the ring, at a fixed
offset and wherever the data region wraps, before anything is decoded.  The decoder reads a
timestamp out of the payload that was copied out, behind the size word.  Both read the same, so
records whose keys the merger puts in order are measurements in order of their ends.

Main results:

- Theorem `Message.keyTime_of_decodeRecord`: the key of a record that holds a message.
- Theorem `View.keyAgrees`: what the key in a ring has to do with what is decoded.
- Theorem `Intake.pairwise_accepted`: measurements are in order if the samples of every ring
  are.
- Theorem `Intake.key_agrees`: both, and what a poll hands to the window.
-/

namespace CacheMeter

open CacheMeter.Ring CacheMeter.Merge

/-! ## Messages -/

namespace Message

variable {recordType : UInt32} {payload : Bytes} {message : Message}

/-- The timestamp of a sample is its first word, whatever its type. -/
theorem timestamp?_readBody (sample : SampleType) (data : Bytes) :
    (readBody sample data).timestamp? = some (data.word64At 0) := by
  cases sample <;> rfl

theorem word64At_drop (data : Bytes) (count : Nat) :
    Bytes.word64At (data.drop count) 0 = data.word64At count := by
  rw [Bytes.word64At, Bytes.word64At, Bytes.field, Bytes.field, List.drop_zero]

/-- A message is a sample, with its timestamp behind the size word, or a notice without one. -/
theorem timestamp?_of_decodeRecord (h : decodeRecord recordType payload = .ok message) :
    (recordType = sampleRecordType ∧ sampleSizeWord + 8 ≤ payload.length ∧
        message.timestamp? = some (payload.word64At sampleSizeWord)) ∨
      (recordType = lostRecordType ∧ message.timestamp? = none) := by
  by_cases hsample : recordType = sampleRecordType
  · subst hsample
    obtain ⟨htype, hsizeWord, hencode⟩ := decodeRecord_sample_eq_ok_iff.mp h
    obtain ⟨sample, -, hwhole, rfl⟩ := encode_prefix_iff.mp ⟨htype, hencode⟩
    have hheader := sample.headerSize_le
    rw [List.length_drop] at hwhole
    rw [headerSize] at hheader
    refine .inl ⟨rfl, by omega, ?_⟩
    rw [timestamp?_readBody, word64At_drop]
  · by_cases hlost : recordType = lostRecordType
    · subst hlost
      rw [decodeRecord_lost] at h
      obtain ⟨htype, -⟩ := decodeLost_eq_ok_iff.mp h
      cases message with
      | lost notice => exact .inr ⟨rfl, rfl⟩
      | measurement | rmidAlloc | rmidFree =>
        simp [Message.recordType, lostRecordType, sampleRecordType] at htype
    · rw [decodeRecord_other hsample hlost] at h
      exact absurd h (by simp)

/-- A record that holds a message is keyed by its timestamp, or zero if it has none. -/
theorem keyTime_of_decodeRecord (h : decodeRecord recordType payload = .ok message) :
    keyTime recordType payload = message.timestamp?.getD 0 := by
  rcases timestamp?_of_decodeRecord h with ⟨rfl, hlong, htime⟩ | ⟨rfl, htime⟩
  · rw [keyTime, if_pos ⟨rfl, hlong⟩, htime, Option.getD_some]
  · rw [keyTime_of_ne (by decide), htime, Option.getD_none]

end Message

/-! ## Keys in a ring -/

namespace Ring.View

/-- What the key at the read cursor has to do with the payload there and what it is decoded
to. -/
structure KeyAgrees (view : View) (region : Region) (payload : Bytes) : Prop where
  timestamp : ∀ message time,
    Message.decodeRecord (view.recordType region) payload = .ok message →
      message.timestamp? = some time → view.headTime? region = some time
  lost : ∀ notice,
    Message.decodeRecord (view.recordType region) payload = .ok (.lost notice) →
      view.headTime? region = some 0
  other : view.recordType region ≠ sampleRecordType → view.headTime? region = some 0
  short : payload.length < 12 → view.headTime? region = some 0

/-- Whatever lies at the read cursor, its payload can be copied out, and key and decoder agree
on it. -/
theorem keyAgrees {view : View} (hfull : view.isEmpty = false) (region : Region) :
    ∃ size payload, view.payloadSize region = .ok size ∧
      view.copyPayload region size 0 = .ok payload ∧ view.KeyAgrees region payload := by
  have hkey : view.headTime? region = _ := headTime?_of_full hfull
  refine ⟨view.announced region, view.payload region, payloadSize_of_full hfull,
    copyPayload_of_le hfull (Nat.zero_add _).le, ?_⟩
  exact
    { timestamp := fun message time hdecode htime => by
        rw [hkey, Message.keyTime_of_decodeRecord hdecode, htime, Option.getD_some]
      lost := fun notice hdecode => by
        rw [hkey, Message.keyTime_of_decodeRecord hdecode]
        rfl
      other := fun hother => by
        rw [hkey, keyTime_of_ne hother]
      short := fun hshort => by
        have hnone : ¬ sampleSizeWord + 8 ≤ (view.payload region).length :=
          Nat.not_le.mpr hshort
        rw [hkey, keyTime, if_neg fun h => hnone h.2] }

end Ring.View

/-! ## Measurements in order -/

namespace Intake

variable {records : List MergedRecord} {record : MergedRecord} {m : Measurement}

/-- A measurement that is accepted was decoded from its record. -/
theorem decodeRecord_of_accepted? (h : accepted? record = some m) :
    Message.decodeRecord record.recordType record.payload = .ok (.measurement m) := by
  unfold accepted? at h
  split at h
  next measurement hdecode =>
    split at h
    · rwa [Option.some.inj h] at hdecode
    · exact absurd h (Option.some_ne_none m).symm
  next => exact absurd h (Option.some_ne_none m).symm

/-- The record of a measurement is a sample that carries a time, and keyed by its end. -/
theorem endTime_of_accepted? (hkeyed : record.Keyed) (h : accepted? record = some m) :
    record.carriesTime = true ∧ record.time = m.endTime := by
  have hdecode := decodeRecord_of_accepted? h
  refine ⟨?_, ?_⟩
  · rcases Message.timestamp?_of_decodeRecord hdecode with ⟨htype, hlong, -⟩ | ⟨-, hnone⟩
    · rw [MergedRecord.carriesTime, decide_eq_true_iff]
      exact ⟨htype, hlong⟩
    · exact absurd hnone (Option.some_ne_none _)
  · rw [hkeyed, Message.keyTime_of_decodeRecord hdecode]
    rfl

/-- If the samples that carry a time are in order, so are the measurements among them. -/
theorem pairwise_accepted (hkeyed : ∀ record ∈ records, record.Keyed)
    (hsorted : (records.filter MergedRecord.carriesTime).Pairwise fun a b => a.time ≤ b.time) :
    (records.filterMap accepted?).Pairwise fun a b => a.endTime ≤ b.endTime := by
  rw [List.pairwise_filter] at hsorted
  rw [List.pairwise_filterMap]
  refine hsorted.imp_of_mem fun {a b} ha hb hle first hfirst second hsecond => ?_
  obtain ⟨hcarries, htime⟩ := endTime_of_accepted? (hkeyed a ha) hfirst
  obtain ⟨hcarries', htime'⟩ := endTime_of_accepted? (hkeyed b hb) hsecond
  rw [← htime, ← htime']
  exact hle hcarries hcarries'

/-! ## A poll -/

/-- In every ring the samples that carry a time are in order, as far as a poll reads them. -/
def Ordered (readers : Array Reader) (memory : Memory) : Prop :=
  ∀ ring, ((Merger.queues readers memory ring).filter MergedRecord.carriesTime).Pairwise
    fun a b => a.time ≤ b.time

/-- A poll takes its records in one after the other, and with each of them the window takes in
the measurement that it holds, in order of their ends. -/
structure HandsOn (intake : Intake) (readers : Array Reader) (memory : Memory)
    (records : List MergedRecord) : Prop where
  intake_eq : (intake.poll readers memory).intake = (intake.digested records).intake
  emitted_eq : (intake.poll readers memory).emitted = (intake.digested records).emitted
  follows : ∀ before, before <+: records →
    Pass.Follows { intake := intake } (intake.digested before) (before.filterMap accepted?)
  ordered : (records.filterMap accepted?).Pairwise fun a b => a.endTime ≤ b.endTime

/-- A poll does what its batch does, whether or not there are rings. -/
theorem poll_eq_batch (intake : Intake) (readers : Array Reader) (memory : Memory) :
    (intake.poll readers memory).intake =
        (intake.digested (Merger.batch readers memory).records).intake ∧
      (intake.poll readers memory).emitted =
        (intake.digested (Merger.batch readers memory).records).emitted := by
  by_cases hrings : readers = #[]
  · subst hrings
    have hnone : (Merger.batch #[] memory).records = [] := by
      simp [Merger.batch, Merger.started, Merger.backlog, Merger.drainUpTo]
    rw [hnone, (poll_noReaders intake memory).2.1]
    exact ⟨rfl, rfl⟩
  · rw [intake.poll_eq_digested memory hrings]
    exact ⟨rfl, rfl⟩

/-- The measurements of a batch are handed on in order of time. -/
theorem handsOn_batch (intake : Intake) {readers : Array Reader} {memory : Memory}
    (hordered : Ordered readers memory) :
    HandsOn intake readers memory (Merger.batch readers memory).records := by
  obtain ⟨hintake, hemitted⟩ := intake.poll_eq_batch readers memory
  have hmerges := (Merger.batch_drainsTo readers memory).merges
  rw [Merger.alone_started] at hmerges
  refine ⟨hintake, hemitted, fun before _ => Pass.digestAll_follows _ before, ?_⟩
  refine pairwise_accepted (fun record hmem => ?_)
    (hmerges.pairwise_carrying Merger.keyed_of_mem_queues hordered)
  obtain ⟨ring, hring⟩ := hmerges.exists_of_mem hmem
  exact Merger.keyed_of_mem_queues ring record hring

/-- Merger and decoder read the same time from a record, whatever lies in the ring, so a poll of
rings in order hands measurements to the window in order of their ends. -/
theorem times_agree (view : View) (region : Region) (intake : Intake) (readers : Array Reader)
    (memory : Memory) :
    (view.headTime? region = none ↔ view.isEmpty = true) ∧
      (view.isEmpty = false → ∃ size payload, view.payloadSize region = .ok size ∧
        view.copyPayload region size 0 = .ok payload ∧ view.KeyAgrees region payload) ∧
      (Ordered readers memory →
        HandsOn intake readers memory (Merger.batch readers memory).records) :=
  ⟨View.headTime?_eq_none_iff, fun hfull => View.keyAgrees hfull region, handsOn_batch intake⟩

/-- A measurement that ends between the other two. -/
def between : Measurement where
  entity := 3
  cycles := 1
  instructions := 2
  cacheMisses := 1
  endTime := 15
  duration := 4

/-- Two rings.  The first holds an early and a late measurement, the second one between them. -/
def staggered : Memory :=
  ((Feed.idle Feed.decades).run
    [.attach Feed.narrow, .attach Feed.narrow,
      .produce 0 (.write (Message.encodeMeasurement Feed.early) sampleRecordType),
      .produce 0 (.write (Message.encodeMeasurement Feed.late) sampleRecordType),
      .produce 0 .finishWrite,
      .produce 1 (.write (Message.encodeMeasurement between) sampleRecordType),
      .produce 1 .finishWrite]).net.memory

def pair : Array Reader :=
  #[{ region := 0, view := Feed.narrow.view }, { region := 1, view := Feed.narrow.view }]

/-- Both rings are in order of time. -/
theorem ordered_staggered : Ordered pair staggered := by
  intro ring
  match ring with
  | 0 =>
    have hqueue : Merger.queues pair staggered 0 =
        Reader.alone staggered 0 ((Merger.reader { readers := pair } 0).startRead staggered) :=
      rfl
    rw [hqueue, Reader.alone_of_full (by decide +kernel), Reader.alone_of_full (by decide +kernel),
      Reader.alone_of_isEmpty (by decide +kernel)]
    decide +kernel
  | 1 =>
    have hqueue : Merger.queues pair staggered 1 =
        Reader.alone staggered 1 ((Merger.reader { readers := pair } 1).startRead staggered) :=
      rfl
    rw [hqueue, Reader.alone_of_full (by decide +kernel),
      Reader.alone_of_isEmpty (by decide +kernel)]
    decide +kernel
  | ring + 2 => exact .nil

/-- The measurement of the second ring comes out between those of the first. -/
theorem times_agree_staggered :
    let view := Feed.narrow.view.startRead (staggered.region 0)
    let intake : Intake := { window := { shape := Feed.decades } }
    (view.isEmpty = false ∧ ∃ size payload,
      view.payloadSize (staggered.region 0) = .ok size ∧
        view.copyPayload (staggered.region 0) size 0 = .ok payload ∧
        view.KeyAgrees (staggered.region 0) payload) ∧
      Ordered pair staggered ∧
      HandsOn intake pair staggered (Merger.batch pair staggered).records ∧
      (Merger.batch pair staggered).records.filterMap accepted? =
        [Feed.early, between, Feed.late] := by
  intro view intake
  obtain ⟨-, hagree, hhandsOn⟩ :=
    times_agree view (staggered.region 0) intake pair staggered
  have hfull : view.isEmpty = false := by decide +kernel
  exact ⟨⟨hfull, hagree hfull⟩, ordered_staggered, hhandsOn ordered_staggered,
    by decide +kernel⟩

end Intake

end CacheMeter
