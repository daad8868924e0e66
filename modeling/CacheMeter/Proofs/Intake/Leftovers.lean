import Mathlib
import CacheMeter.Proofs.Intake.Feed
import CacheMeter.Proofs.Merge.Session
import CacheMeter.Proofs.Merge.Twins
import CacheMeter.Proofs.Ring.Storages

/-!
# What a ring held before

A write leaves the padding of its record as it finds it, and the size that the record announces
counts it.  So a reader is given bytes that nobody wrote.  They change nothing that a poll says
or leaves behind, unless a payload breaks off where they complete it: in the middle of a message,
or, where rings are merged, in the middle of the timestamp of a sample.

Main results:

- Definition `Network.bound`: rings bound to storages, and a merger that reads them.
- Theorem `Network.queues_of_laid`: what a poll finds in a ring is its chain.
- Theorem `Intake.poll_sameButFree`: what lies in free space makes no difference to a poll.
- Theorem `Intake.poll_reads_leftovers`: padding that completes a payload does, and so do records
  that are not whole.
-/

namespace CacheMeter

open CacheMeter.Ring CacheMeter.Merge

namespace Merge.Network

/-! ## Rings bound to storages -/

/-- Rings over storages, each bound by a producer, and a merger that is bound to all of them. -/
def bound (storages : List Storage) : Network where
  memory := (storages.map Storage.region).toArray
  merger :=
    { readers :=
        (storages.mapIdx fun ring storage => { region := ring, view := storage.view }).toArray }
  producers := (storages.map Storage.view).toArray
  journals := Array.replicate storages.length {}
  origins := Array.replicate storages.length 0

/-- Steps of producers. -/
def produceAll (net : Network) (actions : List (Nat × Ring.Action)) : Network :=
  net.run (actions.map fun action => .produce action.1 action.2)

variable {storages others : List Storage} {ring : Nat} {net net' : Network}

/-- A ring is bound to every storage. -/
theorem size_bound (storages : List Storage) :
    (bound storages).merger.readers.size = storages.length := by
  simp [bound]

/-- All arrays have one entry for each. -/
theorem shaped_bound (storages : List Storage) : Shaped (bound storages) where
  memory_size := by simp [bound]
  producers_size := by simp [bound]
  journals_size := by simp [bound]
  origins_size := by simp [bound]
  region_eq ring hlt := by
    rw [size_bound] at hlt
    simp [bound, Merger.reader, hlt]

/-- Each ring is the one of its storage. -/
theorem channel_bound (hlt : ring < storages.length) :
    (bound storages).channel ring =
      Channel.opened storages[ring].region storages[ring].view := by
  simp [bound, channel, Channel.opened, Memory.region, Merger.reader, hlt]

/-- Producers add no ring. -/
theorem size_produceAll (net : Network) (actions : List (Nat × Ring.Action)) :
    (net.produceAll actions).merger.readers.size = net.merger.readers.size := by
  induction actions generalizing net with
  | nil => rfl
  | cons action rest ih =>
    refine (ih (net.step (.produce action.1 action.2))).trans ?_
    simp only [Network.step]
    split_ifs <;> rfl

/-! ## Twins -/

/-- Two networks whose rings are twins. -/
structure Twins (keyed : Prop) (Known : Nat → UInt32 × Bytes → Prop) (net net' : Network) :
    Prop where
  shaped : Shaped net
  shaped' : Shaped net'
  size_eq : net'.merger.readers.size = net.merger.readers.size
  rings : ∀ ring < net.merger.readers.size,
    ∃ view, Channel.Twins keyed (Known ring) view (net.channel ring) (net'.channel ring)

variable {keyed : Prop} {Known : Nat → UInt32 × Bytes → Prop}
  {actions : List (Nat × Ring.Action)}

/-- Nothing that is written is cut short where padding could complete it, and everything is
known. -/
def Clean (keyed : Prop) (Known : Nat → UInt32 × Bytes → Prop)
    (actions : List (Nat × Ring.Action)) : Prop :=
  ∀ ring payload recordType, (ring, .write payload recordType) ∈ actions →
    ¬ Record.CutShort recordType payload ∧ (keyed → ¬ Record.CutStamp recordType payload) ∧
      ∀ pad : Bytes, pad.length = Record.padding recordType payload →
        Known ring (recordType, Record.padded recordType payload pad)

/-- Twins stay twins when their producers take the same step. -/
theorem Twins.step (h : Twins keyed Known net net') {action : Ring.Action}
    (hclean : Clean keyed Known [(ring, action)]) :
    Twins keyed Known (net.step (.produce ring action)) (net'.step (.produce ring action)) := by
  have hsize : net'.memory.size = net.memory.size := by
    rw [h.shaped.memory_size, h.shaped'.memory_size, h.size_eq]
  simp only [Network.step, hsize]
  split_ifs with hvalid
  · obtain ⟨hproducer, hlt⟩ := Bool.and_eq_true_iff.mp hvalid
    rw [decide_eq_true_eq, h.shaped.memory_size] at hlt
    refine ⟨h.shaped.produced ring action, h.shaped'.produced ring action, h.size_eq, ?_⟩
    intro other hother
    rw [channel_produced h.shaped hlt hproducer,
      channel_produced h.shaped' (h.size_eq.symm ▸ hlt) hproducer]
    split_ifs with hsame
    · obtain ⟨view, htwins⟩ := h.rings ring hlt
      subst hsame
      refine ⟨view, htwins.step hproducer fun payload recordType haction => ?_⟩
      exact hclean ring payload recordType (by rw [haction, List.mem_singleton])
    · exact h.rings other hother
  · exact h

/-- Twins stay twins when their producers take the same steps. -/
theorem Twins.produceAll (h : Twins keyed Known net net') (hclean : Clean keyed Known actions) :
    Twins keyed Known (net.produceAll actions) (net'.produceAll actions) := by
  induction actions generalizing net net' with
  | nil => exact h
  | cons action rest ih =>
    have hfirst : Clean keyed Known [(action.1, action.2)] := by
      intro ring payload recordType hmem
      refine hclean ring payload recordType ?_
      rw [List.mem_singleton.mp hmem]
      exact List.mem_cons_self
    exact ih (h.step hfirst) fun ring payload recordType hmem =>
      hclean ring payload recordType (List.mem_cons_of_mem _ hmem)

/-- Storages that differ only in free bytes are twins when they are bound. -/
theorem twins_bound (hsame : List.Forall₂ Storage.SameButFree storages others)
    (hwhole : ∀ (ring : Nat) (hlt : ring < storages.length), ∃ records,
      storages[ring].Holds records ∧ ∀ record ∈ records, Known ring record) :
    Twins keyed Known (bound storages) (bound others) where
  shaped := shaped_bound storages
  shaped' := shaped_bound others
  size_eq := by rw [size_bound, size_bound, hsame.length_eq]
  rings ring hlt := by
    rw [size_bound] at hlt
    have hlt' : ring < others.length := hsame.length_eq ▸ hlt
    obtain ⟨records, hholds, hknown⟩ := hwhole ring hlt
    rw [channel_bound hlt, channel_bound hlt']
    exact ⟨_, Channel.twins_opened (hsame.get hlt hlt') hholds hknown⟩

/-! ## What a poll finds -/

/-- What a poll finds in a ring is its chain, as far as it is published. -/
theorem queues_of_laid {view : View} {published pending : List (UInt32 × Bytes)}
    (hshaped : Shaped net) (hlt : ring < net.merger.readers.size)
    (h : Channel.Laid view (net.channel ring) published pending) :
    Merger.queues net.merger.readers net.memory ring = published.map (Merge.merged ring) := by
  have hregion := hshaped.region_eq ring hlt
  have hconsumer : (net.merger.reader ring).view = view := h.consumer
  have hread : view.readPos = UInt64.ofNat view.readPos.toNat := UInt64.ofNat_toNat.symm
  have hreader : (net.merger.reader ring).startRead net.memory =
      { region := ring, view := view.infront view.readPos.toNat (weight published) } := by
    have hhead : (net.memory.region ring).head = _ := h.head
    rw [Reader.startRead, hregion, hconsumer, View.startRead, hhead, View.infront, ← hread]
  have hlies := (View.lies_append.mp h.lies).1
  have hbounded : weight published < UInt64.size := by
    have hall := h.bounded
    rw [weight_append] at hall
    omega
  rw [Merger.queues, Array.getElem?_eq_getElem hlt, ← Merger.reader_of_lt hlt]
  dsimp only
  rw [hreader]
  exact Reader.alone_of_lies ring ring h.capacity_dvd hlies hbounded

/-- Two records from the same ring that tell the same. -/
structure Match (keyed : Prop) (Known : Nat → UInt32 × Bytes → Prop)
    (record other : MergedRecord) : Prop where
  ring : other.ring = record.ring
  akin : Akin keyed (Known record.ring) (Intake.content record) (Intake.content other)
  key : record.Keyed
  key' : other.Keyed

/-- Records that match come out at the same time. -/
theorem Match.rank_eq {record other : MergedRecord} (h : Match keyed Known record other)
    (hkeyed : keyed) : record.rank = other.rank := by
  rw [MergedRecord.rank, MergedRecord.rank, h.ring, h.key, h.key']
  exact congrArg (fun time : UInt64 => toLex (time.toNat, record.ring)) (h.akin.key hkeyed).symm

/-- Twins have to give what matches, record by record. -/
theorem Twins.queues (h : Twins keyed Known net net') (ring : Nat) :
    List.Forall₂ (Match keyed Known) (Merger.queues net.merger.readers net.memory ring)
      (Merger.queues net'.merger.readers net'.memory ring) := by
  rcases Nat.lt_or_ge ring net.merger.readers.size with hlt | hge
  · obtain ⟨view, published, pending, published', pending', hlaid, hlaid', hakin, -⟩ :=
      h.rings ring hlt
    rw [queues_of_laid h.shaped hlt hlaid,
      queues_of_laid h.shaped' (h.size_eq.symm ▸ hlt) hlaid', List.forall₂_map_left_iff,
      List.forall₂_map_right_iff]
    exact hakin.imp fun record other hmatch => ⟨rfl, hmatch, rfl, rfl⟩
  · rw [Merger.queues, Array.getElem?_eq_none hge, Merger.queues,
      Array.getElem?_eq_none (h.size_eq.symm ▸ hge)]
    exact .nil

/-- Batches of twins are alike record by record if keys are asked for, or if there is only one
ring. -/
theorem Twins.batch (h : Twins keyed Known net net')
    (hkeyed : keyed ∨ net.merger.readers.size ≤ 1) :
    List.Forall₂ (Match keyed Known) (Merger.batch net.merger.readers net.memory).records
      (Merger.batch net'.merger.readers net'.memory).records := by
  have hmerges := (Merger.batch_drainsTo net.merger.readers net.memory).merges
  have hmerges' := (Merger.batch_drainsTo net'.merger.readers net'.memory).merges
  rw [Merger.alone_started] at hmerges hmerges'
  refine hmerges.forall₂ hmerges' h.queues ?_
  refine hkeyed.imp (fun hkeyed a b hmatch => hmatch.rank_eq hkeyed) fun hone => ⟨0, ?_⟩
  intro ring hne
  rw [Merger.queues, Array.getElem?_eq_none (by omega)]

end Merge.Network

/-! ## Polls -/

namespace Intake

open Network

/-- A record does what the message does that it tells. -/
theorem Pass.digest_congr (pass : Pass) {record other : UInt32 × Bytes}
    (htold : Message.told other.1 other.2 = Message.told record.1 record.2) :
    pass.digest other = pass.digest record := by
  unfold Message.told at htold
  rw [digest_eq, digest_eq]
  cases hother : Message.decodeRecord other.1 other.2 with
  | error cause =>
    cases hrecord : Message.decodeRecord record.1 record.2 with
    | error cause' => rfl
    | ok message => simp [hother, hrecord, Except.toOption] at htold
  | ok message =>
    cases hrecord : Message.decodeRecord record.1 record.2 with
    | error cause => simp [hother, hrecord, Except.toOption] at htold
    | ok message' =>
      simp only [hother, hrecord, Except.toOption, Option.some.injEq] at htold
      rw [htold]

/-- Records that match do the same to an intake. -/
theorem digested_congr {keyed : Prop} {Known : Nat → UInt32 × Bytes → Prop} (intake : Intake)
    {records others : List MergedRecord}
    (h : List.Forall₂ (Match keyed Known) records others) :
    intake.digested others = intake.digested records := by
  suffices hfrom : ∀ pass : Pass,
      pass.digestAll (others.map content) = pass.digestAll (records.map content) from hfrom _
  induction h with
  | nil => exact fun _ => rfl
  | cons hmatch _ ih =>
    intro pass
    rw [List.map_cons, List.map_cons, Pass.digestAll, Pass.digestAll, List.foldl_cons,
      List.foldl_cons, pass.digest_congr hmatch.akin.told]
    exact ih _

/-- Two polls that say the same and leave the same behind. -/
structure SameOutcome (first second : Outcome) : Prop where
  intake : second.intake = first.intake
  emitted : second.emitted = first.emitted
  result : second.result = first.result

/-- A poll of twins has the same outcome. -/
theorem sameOutcome_of_twins {keyed : Prop} {Known : Nat → UInt32 × Bytes → Prop}
    {net net' : Network} (h : Network.Twins keyed Known net net')
    (hkeyed : keyed ∨ net.merger.readers.size ≤ 1) (intake : Intake) :
    SameOutcome (intake.poll net.merger.readers net.memory)
      (intake.poll net'.merger.readers net'.memory) := by
  by_cases hrings : net.merger.readers = #[]
  · have hrings' : net'.merger.readers = #[] := by
      rw [← Array.size_eq_zero_iff, h.size_eq, hrings]
      rfl
    rw [hrings, hrings']
    exact ⟨rfl, rfl, rfl⟩
  · have hrings' : net'.merger.readers ≠ #[] := by
      rw [Ne, ← Array.size_eq_zero_iff, h.size_eq, Array.size_eq_zero_iff]
      exact hrings
    have hsame := intake.digested_congr (h.batch hkeyed)
    rw [poll_eq_digested intake net.memory hrings, poll_eq_digested intake net'.memory hrings',
      hsame]
    exact ⟨rfl, rfl, rfl⟩

/-! ## Free space -/

/-- What a poll of rings over storages comes to, after steps of their producers. -/
def pollAfter (intake : Intake) (actions : List (Nat × Ring.Action)) (storages : List Storage) :
    Outcome :=
  let net := (Network.bound storages).produceAll actions
  intake.poll net.merger.readers net.memory

/-- The records that such a poll takes out. -/
def takenAfter (actions : List (Nat × Ring.Action)) (storages : List Storage) :
    List MergedRecord :=
  let net := (Network.bound storages).produceAll actions
  (Merger.batch net.merger.readers net.memory).records

/-- A record was written with a payload in one of the steps.  Without a whole timestamp it is
keyed zero, and without a whole message it cannot be decoded. -/
structure FromWrite (actions : List (Nat × Ring.Action)) (record : MergedRecord)
    (payload : Bytes) : Prop where
  mem : (record.ring, .write payload record.recordType) ∈ actions
  time_eq_zero : record.recordType = sampleRecordType → payload.length < 8 →
    ¬ Record.CutStamp record.recordType payload → record.time = 0
  malformed : (∀ message : Message, message.recordType = record.recordType →
      ¬ message.encode <+: payload) →
    ∃ cause, Message.decodeRecord record.recordType record.payload = .error cause

/-- The record was in its ring before, or it is written in one of the steps. -/
def Known (storages : List Storage) (actions : List (Nat × Ring.Action)) (ring : Nat)
    (record : UInt32 × Bytes) : Prop :=
  (∃ storage records, storages[ring]? = some storage ∧ storage.Holds records ∧
      record ∈ records) ∨
    ∃ payload pad : Bytes, (ring, .write payload record.1) ∈ actions ∧
      ¬ Record.CutShort record.1 payload ∧ pad.length = Record.padding record.1 payload ∧
        record.2 = Record.padded record.1 payload pad

/-- A record that reads back as a payload with padding was written. -/
theorem fromWrite_of_padded {actions : List (Nat × Ring.Action)} {record : MergedRecord}
    {payload pad : Bytes} (hkeyed : record.Keyed)
    (hmem : (record.ring, .write payload record.recordType) ∈ actions)
    (hwhole : ¬ Record.CutShort record.recordType payload)
    (hpad : pad.length = Record.padding record.recordType payload)
    (hpadded : record.payload = Record.padded record.recordType payload pad) :
    FromWrite actions record payload where
  mem := hmem
  time_eq_zero hsample hshort hstamp := by
    rw [hkeyed, hpadded]
    rw [hsample] at hstamp hpad ⊢
    exact keyTime_padded_of_short hstamp hpad hshort
  malformed hnone := by
    cases hdecode : Message.decodeRecord record.recordType record.payload with
    | error cause => exact ⟨cause, rfl⟩
    | ok message =>
      rw [hpadded] at hdecode
      have htold := Message.told_eq_some_iff.mpr hdecode
      exact absurd (Message.encode_prefix_of_told hwhole hpad htold)
        (hnone message (Message.told_padded_iff.mp htold).1)

/-- What lies in free space makes no difference: what is said and left behind is the same, and
so is what becomes of payloads that are too short. -/
structure Unaffected (intake : Intake) (actions : List (Nat × Ring.Action))
    (storages others : List Storage) : Prop where
  same : SameOutcome (intake.pollAfter actions storages) (intake.pollAfter actions others)
  taken : ∀ record ∈ takenAfter actions storages,
    (∃ storage records, storages[record.ring]? = some storage ∧ storage.Holds records ∧
        content record ∈ records) ∨
      ∃ payload, FromWrite actions record payload

/-- What lies in free space makes no difference to a poll, whatever is written and published
before it, as long as no payload breaks off where padding completes it: in a message, or, if
there are several rings to merge, in a timestamp.  What was published before are whole records. -/
theorem poll_sameButFree (intake : Intake) {storages others : List Storage}
    (actions : List (Nat × Ring.Action))
    (hsame : List.Forall₂ Storage.SameButFree storages others)
    (hwhole : ∀ storage ∈ storages, ∃ records, storage.Holds records)
    (hwrites : ∀ ring payload recordType, (ring, .write payload recordType) ∈ actions →
      ¬ Record.CutShort recordType payload ∧
        (1 < storages.length → ¬ Record.CutStamp recordType payload)) :
    Unaffected intake actions storages others := by
  have hclean : Clean (1 < storages.length) (Known storages actions) actions := by
    intro ring payload recordType hmem
    obtain ⟨hshort, hstamp⟩ := hwrites ring payload recordType hmem
    exact ⟨hshort, hstamp, fun pad hpad => .inr ⟨payload, pad, hmem, hshort, hpad, rfl⟩⟩
  have hbound : Network.Twins (1 < storages.length) (Known storages actions)
      (Network.bound storages) (Network.bound others) := by
    refine twins_bound hsame fun ring hlt => ?_
    obtain ⟨records, hholds⟩ := hwhole _ (List.getElem_mem hlt)
    exact ⟨records, hholds, fun record hmem =>
      .inl ⟨_, records, List.getElem?_eq_getElem hlt, hholds, hmem⟩⟩
  have htwins := hbound.produceAll hclean
  have hkeyed : 1 < storages.length ∨
      ((Network.bound storages).produceAll actions).merger.readers.size ≤ 1 := by
    rw [size_produceAll, size_bound]
    exact (Nat.lt_or_ge 1 storages.length)
  refine ⟨sameOutcome_of_twins htwins hkeyed intake, fun record hmem => ?_⟩
  obtain ⟨number, hlt, rfl⟩ := List.getElem_of_mem hmem
  have hbatch := htwins.batch hkeyed
  have hmatch := hbatch.get hlt (hbatch.length_eq ▸ hlt)
  rcases hmatch.akin.known with hbefore | ⟨payload, pad, hwrite, hshort, hpad, hpadded⟩
  · exact .inl hbefore
  · exact .inr ⟨payload, fromWrite_of_padded hmatch.key hwrite hshort hpad hpadded⟩

/-- A ring with room for two measurements and nothing in it. -/
def blank : Storage where
  region := Feed.narrow.region
  view := Feed.narrow.view
  attach := Feed.narrow.attach

/-- A blank storage holds no record. -/
theorem holds_blank : blank.Holds [] :=
  ⟨trivial, by decide⟩

/-- A ring gets a short sample and a measurement, another one the first part of a
measurement. -/
def fragments : List (Nat × Ring.Action) :=
  [(0, .write [1, 2, 3] sampleRecordType),
    (0, .write (Message.encodeMeasurement Feed.early) sampleRecordType),
    (0, .finishWrite),
    (1, .write ((Message.encodeMeasurement Feed.late).take 20) sampleRecordType),
    (1, .finishWrite)]

/-- With and without bytes left behind in both rings, the measurement is taken in and the other
two records are skipped. -/
theorem poll_sameButFree_fragments :
    Unaffected { window := { shape := Feed.decades } } fragments [blank, blank]
        [blank.refilled 13 [255, 255, 255], blank.refilled 30 [7, 0, 7]] ∧
      (pollAfter { window := { shape := Feed.decades } } fragments [blank, blank]).result =
        .ok { records := 3, measurements := 1, decodeErrors := 2 } := by
  refine ⟨poll_sameButFree _ fragments ?_ ?_ ?_, by decide +kernel⟩
  · exact .cons (Storage.sameButFree_refilled (by decide) (by decide))
      (.cons (Storage.sameButFree_refilled (by decide) (by decide)) .nil)
  · intro storage hmem
    obtain rfl : storage = blank := by simpa using hmem
    exact ⟨[], holds_blank⟩
  · intro ring payload recordType hmem
    simp only [fragments, List.mem_cons, Prod.mk.injEq, Ring.Action.write.injEq, reduceCtorEq,
      and_false, false_or, or_false, List.not_mem_nil] at hmem
    rw [Record.cutStamp_iff]
    rcases hmem with ⟨-, rfl, rfl⟩ | ⟨-, rfl, rfl⟩ | ⟨-, rfl, rfl⟩
    · exact ⟨Record.not_cutShort_of_lt (by decide), fun _ => by decide⟩
    · exact ⟨Message.not_cutShort_encode (.measurement Feed.early), fun _ => by decide⟩
    · exact ⟨Record.not_cutShort_of_padding_eq_zero (by decide), fun _ => by decide⟩

/-- All of a measurement but the last three bytes of its duration. -/
def cutMeasurement : List (Nat × Ring.Action) :=
  [(0, .write ((Message.encodeMeasurement Feed.early).take 45) sampleRecordType),
    (0, .finishWrite)]

/-- Five of the eight bytes of a timestamp in front of a measurement, and a later measurement in
another ring. -/
def cutStamp : List (Nat × Ring.Action) :=
  [(0, .write [0, 0, 0, 0, 0] sampleRecordType),
    (0, .write (Message.encodeMeasurement Feed.early) sampleRecordType),
    (0, .finishWrite),
    (1, .write (Message.encodeMeasurement Feed.late) sampleRecordType),
    (1, .finishWrite)]

/-- A header that announces a notice of lost samples is published, and the notice is not. -/
def torn : Storage where
  region :=
    (Feed.narrow.region.store 1072
      (Ring.Header.encode { recordType := lostRecordType, misc := 0, size := 24 })).publishHead 8
  view := { Feed.narrow.view with writePos := 8 }
  attach := by decide +kernel

/-- Free space is read in three places.  Padding completes a measurement that is cut short: after
zeroes it is taken in, after other bytes it is not.  Padding completes a timestamp: after zeroes
its sample comes first and the two measurements in order, after other bytes it comes second with a
key other than zero, the earlier measurement comes last, and other slots are emitted.  And a record
that is not whole when the rings are bound goes on in free space. -/
theorem poll_reads_leftovers :
    (Storage.SameButFree blank (blank.refilled 57 [0, 0, 128]) ∧
        (pollAfter { window := { shape := Feed.decades } } cutMeasurement [blank]).result =
          .ok { records := 1, measurements := 1 } ∧
        (pollAfter { window := { shape := Feed.decades } } cutMeasurement
            [blank.refilled 57 [0, 0, 128]]).result =
          .ok { records := 1, decodeErrors := 1 }) ∧
      (Storage.SameButFree blank (blank.refilled 19 [1]) ∧
        (takenAfter cutStamp [blank, blank]).map (fun record => (record.time, record.ring)) =
          [(0, 0), (5, 0), (25, 1)] ∧
        (takenAfter cutStamp [blank.refilled 19 [1], blank]).map
            (fun record => (record.time, record.ring)) =
          [(25, 1), (72057594037927936, 0), (5, 0)] ∧
        ¬ SameOutcome
          (pollAfter { window := { shape := Feed.decades } } cutStamp [blank, blank])
          (pollAfter { window := { shape := Feed.decades } } cutStamp
            [blank.refilled 19 [1], blank])) ∧
      Storage.SameButFree torn (torn.refilled 16 [1]) ∧
        ¬ SameOutcome (pollAfter { window := { shape := Feed.decades } } [] [torn])
          (pollAfter { window := { shape := Feed.decades } } [] [torn.refilled 16 [1]]) := by
  refine ⟨⟨Storage.sameButFree_refilled (by decide) (by decide), ?_, ?_⟩,
    ⟨Storage.sameButFree_refilled (by decide) (by decide), ?_, ?_, fun hsame => ?_⟩,
    Storage.sameButFree_refilled (by decide) (by decide), fun hsame => ?_⟩
  · decide +kernel
  · decide +kernel
  · decide +kernel
  · decide +kernel
  · exact absurd hsame.result (by decide +kernel)
  · exact absurd hsame.result (by decide +kernel)

end Intake

end CacheMeter
