import Mathlib
import CacheMeter.Proofs.Intake.Feed
import CacheMeter.Proofs.Ring.Rounds

/-!
# Batching is unobservable

A poll is a fold over the records that it takes out, and nothing but the intake is carried
from one poll to the next.  So it makes no difference whether the records of a ring are
published and polled bit by bit or all at once: what is emitted, the intake and the sum of
the reports are the same.

Main results:

- Theorem `Intake.Pass.digestAll_append`: a pass over two batches is one pass after the
  other, and the reports add up.
- Theorem `Merge.Network.Sound.queues_readBack`: what a poll finds in a ring is what was
  published and not yet consumed.
- Theorem `Feed.Single.batched`: what publishing and polling batch after batch does.
- Theorem `Feed.batching_unobservable`: polls are folds, and it makes no difference into
  which batches records are cut.
-/

namespace CacheMeter

open Merge

namespace Intake

/-! ## Reports that add up -/

namespace Summary

/-- What was done first and then. -/
def add (first second : Summary) : Summary where
  records := first.records + second.records
  measurements := first.measurements + second.measurements
  lostSamples := first.lostSamples + second.lostSamples
  decodeErrors := first.decodeErrors + second.decodeErrors
  slotsEmitted := first.slotsEmitted + second.slotsEmitted

/-- What was done altogether, field by field. -/
def total (summaries : List Summary) : Summary where
  records := (summaries.map Summary.records).sum
  measurements := (summaries.map Summary.measurements).sum
  lostSamples := (summaries.map Summary.lostSamples).sum
  decodeErrors := (summaries.map Summary.decodeErrors).sum
  slotsEmitted := (summaries.map Summary.slotsEmitted).sum

/-- Nothing done is nothing reported. -/
@[simp]
theorem total_nil : total [] = {} := rfl

/-- Reports add up one by one. -/
@[simp]
theorem total_cons (summary : Summary) (rest : List Summary) :
    total (summary :: rest) = summary.add (total rest) := by
  simp [total, add]

/-- A poll that finds nothing adds nothing. -/
@[simp]
theorem add_empty (summary : Summary) : summary.add {} = summary := rfl

end Summary

namespace Pass

/-- A pass that goes on where another one ended, told as one. -/
def andThen (first second : Pass) : Pass where
  intake := second.intake
  summary := first.summary.add second.summary
  emitted := first.emitted ++ second.emitted

/-- To go on with a fresh pass changes nothing. -/
theorem andThen_fresh (pass : Pass) : pass.andThen { intake := pass.intake } = pass := by
  simp [andThen]

/-- What a record does depends on nothing that was done before but the intake. -/
theorem digest_andThen (first second : Pass) (record : UInt32 × Bytes) :
    (first.andThen second).digest record = first.andThen (second.digest record) := by
  rw [digest_eq, digest_eq]
  cases Message.decodeRecord record.1 record.2 with
  | error cause => simp [andThen, skip, Summary.add, Nat.add_assoc]
  | ok message =>
    cases message with
    | measurement m =>
      dsimp only
      split_ifs
      · simp [andThen, count, takeIn, Summary.add, Nat.add_assoc]
      · simp [andThen, skip, Summary.add, Nat.add_assoc]
    | lost | rmidAlloc | rmidFree =>
      simp [andThen, count, lose, enroll, Summary.add, Nat.add_assoc]

/-- To go on with records is to go on with the second pass. -/
theorem digestAll_andThen (first second : Pass) (records : List (UInt32 × Bytes)) :
    (first.andThen second).digestAll records = first.andThen (second.digestAll records) := by
  induction records generalizing second with
  | nil => rfl
  | cons record rest ih =>
    have hfirst := first.digest_andThen second record
    simp only [digestAll, List.foldl_cons, hfirst]
    exact ih (second.digest record)

/-- Two batches are digested one after the other, and only the intake is passed on. -/
theorem digestAll_append (pass : Pass) (first second : List (UInt32 × Bytes)) :
    pass.digestAll (first ++ second) =
      (pass.digestAll first).andThen
        (digestAll { intake := (pass.digestAll first).intake } second) := by
  rw [← digestAll_andThen, andThen_fresh, digestAll, List.foldl_append]
  rfl

end Pass

/-- A pass over two batches is one pass after the other. -/
theorem digested_append (intake : Intake) (first second : List MergedRecord) :
    intake.digested (first ++ second) =
      (intake.digested first).andThen ((intake.digested first).intake.digested second) := by
  rw [digested, List.map_append, Pass.digestAll_append]
  rfl

end Intake

/-! ## What a poll finds -/

namespace Merge.Network

variable {net : Network} {ring : Nat}

/-- The records of a ring that are published and not consumed yet. -/
def unread (net : Network) (ring : Nat) : List (UInt32 × Bytes) :=
  ((net.channel ring).journal.written.take (net.channel ring).journal.published).drop
    (net.channel ring).journal.popped.length

/-- A poll takes out of each ring what it has to give. -/
theorem mergedOf_polled (h : Sound net) (hrings : net.merger.readers ≠ #[]) (ring : Nat) :
    net.polled.mergedOf ring = net.mergedOf ring ++
      (Merger.queues net.merger.readers net.memory ring).map fun record =>
        .ok (Intake.content record) := by
  have hmerges := (Merger.batch_drainsTo net.merger.readers net.memory).merges
  rw [Merger.alone_started] at hmerges
  rw [mergedOf, (h.polled_batch hrings).2.2, List.filter_append, List.map_append,
    hmerges.filter_ring Merger.ring_of_mem_queues]
  rfl

/-- What a poll finds in a ring is what was written, published and not yet consumed. -/
theorem Sound.queues_readBack (h : Sound net) (hlt : ring < net.merger.readers.size) :
    List.Forall₂ Ring.Record.ReadsBack (net.unread ring)
      ((Merger.queues net.merger.readers net.memory ring).map fun record =>
        .ok (Intake.content record)) := by
  have hrings : net.merger.readers ≠ #[] := by
    intro hnone
    rw [hnone] at hlt
    exact Nat.not_lt_zero ring hlt
  have hread := h.onlyRead_polled
  have hlt' : ring < net.polled.merger.readers.size := by rwa [hread.size_eq]
  rcases hread.channel ring hlt with ⟨actions, hreading, hchannel⟩
  rcases (net.channel ring).written_run_reading hreading with ⟨hwritten, hpublished⟩
  have hall := h.polled_consumes hlt'
  have hdelivered := (h.polled.delivered hlt').2
  have horigin := h.logged.origin_le ring hlt
  have hmerged := h.logged.mergedOf_eq ring hlt
  have hcount : (net.polled.mergedOf ring).length =
      (net.channel ring).journal.published - net.origins.getD ring 0 := by
    rw [Consumed, hread.origins_eq, hchannel, hpublished] at hall
    omega
  have hbefore : (net.mergedOf ring).length =
      (net.channel ring).journal.popped.length - net.origins.getD ring 0 := by
    rw [hmerged, List.length_drop]
  rw [hcount, hread.origins_eq, hchannel, hwritten, ← List.drop_take,
    mergedOf_polled h hrings] at hdelivered
  -- Of all that was delivered so far, the poll adds what comes after the records merged before.
  have hrest := List.forall₂_drop (net.mergedOf ring).length hdelivered
  rw [List.drop_left, List.drop_drop, hbefore, Nat.add_sub_cancel' horigin] at hrest
  exact hrest

/-- With a single ring all records come from it. -/
theorem Sound.map_content (h : Sound net) (hsize : net.merger.readers.size = 1) :
    (net.merged.map fun record => Except.ok (Intake.content record)) =
      (net.channel 0).journal.popped.drop (net.origins.getD 0 0) := by
  have hown : net.merged.filter (fun record => record.ring = 0) = net.merged := by
    rw [List.filter_eq_self]
    intro record hmem
    have hlt := h.logged.ring_lt record hmem
    rw [hsize] at hlt
    simpa using hlt
  rw [← h.logged.mergedOf_eq 0 (hsize ▸ Nat.one_pos), Network.mergedOf, hown]
  rfl

end Merge.Network

/-! ## One ring -/

namespace Feed

variable {feed : Feed}

/-- A ring and the intake that polls it. -/
def oneRing (lane : Lane) (intake : Intake) : Feed where
  net := ({} : Network).step (.addRing lane)
  intake := intake

/-- The report of a poll now. -/
def report (feed : Feed) : Except Intake.Failure Intake.Summary :=
  (feed.intake.poll feed.net.merger.readers feed.net.memory).result

/-- Records are written to the first ring and published. -/
def publish (feed : Feed) (records : List (UInt32 × Bytes)) : Feed :=
  feed.run ((.startWrite :: (Ring.Channel.writes records ++ [.finishWrite])).map (.produce 0))

/-- Batches are published one after the other, with a poll after each.  The first component
lists the reports. -/
def pollBatches (feed : Feed) :
    List (List (UInt32 × Bytes)) → List (Except Intake.Failure Intake.Summary) × Feed
  | [] => ([], feed)
  | batch :: rest =>
    let published := feed.publish batch
    let (reports, last) := published.polled.pollBatches rest
    (published.report :: reports, last)

/-- A sound feed with one ring. -/
structure Single (feed : Feed) : Prop where
  net : feed.net.Sound
  size : feed.net.merger.readers.size = 1

theorem Single.size_pos (h : Single feed) : 0 < feed.net.merger.readers.size := by
  rw [h.size]
  exact Nat.one_pos

/-- A feed of one lane has a single ring. -/
theorem single_oneRing (lane : Lane) (intake : Intake) : Single (oneRing lane intake) where
  net := Network.sound_empty.step (.addRing lane)
  size := rfl

/-- It is the one that the lane stands for. -/
theorem channel_oneRing (lane : Lane) (intake : Intake) :
    (oneRing lane intake).net.channel 0 = lane.channel :=
  Network.sound_empty.channel_added lane rfl 0

namespace Single

/-- A producer leaves everything but its ring alone. -/
structure OnlyWrote (feed after : Feed) (actions : List Ring.Action) : Prop where
  single : Single after
  channel_eq : after.net.channel 0 = (feed.net.channel 0).run actions
  merged_eq : after.net.merged = feed.net.merged
  origins_eq : after.net.origins = feed.net.origins
  intake_eq : after.intake = feed.intake
  emitted_eq : after.emitted = feed.emitted

/-- What a producer does touches nothing but its ring. -/
theorem onlyWrote (h : Single feed) {actions : List Ring.Action}
    (hproducer : ∀ action ∈ actions, action.isProducer = true) :
    OnlyWrote feed (feed.run (actions.map (.produce 0))) actions := by
  induction actions generalizing feed with
  | nil => exact ⟨h, rfl, rfl, rfl, rfl, rfl⟩
  | cons action rest ih =>
    have hfirst := hproducer action List.mem_cons_self
    have hlt := h.size_pos
    have hvalid : (action.isProducer && decide (0 < feed.net.memory.size)) = true := by
      rw [hfirst, Bool.true_and, decide_eq_true_eq, h.net.shaped.memory_size]
      exact hlt
    have hstep : feed.step (.produce 0 action) =
        { feed with net := feed.net.produced 0 action } := by
      simp only [Feed.step, Network.step, hvalid, if_true]
    have hchannel := Network.channel_produced h.net.shaped hlt hfirst 0
    have hsingle : Single (feed.step (.produce 0 action)) := by
      rw [hstep]
      exact ⟨h.net.produced hlt hfirst, h.size⟩
    have hrest := ih hsingle fun later hmem => hproducer later (List.mem_cons_of_mem _ hmem)
    rw [hstep] at hrest
    have hrun : feed.run ((action :: rest).map (.produce 0)) =
        ({ feed with net := feed.net.produced 0 action } : Feed).run
          (rest.map (.produce 0)) := by
      rw [← hstep]
      rfl
    rw [hrun]
    exact
      { single := hrest.single
        channel_eq := by
          rw [hrest.channel_eq, hchannel, if_pos rfl]
          rfl
        merged_eq := hrest.merged_eq
        origins_eq := hrest.origins_eq
        intake_eq := hrest.intake_eq
        emitted_eq := hrest.emitted_eq }

/-- So it is when records are published. -/
theorem onlyWrote_publish (h : Single feed) (records : List (UInt32 × Bytes)) :
    OnlyWrote feed (feed.publish records)
      (.startWrite :: (Ring.Channel.writes records ++ [.finishWrite])) := by
  apply h.onlyWrote
  intro action hmem
  rcases List.mem_cons.mp hmem with rfl | hmem
  · rfl
  rcases List.mem_append.mp hmem with hmem | hmem
  · rcases List.mem_map.mp hmem with ⟨record, -, rfl⟩
    rfl
  · rw [List.mem_singleton.mp hmem]
    rfl

/-- A poll takes the records published to the ring out of it and digests them. -/
structure OnlyPolled (feed : Feed) (actions : List Ring.Action) (records : List MergedRecord) :
    Prop where
  single : Single feed.polled
  reading : ∀ action ∈ actions, action.isProducer = false
  channel_eq : feed.polled.net.channel 0 = (feed.net.channel 0).run actions
  merged_eq : feed.polled.net.merged = feed.net.merged ++ records
  origins_eq : feed.polled.net.origins = feed.net.origins
  intake_eq : feed.polled.intake = (feed.intake.digested records).intake
  emitted_eq : feed.polled.emitted = feed.emitted ++ (feed.intake.digested records).emitted
  report_eq : feed.report = .ok (feed.intake.digested records).summary
  consumed : (feed.polled.net.channel 0).journal.popped.length =
    (feed.net.channel 0).journal.published

/-- A poll reads the ring and takes in what it reads. -/
theorem onlyPolled (h : Single feed) : ∃ actions records, OnlyPolled feed actions records := by
  have hrings : feed.net.merger.readers ≠ #[] := by
    intro hnone
    have hsize := h.size
    rw [hnone] at hsize
    exact absurd hsize (by decide)
  have hlt := h.size_pos
  have hnet := net_polled h.net
  have hread := h.net.onlyRead_polled
  have hlt' : 0 < feed.net.polled.merger.readers.size := by rwa [hread.size_eq]
  rcases hread.channel 0 hlt with ⟨actions, hreading, hchannel⟩
  have hmerged := (h.net.polled_batch hrings).2.2
  have hpoll := feed.intake.poll_eq_digested feed.net.memory hrings
  refine ⟨actions, (Merger.batch feed.net.merger.readers feed.net.memory).records, ?_⟩
  refine
    { single := ⟨?_, ?_⟩
      reading := hreading
      channel_eq := ?_
      merged_eq := ?_
      origins_eq := ?_
      intake_eq := ?_
      emitted_eq := ?_
      report_eq := ?_
      consumed := ?_ }
  · rw [hnet]
    exact h.net.polled.renewed
  · rw [hnet, Network.readers_renewed, hread.size_eq, h.size]
  · rw [hnet, Network.channel_renewed, hchannel]
  · rw [hnet, Network.merged_renewed, hmerged]
  · rw [hnet, Network.origins_renewed, hread.origins_eq]
  · rw [Feed.polled, hpoll]
  · rw [Feed.polled, hpoll]
  · rw [report, hpoll]
  · have hall := h.net.polled_consumes hlt'
    have horigin := h.net.polled.logged.origin_le 0 hlt'
    have hpublished := ((feed.net.channel 0).written_run_reading hreading).2
    rw [Network.Consumed, h.net.polled.logged.mergedOf_eq 0 hlt', List.length_drop] at hall
    rw [hnet, Network.channel_renewed, ← hpublished, ← hchannel]
    omega

/-- Nothing that was written to the first ring is left to be consumed. -/
def Drained (feed : Feed) : Prop :=
  (feed.net.channel 0).journal.popped.length = (feed.net.channel 0).journal.written.length

/-- What publishing and polling batch after batch does: the reports, what each side of the
ring did in its turn, and the records that were taken out. -/
structure Batched (feed : Feed) (batches : List (List (UInt32 × Bytes)))
    (summaries : List Intake.Summary)
    (rounds : List (List (UInt32 × Bytes) × List Ring.Action)) (records : List MergedRecord) :
    Prop where
  single : Single (feed.pollBatches batches).2
  reports_eq : (feed.pollBatches batches).1 = summaries.map .ok
  rounds_eq : rounds.map Prod.fst = batches
  reading : ∀ round ∈ rounds, ∀ action ∈ round.2, action.isProducer = false
  channel_eq : (feed.pollBatches batches).2.net.channel 0 =
    (feed.net.channel 0).run (rounds.flatMap fun round => Ring.Channel.round round.1 round.2)
  merged_eq : (feed.pollBatches batches).2.net.merged = feed.net.merged ++ records
  origins_eq : (feed.pollBatches batches).2.net.origins = feed.net.origins
  intake_eq : (feed.pollBatches batches).2.intake = (feed.intake.digested records).intake
  emitted_eq : (feed.pollBatches batches).2.emitted =
    feed.emitted ++ (feed.intake.digested records).emitted
  total_eq : Intake.Summary.total summaries = (feed.intake.digested records).summary
  drained : (batches = [] → Drained feed) → Drained (feed.pollBatches batches).2

/-- What publishing and polling batch after batch comes to. -/
theorem batched (h : Single feed) (batches : List (List (UInt32 × Bytes))) :
    ∃ summaries rounds records, Batched feed batches summaries rounds records := by
  induction batches generalizing feed with
  | nil =>
    exact ⟨[], [], [],
      { single := h
        reports_eq := rfl
        rounds_eq := rfl
        reading := by simp
        channel_eq := rfl
        merged_eq := (List.append_nil _).symm
        origins_eq := rfl
        intake_eq := rfl
        emitted_eq := (List.append_nil _).symm
        total_eq := rfl
        drained := fun hnone => hnone rfl }⟩
  | cons batch rest ih =>
    have hwrote := h.onlyWrote_publish batch
    rcases hwrote.single.onlyPolled with ⟨actions, records, hpolled⟩
    rcases ih hpolled.single with ⟨summaries, rounds, later, hrest⟩
    have hround : ((feed.publish batch).polled.net.channel 0) =
        (feed.net.channel 0).run (Ring.Channel.round batch actions) := by
      rw [hpolled.channel_eq, hwrote.channel_eq, ← Ring.Channel.run_append, Ring.Channel.round,
        List.cons_append, List.append_assoc, List.singleton_append]
    have hdrained : Drained (feed.publish batch).polled := by
      have hwritten := ((feed.publish batch).net.channel 0).written_run_reading hpolled.reading
      rw [Drained, hpolled.consumed, hpolled.channel_eq, hwritten.1, hwrote.channel_eq,
        ← List.cons_append, Ring.Channel.run_append]
      rfl
    have hdigested := feed.intake.digested_append records later
    refine ⟨(feed.intake.digested records).summary :: summaries, (batch, actions) :: rounds,
      records ++ later, ?_⟩
    have hwhole : (feed.intake.digested (records ++ later)).intake =
        ((feed.publish batch).polled.intake.digested later).intake := by
      rw [hdigested, hpolled.intake_eq, hwrote.intake_eq]
      rfl
    exact
      { single := hrest.single
        reports_eq := by
          rw [pollBatches, List.map_cons, ← hrest.reports_eq, hpolled.report_eq,
            hwrote.intake_eq]
        rounds_eq := by rw [List.map_cons, hrest.rounds_eq]
        reading := by
          intro round hmem
          rcases List.mem_cons.mp hmem with rfl | hmem
          · exact hpolled.reading
          · exact hrest.reading round hmem
        channel_eq := by
          rw [pollBatches, hrest.channel_eq, hround, List.flatMap_cons, Ring.Channel.run_append]
        merged_eq := by
          rw [pollBatches, hrest.merged_eq, hpolled.merged_eq, hwrote.merged_eq,
            List.append_assoc]
        origins_eq := hrest.origins_eq.trans (hpolled.origins_eq.trans hwrote.origins_eq)
        intake_eq := hrest.intake_eq.trans hwhole.symm
        emitted_eq := by
          rw [pollBatches, hrest.emitted_eq, hpolled.emitted_eq, hpolled.intake_eq,
            hwrote.intake_eq, hwrote.emitted_eq, hdigested, List.append_assoc]
          rfl
        total_eq := by
          rw [Intake.Summary.total_cons, hrest.total_eq, hpolled.intake_eq, hwrote.intake_eq,
            hdigested]
          rfl
        drained := fun _ => hrest.drained fun _ => hdrained }

/-- What was written to a drained ring after it was added is what was consumed, read
back. -/
theorem readBack (h : Single feed) (hdrained : Drained feed) :
    List.Forall₂ Ring.Record.ReadsBack
      ((feed.net.channel 0).journal.written.drop (feed.net.origins.getD 0 0))
      (feed.net.merged.map fun record => Except.ok (Intake.content record)) := by
  have hdelivered := (h.net.delivered h.size_pos).2
  have hcontent := h.net.map_content h.size
  rw [h.net.logged.mergedOf_eq 0 h.size_pos, ← hcontent] at hdelivered
  rw [hcontent, List.length_drop, hdrained, ← List.length_drop, List.take_length,
    ← hcontent] at hdelivered
  exact hdelivered

end Single

/-! ## Polls are folds -/

/-- A feed keeps its network sound, step by step. -/
theorem net_step (h : feed.net.Sound) (action : Action) : (feed.step action).net.Sound := by
  cases action with
  | attach lane => exact h.step (.addRing lane)
  | produce ring action => exact h.step (.produce ring action)
  | poll =>
    rw [Feed.step, net_polled h]
    exact h.polled.renewed

/-- A feed keeps its network sound all along. -/
theorem net_run (h : feed.net.Sound) (actions : List Action) : (feed.run actions).net.Sound := by
  induction actions generalizing feed with
  | nil => exact h
  | cons action rest ih => exact ih (net_step h action)

/-- A poll takes out a merge of what its rings hold and is the fold over it. -/
structure PollFolds (intake : Intake) (readers : Array Reader) (memory : Memory)
    (records : List MergedRecord) : Prop where
  merges : Merges (Merger.queues readers memory) records
  intake_eq : (intake.poll readers memory).intake = (intake.digested records).intake
  emitted_eq : (intake.poll readers memory).emitted = (intake.digested records).emitted
  result_eq : (intake.poll readers memory).result = .ok (intake.digested records).summary

/-- A poll is a fold over what it takes out. -/
theorem exists_pollFolds (intake : Intake) {readers : Array Reader} (memory : Memory)
    (hrings : readers ≠ #[]) : ∃ records, PollFolds intake readers memory records := by
  have hmerges := (Merger.batch_drainsTo readers memory).merges
  rw [Merger.alone_started] at hmerges
  have hpoll := intake.poll_eq_digested memory hrings
  refine ⟨(Merger.batch readers memory).records, hmerges, ?_, ?_, ?_⟩
  · rw [hpoll]
  · rw [hpoll]
  · rw [hpoll]

/-- Publishing and polling batch after batch is the fold over `records`, and these are what
was written to the ring and not popped before, read back. -/
structure BatchesFold (lane : Lane) (intake : Intake) (batches : List (List (UInt32 × Bytes)))
    (records : List MergedRecord) : Prop where
  readBack : List.Forall₂ Ring.Record.ReadsBack
    ((((oneRing lane intake).pollBatches batches).2.net.channel 0).journal.written.drop
      lane.channel.journal.popped.length)
    (records.map fun record => .ok (Intake.content record))
  intake_eq : ((oneRing lane intake).pollBatches batches).2.intake =
    (intake.digested records).intake
  emitted_eq : ((oneRing lane intake).pollBatches batches).2.emitted =
    (intake.digested records).emitted
  reports : ∃ summaries, ((oneRing lane intake).pollBatches batches).1 = summaries.map .ok ∧
    Intake.Summary.total summaries = (intake.digested records).summary

/-- Two ways of polling come to the same intake and the same emissions, and the reports of
the first add up to the only report of the second. -/
structure Agree (batched once : List (Except Intake.Failure Intake.Summary) × Feed) : Prop where
  intake_eq : batched.2.intake = once.2.intake
  emitted_eq : batched.2.emitted = once.2.emitted
  reports : ∃ summaries, batched.1 = summaries.map .ok ∧
    once.1 = [.ok (Intake.Summary.total summaries)]

/-- Whether a ring has room for all of some records at once. -/
def HasRoom (lane : Lane) (records : List (UInt32 × Bytes)) : Prop :=
  ((lane.channel.step .startWrite).run (Ring.Channel.writes records)).journal.written =
    lane.channel.journal.written ++ records

instance (lane : Lane) (records : List (UInt32 × Bytes)) : Decidable (HasRoom lane records) :=
  inferInstanceAs (Decidable (_ = _))

/-- Whether a ring was read to its end before it was handed over. -/
def ReadOut (lane : Lane) : Prop :=
  lane.channel.journal.popped.length = lane.channel.journal.written.length

section OneRing

variable {lane : Lane} {intake : Intake} {batches : List (List (UInt32 × Bytes))}
  {summaries : List Intake.Summary}
  {rounds : List (List (UInt32 × Bytes) × List Ring.Action)} {records : List MergedRecord}

/-- A lane is handed over with what was read of it before. -/
theorem origin_oneRing (lane : Lane) (intake : Intake) :
    (oneRing lane intake).net.origins.getD 0 0 = lane.channel.journal.popped.length := rfl

/-- From an empty network, what came out is what the polls took out. -/
theorem Single.Batched.merged_oneRing
    (h : Batched (oneRing lane intake) batches summaries rounds records) :
    ((oneRing lane intake).pollBatches batches).2.net.merged = records :=
  h.merged_eq

/-- What is taken out of a ring in the end is what was popped from it meanwhile. -/
theorem Single.Batched.map_content
    (h : Batched (oneRing lane intake) batches summaries rounds records) :
    (records.map fun record => Except.ok (Intake.content record)) =
      (lane.channel.run (rounds.flatMap fun round =>
        Ring.Channel.round round.1 round.2)).journal.popped.drop
          ((oneRing lane intake).net.origins.getD 0 0) := by
  rw [← h.merged_oneRing, h.single.net.map_content h.single.size, h.channel_eq, h.origins_eq,
    channel_oneRing]

/-- In the end nothing is left in the ring. -/
theorem Single.Batched.drained_oneRing
    (h : Batched (oneRing lane intake) batches summaries rounds records)
    (hnone : batches = [] → ReadOut lane) :
    Drained ((oneRing lane intake).pollBatches batches).2 := by
  apply h.drained
  intro hnil
  rw [Drained, channel_oneRing]
  exact hnone hnil

/-- Polled batch after batch or at once, a ring gives the same. -/
theorem Single.Batched.content_eq {summaries' : List Intake.Summary}
    {rounds' : List (List (UInt32 × Bytes) × List Ring.Action)} {records' : List MergedRecord}
    (h : Batched (oneRing lane intake) batches summaries rounds records)
    (h' : Batched (oneRing lane intake) [batches.flatten] summaries' rounds' records')
    (hroom : HasRoom lane batches.flatten) (hnone : batches = [] → ReadOut lane) :
    records.map Intake.content = records'.map Intake.content := by
  -- Everything at once is a single round, which the consumer ends with its finale.
  rcases List.map_eq_singleton_iff.mp h'.rounds_eq with ⟨⟨written, finale⟩, rfl, rfl⟩
  have hflatten : rounds.flatMap Prod.fst = batches.flatten := by
    rw [List.flatMap_def, h.rounds_eq]
  have hdrained := h.drained_oneRing hnone
  have hdrained' := h'.drained fun hnil => absurd hnil (List.cons_ne_nil _ _)
  rw [Drained, h.channel_eq, channel_oneRing] at hdrained
  rw [Drained, h'.channel_eq, channel_oneRing, List.flatMap_singleton] at hdrained'
  rw [HasRoom] at hroom
  have hcontents := h.map_content
  have hcontents' := h'.map_content
  rw [List.flatMap_singleton] at hcontents'
  rw [← hflatten] at hroom hdrained' hcontents'
  have hpopped := lane.sound.popped_rounds h.reading
    (h'.reading _ (List.mem_singleton_self _)) hroom hdrained hdrained'
  rw [hpopped, ← hcontents'] at hcontents
  rw [← List.forall₂_eq_eq_eq, List.forall₂_map_left_iff, List.forall₂_map_right_iff]
    at hcontents ⊢
  exact hcontents.imp fun _ _ => Except.ok.inj

/-- Everything that the ring accepted is taken out of it, read back. -/
theorem Single.Batched.batchesFold
    (h : Batched (oneRing lane intake) batches summaries rounds records)
    (hnone : batches = [] → ReadOut lane) : BatchesFold lane intake batches records := by
  have hreadBack := h.single.readBack (h.drained_oneRing hnone)
  rw [h.merged_oneRing, h.origins_eq, origin_oneRing] at hreadBack
  exact ⟨hreadBack, h.intake_eq, h.emitted_eq, summaries, h.reports_eq, h.total_eq⟩

/-- Polls of batches and one poll of all of them agree. -/
theorem Single.Batched.agree {summaries' : List Intake.Summary}
    {rounds' : List (List (UInt32 × Bytes) × List Ring.Action)} {records' : List MergedRecord}
    (h : Batched (oneRing lane intake) batches summaries rounds records)
    (h' : Batched (oneRing lane intake) [batches.flatten] summaries' rounds' records')
    (hroom : HasRoom lane batches.flatten) (hnone : batches = [] → ReadOut lane) :
    Agree ((oneRing lane intake).pollBatches batches)
      ((oneRing lane intake).pollBatches [batches.flatten]) := by
  have hcontent := h.content_eq h' hroom hnone
  have hdigested : (oneRing lane intake).intake.digested records =
      (oneRing lane intake).intake.digested records' := by
    rw [Intake.digested, hcontent]
    rfl
  rcases List.map_eq_singleton_iff.mp h'.reports_eq.symm with ⟨summary, rfl, -⟩
  have htotal : Intake.Summary.total [summary] = Intake.Summary.total summaries := by
    rw [h'.total_eq, h.total_eq, hdigested]
  rw [Intake.Summary.total_cons, Intake.Summary.total_nil, Intake.Summary.add_empty] at htotal
  exact
    { intake_eq := by rw [h.intake_eq, h'.intake_eq, hdigested]
      emitted_eq := by rw [h.emitted_eq, h'.emitted_eq, hdigested]
      reports := ⟨summaries, h.reports_eq, by rw [h'.reports_eq, htotal]; rfl⟩ }

end OneRing

/-- A poll of one or more rings is the fold of what it takes out of them, a merge of what
was published and not yet consumed, whatever the records hold.  Batches that are published
to one ring and polled one after the other are the fold of all that the ring accepts.
Therefore batching is unobservable: if there is room to publish and poll them at once, they
come to the same. -/
theorem batching_unobservable :
    (∀ (intake : Intake) (readers : Array Reader) (memory : Memory), readers ≠ #[] →
      ∃ records, PollFolds intake readers memory records) ∧
    (∀ (intake : Intake) (actions : List Action) (ring : Nat),
      ring < (({ intake := intake } : Feed).run actions).net.merger.readers.size →
      List.Forall₂ Ring.Record.ReadsBack
        ((({ intake := intake } : Feed).run actions).net.unread ring)
        ((Merger.queues (({ intake := intake } : Feed).run actions).net.merger.readers
          (({ intake := intake } : Feed).run actions).net.memory ring).map fun record =>
            .ok (Intake.content record))) ∧
    (∀ (lane : Lane) (intake : Intake) (batches : List (List (UInt32 × Bytes))),
      (batches = [] → ReadOut lane) →
      (∃ records, BatchesFold lane intake batches records) ∧
      (HasRoom lane batches.flatten →
        Agree ((oneRing lane intake).pollBatches batches)
          ((oneRing lane intake).pollBatches [batches.flatten]))) := by
  refine ⟨?_, ?_, ?_⟩
  · intro intake readers memory hrings
    exact exists_pollFolds intake memory hrings
  · intro intake actions ring hlt
    have hstart : ({ intake := intake } : Feed).net.Sound := Network.sound_empty
    exact (net_run hstart actions).queues_readBack hlt
  · intro lane intake batches hnone
    rcases (single_oneRing lane intake).batched batches with ⟨summaries, rounds, records, h⟩
    rcases (single_oneRing lane intake).batched [batches.flatten] with
      ⟨summaries', rounds', records', h'⟩
    refine ⟨⟨records, h.batchesFold hnone⟩, ?_⟩
    intro hroom
    exact h.agree h' hroom hnone

/-- A ring with room for records of all kinds, bound and not used yet. -/
def wide : Lane where
  region := (Ring.Region.zeroed 1400 0 4 64).store Ring.Metadata.dataOffsetOffset
    (Bytes.ofWord64 1072)
  view := { dataStart := 1072, capacity := 256, readPos := 0, writePos := 0 }
  actions := []
  attach := by decide +kernel
  idle := by decide +kernel

/-- An identifier is bound before the first measurement.  Samples are lost, something cannot be
decoded and the identifier is released before the second. -/
def oneByOne : List (List (UInt32 × Bytes)) :=
  [[(sampleRecordType, Message.encodeRmidAlloc
        { timestamp := 18446744073709551610, rmid := 7, command := CommandName.ofBytes [97],
          processGroup := 1 }),
      (sampleRecordType, Message.encodeMeasurement early)],
    [(lostRecordType, Message.encodeLostNotice { id := 0, lost := 40 }),
      (sampleRecordType, [1, 2, 3]),
      (sampleRecordType, Message.encodeRmidFree { timestamp := 3, rmid := 7 })],
    [(sampleRecordType, Message.encodeMeasurement late)]]

/-- Three polls, of which the last evicts slots, with the identifier known and released by then,
agree with one poll over the records of all kinds. -/
theorem batching_unobservable_oneByOne :
    let feed := oneRing wide { window := { shape := decades } }
    let published := feed.publish oneByOne.flatten
    let batched := feed.pollBatches oneByOne
    published.net.merger.readers ≠ #[] ∧ (oneByOne = [] → ReadOut wide) ∧
      HasRoom wide oneByOne.flatten ∧
      batched.1 =
        [.ok { records := 2, measurements := 1 },
          .ok { records := 3, lostSamples := 40, decodeErrors := 1 },
          .ok { records := 1, measurements := 1, slotsEmitted := 2 }] ∧
      batched.2.intake.tally =
        { measurements := 2, rmidAllocs := 1, rmidFrees := 1, lostNotices := 1,
          lostSamples := 40, decodeErrors := 1 } ∧
      batched.2.emitted.map (fun emission =>
          (emission.slot.startTime, (emission.roster.get? 7).map Roster.Label.valid)) =
        [(18446744073709551596, some false), (18446744073709551606, some false)] ∧
      (∃ records, PollFolds published.intake published.net.merger.readers
        published.net.memory records) ∧
      (∃ records, BatchesFold wide { window := { shape := decades } } oneByOne records) ∧
      Agree batched (feed.pollBatches [oneByOne.flatten]) := by
  intro feed published batched
  have hrings : published.net.merger.readers ≠ #[] := by decide +kernel
  have hnone : oneByOne = [] → ReadOut wide := fun hnil => absurd hnil (List.cons_ne_nil _ _)
  have hroom : HasRoom wide oneByOne.flatten := by decide +kernel
  obtain ⟨hpoll, -, hbatches⟩ := batching_unobservable
  obtain ⟨hfolds, hagree⟩ := hbatches wide { window := { shape := decades } } oneByOne hnone
  refine ⟨hrings, hnone, hroom, ?_, ?_, ?_, hpoll _ _ _ hrings, hfolds, hagree hroom⟩
  · decide +kernel
  · decide +kernel
  · decide +kernel

end Feed

end CacheMeter
