import Mathlib
import CacheMeter.Proofs.Intake.Batching
import CacheMeter.Proofs.Intake.Succession
import CacheMeter.Proofs.Roster.Ledger

/-!
# Slots labelled with the metadata of their time

Three orders meet when a slot is emitted: that in which records come out of the rings, that of
the updates' timestamps, and that of the ends of measurements.  The roster handed on with the
slot has heard the updates that came before the measurement, and of those it has applied the
ones that lie before its end.  An update that comes late takes effect with the next measurement,
and a measurement that comes late takes nothing back, so what is in effect reaches up to the
latest end so far and never beyond.

Main results:

- Structure `Roster.Heard`: what a roster was told, split into what is in effect and what waits.
- Theorem `Intake.heard_digested`: what the roster has heard of the records consumed.
- Theorem `Intake.labels_current`: the labels of every slot that polls emit, and of those that
  draining does.
-/

namespace CacheMeter

open Merge Timeline

/-! ## What has taken effect -/

namespace Roster

/-- The labels after news took effect, one after the other. -/
def labelsOf (applied : List News) : Table Label :=
  (applied.map News.pending).foldl (fun labels item => item.update.apply labels) Table.empty

/-- A roster that heard news and moved on to times, with the ledger of what took effect. -/
structure Heard (base : UInt64) (news : List News) (times : List UInt64) (roster : Roster)
    (ledger : Ledger) : Prop where
  agrees : Agrees base roster ledger
  labels_eq : roster.labels = labelsOf ledger.applied
  /-- Everything it heard is in effect or waits, … -/
  perm : (ledger.applied ++ ledger.waiting).Perm news
  /-- … and what is in effect lies before one of the times. -/
  before : ∀ first ∈ ledger.applied, ∃ time ∈ times,
    offset base first.timestamp < offset base time

variable {base : UInt64} {news : List News} {times : List UInt64} {roster : Roster}
  {ledger : Ledger}

/-- The empty roster has heard nothing. -/
theorem heard_empty (base : UInt64) : Heard base [] [] Roster.empty {} where
  agrees := agrees_empty base
  labels_eq := rfl
  perm := .refl []
  before := by simp

namespace Heard

/-- What is heard is added to the news. -/
theorem hear (h : Heard base news times roster ledger) {first : News}
    (hhalf : offset base first.timestamp < halfTurn) :
    Heard base (news ++ [first]) times (roster.hear first) (ledger.step base (.hear first)) where
  agrees := h.agrees.hear hhalf
  labels_eq := by
    rw [hear_eq]
    exact h.labels_eq
  perm := by
    rw [Ledger.step, ← List.append_assoc]
    exact h.perm.append_right [first]
  before := h.before

/-- To advance adds a time. -/
theorem advance (h : Heard base news times roster ledger) {time : UInt64}
    (hhalf : offset base time < halfTurn) :
    Heard base news (times ++ [time]) (roster.advance time).2
      (ledger.step base (.advance time)) where
  agrees := h.agrees.advance hhalf
  labels_eq := by
    have hbefore : ∀ other : News,
        other.pending.isBefore base time = other.isBefore base time := by
      intro other
      simp [Pending.isBefore, News.isBefore]
    rw [h.agrees.advance_eq hhalf, h.agrees.filter_before _ _ hbefore, h.labels_eq, Ledger.step,
      labelsOf, labelsOf, List.map_append, List.foldl_append]
  perm := by
    have hsplit := List.filter_append_perm (News.isBefore base time) ledger.waiting
    rw [Ledger.step, List.append_assoc]
    exact (((perm_timely base _).append_right _).trans hsplit).append_left _ |>.trans h.perm
  before := by
    intro first hmem
    rcases List.mem_append.mp hmem with hmem | hmem
    · obtain ⟨earlier, hin, hlt⟩ := h.before first hmem
      exact ⟨earlier, List.mem_append_left _ hin, hlt⟩
    · have hfirst := List.of_mem_filter ((perm_timely base _).mem_iff.mp hmem)
      exact ⟨time, by simp, of_decide_eq_true hfirst⟩

/-- Once a roster has moved on, what waits does not lie before the time. -/
theorem waiting_advance (ledger : Ledger) {time : UInt64} {first : News}
    (hmem : first ∈ (ledger.step base (.advance time)).waiting) :
    offset base time ≤ offset base first.timestamp := by
  have hnot := List.of_mem_filter hmem
  simpa [News.isBefore] using hnot

end Heard

end Roster

namespace Intake

/-! ## Records and the roster -/

/-- The news about an identifier that a record holds. -/
def news? (record : MergedRecord) : Option Roster.News :=
  match Message.decodeRecord record.recordType record.payload with
  | .ok (.rmidAlloc update) => some (.alloc update)
  | .ok (.rmidFree update) => some (.free update)
  | _ => none

/-- What a record does to the roster: an accepted measurement moves it on, news are queued, and
any other record leaves it alone. -/
def rosterCall? (record : MergedRecord) : Option Roster.Call :=
  match accepted? record with
  | some m => some (.advance m.endTime)
  | none => (news? record).map .hear

/-- The timestamp by which a record has its place on the timeline. -/
def stamp? (record : MergedRecord) : Option UInt64 :=
  (rosterCall? record).bind Roster.Call.timestamp?

/-- The ledger of the news that records hold. -/
def ledgerOf (base : UInt64) (records : List MergedRecord) : Roster.Ledger :=
  Roster.Ledger.run base {} (records.filterMap rosterCall?)

variable {record : MergedRecord} {m : Measurement}

/-- A measurement that is accepted was decoded, and is short enough. -/
theorem decode_of_accepted (h : accepted? record = some m) :
    Message.decodeRecord record.recordType record.payload = .ok (.measurement m) ∧
      m.duration.toNat < halfTurn := by
  unfold accepted? at h
  cases hdecode : Message.decodeRecord record.recordType record.payload with
  | error cause => simp [hdecode] at h
  | ok message =>
    cases message with
    | measurement other =>
      simp only [hdecode] at h
      split at h
      · next hok =>
        obtain rfl := Option.some.inj h
        exact ⟨rfl, checkMeasurement_eq_ok_iff.mp hok⟩
      · cases h
    | lost | rmidAlloc | rmidFree => simp [hdecode] at h

/-- A measurement is no news. -/
theorem news?_of_accepted (h : accepted? record = some m) : news? record = none := by
  simp only [news?, (decode_of_accepted h).1]

namespace Pass

/-- It is counted and taken in. -/
theorem digest_of_accepted (pass : Pass) (h : accepted? record = some m) :
    pass.digest (content record) = (pass.count .measurement).takeIn m := by
  obtain ⟨hdecode, hshort⟩ := decode_of_accepted h
  simp only [digest_eq, content, hdecode, if_pos hshort]

/-- A record that is no accepted measurement emits nothing, and tells the roster its news. -/
theorem digest_of_not_accepted (pass : Pass) (h : accepted? record = none) :
    (pass.digest (content record)).emitted = pass.emitted ∧
      (pass.digest (content record)).intake.roster =
        ((news? record).map pass.intake.roster.hear).getD pass.intake.roster := by
  unfold accepted? at h
  rw [digest_eq, content, news?]
  cases hdecode : Message.decodeRecord record.recordType record.payload with
  | error cause => exact ⟨rfl, rfl⟩
  | ok message =>
    cases message with
    | measurement other =>
      have hlong : ¬ other.duration.toNat < halfTurn := by
        intro hshort
        simp [hdecode, checkMeasurement_eq_ok_iff.mpr hshort] at h
      simp only [if_neg hlong]
      exact ⟨rfl, rfl⟩
    | lost | rmidAlloc | rmidFree => exact ⟨rfl, rfl⟩

/-- One more record heard. -/
theorem heard_digest {base : UInt64} {news : List Roster.News} {times : List UInt64}
    {ledger : Roster.Ledger} (pass : Pass)
    (h : Roster.Heard base news times pass.intake.roster ledger)
    (hhalf : ∀ time ∈ stamp? record, offset base time < halfTurn) :
    Roster.Heard base (news ++ (news? record).toList)
      (times ++ ((accepted? record).map Measurement.endTime).toList)
      (pass.digest (content record)).intake.roster
      (Roster.Ledger.run base ledger (rosterCall? record).toList) := by
  unfold stamp? rosterCall? at hhalf
  unfold rosterCall?
  cases haccepted : accepted? record with
  | some m =>
    rw [haccepted] at hhalf
    rw [pass.digest_of_accepted haccepted, news?_of_accepted haccepted, Option.toList_none,
      List.append_nil]
    exact h.advance (hhalf _ rfl)
  | none =>
    rw [haccepted] at hhalf
    rw [(pass.digest_of_not_accepted haccepted).2]
    cases hnews : news? record with
    | none =>
      rw [Option.toList_none, Option.map_none, Option.map_none, Option.toList_none,
        List.append_nil, List.append_nil]
      exact h
    | some first =>
      rw [hnews] at hhalf
      rw [Option.map_none, Option.toList_none, List.append_nil]
      exact h.hear (hhalf _ rfl)

end Pass

/-! ## The records of any polls -/

/-- The last record is digested last. -/
theorem digested_concat (intake : Intake) (earlier : List MergedRecord) (record : MergedRecord) :
    intake.digested (earlier ++ [record]) =
      (intake.digested earlier).digest (content record) := by
  simp [digested, Pass.digestAll]

theorem filterMap_concat {α β : Type} (f : α → Option β) (earlier : List α) (last : α) :
    (earlier ++ [last]).filterMap f = earlier.filterMap f ++ (f last).toList := by
  cases h : f last <;> simp [h]

theorem ledgerOf_concat (base : UInt64) (earlier : List MergedRecord) (record : MergedRecord) :
    ledgerOf base (earlier ++ [record]) =
      Roster.Ledger.run base (ledgerOf base earlier) (rosterCall? record).toList := by
  rw [ledgerOf, filterMap_concat, Roster.Ledger.run, List.foldl_append]
  rfl

/-- An accepted measurement moves the ledger on. -/
theorem ledgerOf_of_accepted (base : UInt64) (earlier : List MergedRecord)
    (h : accepted? record = some m) :
    ledgerOf base (earlier ++ [record]) =
      (ledgerOf base earlier).step base (.advance m.endTime) := by
  rw [ledgerOf_concat, rosterCall?, h]
  rfl

/-- What the roster has heard of the records consumed. -/
theorem heard_digested {base : UInt64} (window : Window) (tally : Tally)
    {records : List MergedRecord}
    (hhalf : ∀ record ∈ records, ∀ time ∈ stamp? record, offset base time < halfTurn) :
    Roster.Heard base (records.filterMap news?)
      ((records.filterMap accepted?).map Measurement.endTime)
      (Intake.digested { window := window, tally := tally } records).intake.roster
      (ledgerOf base records) := by
  induction records using List.reverseRecOn with
  | nil => exact Roster.heard_empty base
  | append_singleton earlier record ih =>
    have hearlier := ih fun other hmem => hhalf other (List.mem_append_left _ hmem)
    have hlast := Pass.heard_digest _ hearlier (hhalf record (by simp))
    rw [digested_concat, ledgerOf_concat, filterMap_concat, filterMap_concat, List.map_append]
    cases haccepted : accepted? record <;> rw [haccepted] at hlast <;> exact hlast

/-- The records that polls take out, in the order in which they do. -/
def consumed (polls : List (Array Reader × Memory)) : List MergedRecord :=
  polls.flatMap fun (readers, memory) => (Merger.batch readers memory).records

/-- Polls one after the other are one pass over the records that they take out. -/
theorem pollAll_eq_digested (intake : Intake) (polls : List (Array Reader × Memory)) :
    intake.pollAll polls =
      ((intake.digested (consumed polls)).emitted, (intake.digested (consumed polls)).intake) := by
  induction polls generalizing intake with
  | nil => rfl
  | cons poll rest ih =>
    rcases poll with ⟨readers, memory⟩
    have hconsumed : consumed ((readers, memory) :: rest) =
        (Merger.batch readers memory).records ++ consumed rest := rfl
    rw [hconsumed, digested_append, pollAll, ih]
    by_cases hrings : readers = #[]
    · obtain ⟨hintake, -, -, hemitted⟩ := Feed.poll_of_isEmpty intake memory hrings
      rw [hintake, hemitted, hrings, records_batch_noReaders]
      rfl
    · rw [intake.poll_eq_digested memory hrings]
      rfl

/-! ## Labels -/

/-- The roster that is handed on with the slots a measurement pushes out, after the records
consumed earlier. -/
structure Current (earlier : List MergedRecord) (m : Measurement) (roster : Roster)
    (applied waiting : List Roster.News) : Prop where
  labels_eq : roster.labels = Roster.labelsOf applied
  queue_perm : roster.queue.Perm (waiting.map Roster.News.pending)
  /-- Every update consumed earlier is in effect or waits, once, and no other is. -/
  perm : (applied ++ waiting).Perm (earlier.filterMap news?)
  /-- Those stamped before the end of the measurement are in effect. -/
  applied_of_before : ∀ news ∈ earlier.filterMap news?,
    displacement news.timestamp m.endTime < 0 → news ∈ applied
  not_before : ∀ news ∈ waiting, 0 ≤ displacement news.timestamp m.endTime
  /-- Those in effect are stamped before the latest end so far. -/
  before_latest : ∃ latest ∈ earlier.filterMap accepted? ++ [m],
    (∀ other ∈ earlier.filterMap accepted? ++ [m],
        displacement other.endTime latest.endTime ≤ 0) ∧
      ∀ news ∈ applied, displacement news.timestamp latest.endTime < 0

/-- What a record does to slots and roster after the records consumed earlier. -/
structure Labelled (start : Intake) (earlier : List MergedRecord) (record : MergedRecord) :
    Prop where
  /-- The slots that an accepted measurement pushes out are emitted with a current roster. -/
  accepted : ∀ m, accepted? record = some m →
    ∃ (slots : List Slot) (applied waiting : List Roster.News),
    (start.digested (earlier ++ [record])).emitted = (start.digested earlier).emitted ++
        slots.map (fun slot =>
          { slot := slot, roster := (start.digested (earlier ++ [record])).intake.roster }) ∧
      Current earlier m (start.digested (earlier ++ [record])).intake.roster applied waiting
  /-- Any other record emits nothing and puts nothing into effect, … -/
  not_accepted : accepted? record = none →
    (start.digested (earlier ++ [record])).emitted = (start.digested earlier).emitted ∧
      (start.digested (earlier ++ [record])).intake.roster.labels =
        (start.digested earlier).intake.roster.labels
  /-- … and one that holds no update either leaves the roster as it is. -/
  no_news : accepted? record = none → news? record = none →
    (start.digested (earlier ++ [record])).intake.roster = (start.digested earlier).intake.roster

/-- Of any measurements, one ends last. -/
theorem exists_latest (base : UInt64) {measurements : List Measurement}
    (hne : measurements ≠ []) :
    ∃ latest ∈ measurements, ∀ other ∈ measurements,
      offset base other.endTime ≤ offset base latest.endTime := by
  obtain ⟨latest, hmem, hlast⟩ := measurements.toFinset.exists_max_image
    (fun m => offset base m.endTime) (by simpa using hne)
  exact ⟨latest, by simpa using hmem, fun other hother => hlast other (by simpa using hother)⟩

/-- The stamp of an accepted measurement is its end, … -/
theorem stamp?_of_accepted {record : MergedRecord} {m : Measurement}
    (h : accepted? record = some m) : stamp? record = some m.endTime := by
  simp [stamp?, rosterCall?, h, Roster.Call.timestamp?]

/-- … and that of an update its timestamp. -/
theorem stamp?_of_news {record : MergedRecord} {news : Roster.News}
    (h : news? record = some news) : stamp? record = some news.timestamp := by
  have hnot : accepted? record = none := by
    by_contra hsome
    obtain ⟨m, hm⟩ := Option.ne_none_iff_exists'.mp hsome
    rw [news?_of_accepted hm] at h
    cases h
  simp [stamp?, rosterCall?, h, hnot, Roster.Call.timestamp?]

/-- Right after a measurement was accepted the roster is current. -/
theorem current_of_heard {base : UInt64} {earlier : List MergedRecord} {m : Measurement}
    {roster : Roster} {ledger : Roster.Ledger}
    (hnews : ∀ news ∈ earlier.filterMap news?, offset base news.timestamp < halfTurn)
    (hends : ∀ other ∈ earlier.filterMap accepted? ++ [m], offset base other.endTime < halfTurn)
    (h : Roster.Heard base (earlier.filterMap news?)
      ((earlier.filterMap accepted? ++ [m]).map Measurement.endTime) roster ledger)
    (hwaiting : ∀ news ∈ ledger.waiting, offset base m.endTime ≤ offset base news.timestamp) :
    Current earlier m roster ledger.applied ledger.waiting := by
  have hend : offset base m.endTime < halfTurn := hends m (by simp)
  have hheard : ∀ news ∈ ledger.applied ++ ledger.waiting,
      offset base news.timestamp < halfTurn :=
    fun news hmem => hnews news (h.perm.mem_iff.mp hmem)
  have hnot : ∀ news ∈ ledger.waiting, 0 ≤ displacement news.timestamp m.endTime := by
    intro news hmem
    rw [displacement_eq_offset_of_lt (hheard news (List.mem_append_right _ hmem)) hend]
    have hle := hwaiting news hmem
    omega
  refine ⟨h.labels_eq, ?_, h.perm, ?_, hnot, ?_⟩
  · rw [h.agrees.queue_eq]
    exact (Roster.perm_timely base _).map _
  · intro news hmem hbefore
    rcases List.mem_append.mp (h.perm.mem_iff.mpr hmem) with happlied | hwaits
    · exact happlied
    · exact absurd hbefore (not_lt.mpr (hnot news hwaits))
  · obtain ⟨latest, hmem, hlast⟩ := exists_latest base
      (show earlier.filterMap accepted? ++ [m] ≠ [] by simp)
    refine ⟨latest, hmem, ?_, ?_⟩
    · intro other hother
      rw [displacement_eq_offset_of_lt (hends other hother) (hends latest hmem)]
      have hle := hlast other hother
      omega
    · intro news happlied
      obtain ⟨time, htime, hlt⟩ := h.before news happlied
      obtain ⟨other, hother, rfl⟩ := List.mem_map.mp htime
      rw [displacement_eq_offset_of_lt (hheard news (List.mem_append_left _ happlied))
        (hends latest hmem)]
      have hle := hlast other hother
      omega

theorem labelled_of_half {base : UInt64} (window : Window) (tally : Tally)
    {earlier : List MergedRecord} {record : MergedRecord}
    (hhalf : ∀ other ∈ earlier ++ [record], ∀ time ∈ stamp? other,
      offset base time < halfTurn) :
    Labelled { window := window, tally := tally } earlier record where
  accepted m haccepted := by
    have hheard := heard_digested window tally hhalf
    rw [filterMap_concat, filterMap_concat, news?_of_accepted haccepted, haccepted,
      Option.toList_none, List.append_nil, Option.toList_some] at hheard
    refine ⟨(Window.ingest (digested { window := window, tally := tally } earlier).intake.window
      m).1, _, _, ?_, current_of_heard ?_ ?_ hheard ?_⟩
    · rw [digested_concat, Pass.digest_of_accepted _ haccepted]
      rfl
    · intro news hmem
      obtain ⟨other, hother, hnews⟩ := List.mem_filterMap.mp hmem
      exact hhalf other (List.mem_append_left _ hother) _ (stamp?_of_news hnews)
    · intro other hmem
      rcases List.mem_append.mp hmem with hmem | hmem
      · obtain ⟨source, hsource, hother⟩ := List.mem_filterMap.mp hmem
        exact hhalf source (List.mem_append_left _ hsource) _ (stamp?_of_accepted hother)
      · rw [List.mem_singleton.mp hmem]
        exact hhalf record (by simp) _ (stamp?_of_accepted haccepted)
    · rw [ledgerOf_of_accepted base earlier haccepted]
      exact fun news hmem => Roster.Heard.waiting_advance _ hmem
  not_accepted hnot := by
    obtain ⟨hemitted, hroster⟩ := Pass.digest_of_not_accepted
      (digested { window := window, tally := tally } earlier) hnot
    rw [digested_concat]
    refine ⟨hemitted, ?_⟩
    rw [hroster]
    cases news? record with
    | none => rfl
    | some news => rw [Option.map_some, Option.getD_some, Roster.hear_eq]
  no_news hnot hnone := by
    rw [digested_concat, (Pass.digest_of_not_accepted _ hnot).2, hnone]
    rfl

/-- Polls label every slot with the metadata of its time, and draining those that are left. -/
structure InTime (start : Intake) (polls : List (Array Reader × Memory)) : Prop where
  /-- What the polls do is what their records do, one after the other, … -/
  pollAll_eq : start.pollAll polls =
    ((start.digested (consumed polls)).emitted, (start.digested (consumed polls)).intake)
  /-- … each of them labelling the slots that it pushes out. -/
  labelled : ∀ earlier record later, consumed polls = earlier ++ record :: later →
    Labelled start earlier record
  drained : ∀ emission ∈ (start.pollAll polls).2.drain.1,
    emission.roster = (start.pollAll polls).2.roster
  roster_drain : (start.pollAll polls).2.drain.2.roster = (start.pollAll polls).2.roster

/-- Slots are labelled with the metadata of their time.  As long as all timestamps lie in one
half of the circle, whatever rings are polled and how often: the roster handed on with the slots
that a measurement pushes out has applied the updates consumed before it that are stamped before
its end, and none that is stamped at or after the latest end so far or comes later.  Records that
are skipped leave the roster alone, and draining hands it on as it is. -/
theorem labels_current (base : UInt64) (window : Window) (tally : Tally)
    (polls : List (Array Reader × Memory))
    (hhalf : ∀ record ∈ consumed polls, ∀ time ∈ stamp? record, (time - base).toNat < 2 ^ 63) :
    InTime { window := window, tally := tally } polls where
  pollAll_eq := pollAll_eq_digested _ polls
  labelled := by
    intro earlier record later hsplit
    refine labelled_of_half window tally fun other hmem => hhalf other ?_
    rw [hsplit, List.append_cons]
    exact List.mem_append_left _ hmem
  drained := by
    intro emission hmem
    obtain ⟨slot, -, rfl⟩ := List.mem_map.mp hmem
    rfl
  roster_drain := rfl

/-- An identifier is bound before the first measurement.  Its release comes in late, after a
measurement that ends long after it. -/
def belated : List Feed.Action :=
  [.attach Feed.narrow,
    .produce 0 (.write
      (Message.encodeRmidAlloc
        { timestamp := 18446744073709551610, rmid := 7, command := CommandName.ofBytes [97],
          processGroup := 1 }) sampleRecordType),
    .produce 0 (.write (Message.encodeMeasurement Feed.early) sampleRecordType),
    .produce 0 .finishWrite,
    .poll,
    .produce 0 .startWrite,
    .produce 0 (.write (Message.encodeMeasurement Feed.late) sampleRecordType),
    .produce 0 (.write (Message.encodeRmidFree { timestamp := 3, rmid := 7 }) sampleRecordType),
    .produce 0 .finishWrite]

/-- The polls after the first publication and after the second. -/
def belatedPolls : List (Array Reader × Memory) :=
  [found (belated.take 4), found belated]

/-- The binding is in effect when the second measurement pushes slots out, and the release waits
for a third. -/
theorem labels_current_belated :
    (∀ record ∈ consumed belatedPolls, ∀ time ∈ stamp? record,
        (time - 18446744073709551600).toNat < 2 ^ 63) ∧
      InTime { window := { shape := Feed.decades } } belatedPolls ∧
      ∃ emitted last,
        ({ window := { shape := Feed.decades } } : Intake).pollAll belatedPolls =
            (emitted, last) ∧
          emitted.map (fun emission =>
              (emission.slot.startTime, (emission.roster.get? 7).isSome)) =
            [(18446744073709551596, true), (18446744073709551606, true)] ∧
          last.roster.pending = 1 := by
  have hstamps : (consumed belatedPolls).map stamp? =
      [some 18446744073709551610, some 5, some 25, some 3] := by
    decide +kernel
  have hhalf : ∀ record ∈ consumed belatedPolls, ∀ time ∈ stamp? record,
      (time - 18446744073709551600).toNat < 2 ^ 63 := by
    intro record hmem time htime
    have hin := List.mem_map_of_mem (f := stamp?) hmem
    rw [hstamps, Option.mem_def.mp htime] at hin
    simp only [List.mem_cons, Option.some.injEq, List.not_mem_nil, or_false] at hin
    rcases hin with rfl | rfl | rfl | rfl <;> decide
  refine ⟨hhalf, labels_current 18446744073709551600 _ Tally.zero belatedPolls hhalf, _, _, rfl,
    ?_, ?_⟩
  · decide +kernel
  · decide +kernel

end Intake

end CacheMeter
