import Mathlib
import CacheMeter.Proofs.Bytes.Subparts
import CacheMeter.Proofs.Intake.Labels
import CacheMeter.Proofs.Message.RoundTrip

/-!
# Names on their way to the roster

A process is known by the name that came with the binding of its identifier.  The name is written
as bytes of a fixed number, and these pass through a ring, the merger and the queue of the roster
before they are read as text.  A name that fits comes out as it went in.  Any other bytes still
read as some text without NUL, and what stands behind the first NUL is not part of it.

Main results:

- Theorem `Feed.intake_run`: after any steps the intake is what the records consumed make of it.
- Structure `CommandName.Legible`: what is read from any sixteen bytes.
- Theorem `Feed.names_survive`: a name on its way through a ring to the roster.
-/

namespace CacheMeter

open Merge Timeline

/-! ## Sixteen bytes -/

namespace CommandName

/-- What is read from the bytes of a name. -/
structure Legible (name : CommandName) : Prop where
  /-- What stands behind the first NUL does not matter. -/
  text_eq : ∀ other : CommandName,
    other.toList.takeWhile (fun byte => byte ≠ 0) = name.toList.takeWhile (fun byte => byte ≠ 0) →
      other.text = name.text
  nul_notMem : '\x00' ∉ name.text.toList
  /-- The bytes before it are read in one way, and U+FFFD stands for each ill-formed subpart. -/
  reads : ∃! pieces, Bytes.Reads (name.toList.takeWhile fun byte => byte ≠ 0) pieces ∧
    name.text = String.ofList (pieces.map fun piece => piece.getD '\uFFFD')

theorem legible (name : CommandName) : name.Legible where
  text_eq _ := text_eq_of_takeWhile_eq
  nul_notMem := by
    refine Bytes.nul_notMem_decodeLossy fun hzero => ?_
    simpa using List.mem_takeWhile_imp hzero
  reads := by
    refine ⟨name.visible.pieces, ⟨Bytes.reads_iff.mpr rfl, rfl⟩, ?_⟩
    rintro pieces ⟨hreads, -⟩
    exact (Bytes.reads_iff.mp hreads).symm

/-- The name of a process, padded with NUL. -/
def ofText (text : String) : CommandName :=
  ofBytes text.toUTF8.data.toList

theorem toList_ofBytes {bytes : Bytes} (h : bytes.length ≤ 16) :
    (ofBytes bytes).toList = bytes ++ List.replicate (16 - bytes.length) 0 := by
  apply List.ext_getElem
  · rw [Vector.length_toList, List.length_append, List.length_replicate]
    omega
  · intro i hi hi'
    rw [List.getElem_append]
    split_ifs with hlt <;> simp [ofBytes, hlt]

/-- A name that fits reads as it was written. -/
theorem text_ofText {text : String} (hnul : '\x00' ∉ text.toList)
    (hlength : text.utf8ByteSize ≤ 16) : (ofText text).text = text := by
  have hsize : text.toUTF8.data.toList.length ≤ 16 := hlength
  have hvisible : (ofText text).visible = text.toUTF8.data.toList := by
    rw [visible, ofText, toList_ofBytes hsize, List.takeWhile_append_of_pos]
    · simp
    · intro byte hmem
      exact decide_eq_true fun hzero => Bytes.zero_notMem_toUTF8 hnul (hzero ▸ hmem)
  rw [CommandName.text, hvisible, Bytes.decodeLossy_toUTF8]

end CommandName

/-! ## What takes effect -/

namespace Roster

/-- The identifier that news are about. -/
def News.rmid : News → UInt32
  | .alloc update => update.rmid
  | .free update => update.rmid

/-- A binding in effect names the process if no other news are about its identifier. -/
theorem Heard.get?_eq {base : UInt64} {news : List News} {times : List UInt64} {roster : Roster}
    {ledger : Ledger} (h : Heard base news times roster ledger) {update : RmidAlloc}
    (happlied : News.alloc update ∈ ledger.applied)
    (honly : ∀ other ∈ news, other.rmid = update.rmid → other = .alloc update) :
    roster.get? update.rmid =
      some
        { command := update.command.text
          processGroup := update.processGroup
          valid := true } := by
  have hnews : ∀ other ∈ ledger.applied, other.rmid = update.rmid → other = .alloc update :=
    fun other hmem => honly other (h.perm.mem_iff.mp (List.mem_append_left _ hmem))
  have hdescribes := h.agrees.describes update.rmid
  cases hlabel : roster.get? update.rmid with
  | none =>
    rw [hlabel] at hdescribes
    exact absurd rfl (hdescribes update happlied)
  | some label =>
    rw [hlabel] at hdescribes
    obtain ⟨earlier, last, later, happlied', hrmid, -, hcommand, hgroup, hvalid⟩ := hdescribes
    have hlast : News.alloc last = .alloc update := hnews _ (by simp [happlied']) hrmid
    obtain rfl := News.alloc.inj hlast
    have hnone : ∀ release : RmidFree, News.free release ∈ later → release.rmid ≠ last.rmid := by
      intro release hmem hsame
      have hfree := hnews (.free release) (by simp [happlied', hmem]) hsame
      exact absurd hfree nofun
    rw [← hcommand, ← hgroup, ← hvalid.mpr hnone]

end Roster

namespace Intake

variable {base : UInt64}

/-- What took effect stays in effect. -/
theorem applied_append (base : UInt64) (records more : List MergedRecord) :
    (ledgerOf base records).applied <+: (ledgerOf base (records ++ more)).applied := by
  induction more using List.reverseRecOn with
  | nil => rw [List.append_nil]
  | append_singleton more record ih =>
    rw [← List.append_assoc, ledgerOf_concat]
    refine ih.trans ?_
    unfold rosterCall?
    cases accepted? record with
    | some m => exact List.prefix_append _ _
    | none => cases news? record <;> exact List.prefix_rfl

/-- News take effect with any later measurement that ends after them. -/
theorem mem_applied {earlier later : List MergedRecord} {record : MergedRecord}
    {news : Roster.News} {m : Measurement}
    (hhalf : ∀ other ∈ earlier ++ record :: later, ∀ time ∈ stamp? other,
      offset base time < halfTurn)
    (hnews : news? record = some news) (hm : m ∈ later.filterMap accepted?)
    (hbefore : displacement news.timestamp m.endTime < 0) :
    news ∈ (ledgerOf base (earlier ++ record :: later)).applied := by
  obtain ⟨source, hsource, haccepted⟩ := List.mem_filterMap.mp hm
  obtain ⟨between, rest, rfl⟩ := List.append_of_mem hsource
  have hsplit : earlier ++ record :: (between ++ source :: rest) =
      (earlier ++ record :: between) ++ [source] ++ rest := by simp
  rw [hsplit] at hhalf ⊢
  have hheard := heard_digested default Tally.zero fun other hmem =>
    hhalf other (List.mem_append_left _ hmem)
  have htime : offset base news.timestamp < halfTurn :=
    hhalf record (by simp) _ (stamp?_of_news hnews)
  have hend : offset base m.endTime < halfTurn :=
    hhalf source (by simp) _ (stamp?_of_accepted haccepted)
  refine (applied_append base _ rest).subset ?_
  rcases List.mem_append.mp (hheard.perm.mem_iff.mpr (List.mem_filterMap.mpr
    ⟨record, by simp, hnews⟩)) with happlied | hwaits
  · exact happlied
  · rw [ledgerOf_of_accepted base _ haccepted] at hwaits
    have hle := Roster.Heard.waiting_advance _ hwaits
    rw [displacement_eq_offset_of_lt htime hend] at hbefore
    omega

end Intake

/-! ## Steps of a feed -/

namespace Feed

variable {feed : Feed}

/-- A poll takes records out of the rings, and the intake is what they make of it. -/
theorem exists_polled (h : feed.net.Sound) :
    ∃ records, feed.polled.net.merged = feed.net.merged ++ records ∧
      feed.polled.intake = (feed.intake.digested records).intake := by
  by_cases hrings : feed.net.merger.readers = #[]
  · obtain ⟨hintake, -⟩ := poll_of_isEmpty feed.intake feed.net.memory hrings
    refine ⟨[], ?_, hintake⟩
    rw [net_polled h, List.append_nil]
    exact (Network.polled_of_isEmpty hrings).2.2
  · refine ⟨(Merger.batch feed.net.merger.readers feed.net.memory).records, ?_, ?_⟩
    · rw [net_polled h]
      exact (h.polled_batch hrings).2.2
    · rw [polled, feed.intake.poll_eq_digested feed.net.memory hrings]

/-- A step takes records out of the rings, or none, and the intake is what they make of it. -/
theorem exists_step (h : feed.net.Sound) (action : Action) :
    ∃ records, (feed.step action).net.merged = feed.net.merged ++ records ∧
      (feed.step action).intake = (feed.intake.digested records).intake := by
  cases action with
  | attach lane => exact ⟨[], by rw [Feed.step, Network.merged_addRing, List.append_nil], rfl⟩
  | produce ring action =>
    exact ⟨[], by rw [Feed.step, Network.merged_produce, List.append_nil], rfl⟩
  | poll => exact exists_polled h

/-- Any steps take records out of the rings, and the intake is what they make of it. -/
theorem exists_run (h : feed.net.Sound) (actions : List Action) :
    ∃ records, (feed.run actions).net.merged = feed.net.merged ++ records ∧
      (feed.run actions).intake = (feed.intake.digested records).intake := by
  induction actions generalizing feed with
  | nil => exact ⟨[], (List.append_nil _).symm, rfl⟩
  | cons action rest ih =>
    obtain ⟨first, hmerged, hintake⟩ := exists_step h action
    obtain ⟨later, hmerged', hintake'⟩ := ih (net_step h action)
    refine ⟨first ++ later, ?_, ?_⟩
    · rw [← List.append_assoc, ← hmerged]
      exact hmerged'
    · rw [Intake.digested_append, Intake.Pass.andThen, ← hintake]
      exact hintake'

/-- After any steps the intake is what the records consumed make of it. -/
theorem intake_run (start : Intake) (actions : List Action) :
    (({ intake := start } : Feed).run actions).intake =
      (start.digested (({ intake := start } : Feed).run actions).net.merged).intake := by
  obtain ⟨records, hmerged, hintake⟩ :=
    @exists_run { intake := start } Network.sound_empty actions
  rw [hintake, hmerged]
  rfl

/-! ## What is published to a ring -/

/-- A record was published to a ring after it was added. -/
structure Published (feed : Feed) (ring number : Nat) (record : UInt32 × Bytes) : Prop where
  ring_lt : ring < feed.net.merger.readers.size
  origin_le : feed.net.origins.getD ring 0 ≤ number
  written : (feed.net.channel ring).journal.written[number]? = some record
  lt_published : number < (feed.net.channel ring).journal.published

/-- Of the records consumed, the one of a ring that has a given number. -/
structure Taken (merged : List MergedRecord) (origin ring number : Nat)
    (earlier : List MergedRecord) (record : MergedRecord) (later : List MergedRecord) : Prop where
  merged_eq : merged = earlier ++ record :: later
  ring_eq : record.ring = ring
  number_eq : number = origin + (earlier.filter fun other => other.ring = ring).length

/-- A member of a filtered list, by its place there, in its place in the list. -/
theorem exists_split_of_filter {α : Type} {p : α → Bool} {xs : List α} {i : Nat} {x : α}
    (h : (xs.filter p)[i]? = some x) :
    ∃ earlier later, xs = earlier ++ x :: later ∧ (earlier.filter p).length = i := by
  obtain ⟨hlt, hget⟩ := List.getElem?_eq_some_iff.mp h
  have hsplit : xs.filter p = (xs.filter p).take i ++ x :: (xs.filter p).drop (i + 1) := by
    rw [← hget, List.cons_getElem_drop_succ, List.take_append_drop]
  obtain ⟨front, back, rfl, hfront, hback⟩ := List.filter_eq_append_iff.mp hsplit
  obtain ⟨middle, later, rfl, hmiddle, -, -⟩ := List.filter_eq_cons_iff.mp hback
  refine ⟨front ++ middle, later, (List.append_assoc _ _ _).symm, ?_⟩
  have hnone : middle.filter p = [] := List.filter_eq_nil_iff.mpr hmiddle
  rw [List.filter_append, hnone, List.append_nil, hfront, List.length_take]
  omega

/-- A poll takes out every message that is published, and it is read as itself. -/
theorem Published.exists_taken {ring number : Nat} {message : Message}
    (h : Published feed ring number (message.recordType, message.encode))
    (hsound : feed.net.Sound) :
    ∃ earlier record later, Taken feed.polled.net.merged (feed.net.origins.getD ring 0) ring number
      earlier record later ∧
      Message.decodeRecord record.recordType record.payload = .ok message := by
  have hread := hsound.onlyRead_polled
  have hlt : ring < feed.net.polled.merger.readers.size := hread.size_eq ▸ h.ring_lt
  obtain ⟨actions, hreading, hchannel⟩ := hread.channel ring h.ring_lt
  obtain ⟨hwritten, hpublished⟩ := (feed.net.channel ring).written_run_reading hreading
  have hall := hsound.polled_consumes hlt
  rw [Network.Consumed, hchannel, hpublished, hread.origins_eq] at hall
  have hdelivered := (hsound.polled.delivered hlt).2
  rw [hchannel, hwritten, hread.origins_eq] at hdelivered
  have horigin := h.origin_le
  have hpublishedLt := h.lt_published
  have hentry : (((feed.net.channel ring).journal.written.drop
      (feed.net.origins.getD ring 0)).take (feed.net.polled.mergedOf ring).length)[
        number - feed.net.origins.getD ring 0]? =
      some (message.recordType, message.encode) := by
    rw [List.getElem?_take_of_lt (by omega), List.getElem?_drop, Nat.add_sub_cancel' horigin]
    exact h.written
  obtain ⟨payload, hseen, hdecode⟩ := Message.decodeRecord_of_forall₂ hdelivered hentry
  rw [Network.mergedOf, List.getElem?_map, Option.map_eq_some_iff] at hseen
  obtain ⟨record, hrecord, hcontent⟩ := hseen
  obtain ⟨htype, rfl⟩ := Prod.mk.inj (Except.ok.inj hcontent)
  obtain ⟨earlier, later, hmerged, hcount⟩ := exists_split_of_filter hrecord
  refine ⟨earlier, record, later, ⟨?_, ?_, ?_⟩, htype ▸ hdecode⟩
  · rw [net_polled hsound]
    exact hmerged
  · simpa using List.of_mem_filter (List.mem_of_getElem? hrecord)
  · rw [hcount, Nat.add_sub_cancel' horigin]

/-! ## Names -/

/-- A name that fits survives its way through a ring, the merger and the roster.  Whatever else
is written and however often the rings are polled: once the binding of an identifier was published
and a poll came, a measurement consumed later that ends after it puts it into effect, and the name
is there as it was written, provided that all timestamps lie in one half of the circle and no
other news are about the identifier.  Bytes of any name are read up to the first NUL. -/
theorem names_survive :
    (∀ text : String, '\x00' ∉ text.toList → text.utf8ByteSize ≤ 16 →
      ∀ (base : UInt64) (window : Window) (tally : Tally) (actions more : List Action)
        (ring number : Nat) (update : RmidAlloc),
      let start : Feed := { intake := { window := window, tally := tally } }
      let origin := (start.run actions).net.origins.getD ring 0
      let feed := start.run (actions ++ .poll :: more)
      update.command = CommandName.ofText text →
      Published (start.run actions) ring number
        (sampleRecordType, Message.encodeRmidAlloc update) →
      (∀ record ∈ feed.net.merged, ∀ time ∈ Intake.stamp? record, (time - base).toNat < 2 ^ 63) →
      (∀ news ∈ feed.net.merged.filterMap Intake.news?, news.rmid = update.rmid →
        news = .alloc update) →
      ∃ earlier record later, Taken feed.net.merged origin ring number earlier record later ∧
        Message.decodeRecord record.recordType record.payload = .ok (.rmidAlloc update) ∧
        ((∃ m ∈ later.filterMap Intake.accepted?, displacement update.timestamp m.endTime < 0) →
          feed.intake.roster.get? update.rmid =
            some { command := text, processGroup := update.processGroup, valid := true })) ∧
      ∀ name : CommandName, name.Legible := by
  refine ⟨?_, CommandName.legible⟩
  intro text hnul hlength base window tally actions more ring number update start origin feed
    hname hpublished hhalf honly
  have hsound : (start.run actions).net.Sound := net_run Network.sound_empty actions
  have hsent : Published (start.run actions) ring number
      (Message.recordType (.rmidAlloc update), Message.encode (.rmidAlloc update)) := hpublished
  obtain ⟨earlier, record, later, htaken, hdecode⟩ := hsent.exists_taken hsound
  -- Records that come out after the poll follow those that came out until then.
  obtain ⟨rest, hmerged, -⟩ := exists_run (net_step hsound .poll) more
  have hrun : feed = ((start.run actions).step .poll).run more := by
    simp [feed, run]
  have hsplit : feed.net.merged = earlier ++ record :: (later ++ rest) := by
    rw [hrun, hmerged, ← List.cons_append, ← List.append_assoc, ← htaken.merged_eq]
    rfl
  refine ⟨earlier, record, later ++ rest, ⟨hsplit, htaken.ring_eq, htaken.number_eq⟩, hdecode, ?_⟩
  rintro ⟨m, hm, hbefore⟩
  have hnews : Intake.news? record = some (.alloc update) := by
    rw [Intake.news?, hdecode]
  have hheard := Intake.heard_digested window tally hhalf
  have happlied : Roster.News.alloc update ∈ (Intake.ledgerOf base feed.net.merged).applied := by
    rw [hsplit] at hhalf ⊢
    exact Intake.mem_applied hhalf hnews hm hbefore
  rw [intake_run, hheard.get?_eq happlied honly, hname, CommandName.text_ofText hnul hlength]

/-- The name of a process with characters of one to four bytes. -/
def motley : RmidAlloc where
  timestamp := 18446744073709551610
  rmid := 7
  command := CommandName.ofText "aé€😀"
  processGroup := 1

/-- A process is bound before time zero, in the same publication as a measurement that ends
after it. -/
def welcome : List Action :=
  [.attach narrow,
    .produce 0 (.write (Message.encodeRmidAlloc motley) sampleRecordType),
    .produce 0 (.write (Message.encodeMeasurement early) sampleRecordType),
    .produce 0 .finishWrite]

theorem names_survive_motley :
    '\x00' ∉ "aé€😀".toList ∧ "aé€😀".utf8ByteSize ≤ 16 ∧
      (({ intake := { window := { shape := decades } } } : Feed).run
          (welcome ++ [.poll])).intake.roster.get? 7 =
        some { command := "aé€😀", processGroup := 1, valid := true } := by
  have hnul : '\x00' ∉ "aé€😀".toList := by decide
  have hlength : "aé€😀".utf8ByteSize ≤ 16 := by decide
  have hpublished : Published
      (({ intake := { window := { shape := decades } } } : Feed).run welcome) 0 0
      (sampleRecordType, Message.encodeRmidAlloc motley) :=
    ⟨by decide +kernel, by decide +kernel, by decide +kernel, by decide +kernel⟩
  have hstamps : (({ intake := { window := { shape := decades } } } : Feed).run
      (welcome ++ [.poll])).net.merged.map Intake.stamp? =
        [some 18446744073709551610, some 5] := by
    decide +kernel
  have hnews : (({ intake := { window := { shape := decades } } } : Feed).run
      (welcome ++ [.poll])).net.merged.filterMap Intake.news? = [.alloc motley] := by
    decide +kernel
  have haccepted : (({ intake := { window := { shape := decades } } } : Feed).run
      (welcome ++ [.poll])).net.merged.filterMap Intake.accepted? = [early] := by
    decide +kernel
  have hrings : ∀ record ∈ (({ intake := { window := { shape := decades } } } : Feed).run
      (welcome ++ [.poll])).net.merged, record.ring = 0 := by
    decide +kernel
  refine ⟨hnul, hlength, ?_⟩
  obtain ⟨earlier, record, later, htaken, hdecode, heffect⟩ :=
    names_survive.1 "aé€😀" hnul hlength 18446744073709551600 { shape := decades } Tally.zero
      welcome [] 0 0 motley rfl hpublished
      (by
        intro record hmem time htime
        have hin := List.mem_map_of_mem (f := Intake.stamp?) hmem
        rw [hstamps, Option.mem_def.mp htime] at hin
        simp only [List.mem_cons, Option.some.injEq, List.not_mem_nil, or_false] at hin
        rcases hin with rfl | rfl <;> decide)
      (by
        rw [hnews]
        exact fun news hmem _ => List.mem_singleton.mp hmem)
  -- Only one ring is there, so the binding is the first record of all.
  have hearlier : earlier = [] := by
    have hempty : earlier.filter (fun other => other.ring = 0) = [] :=
      List.eq_nil_of_length_eq_zero (Nat.add_eq_zero_iff.mp htaken.number_eq.symm).2
    refine List.eq_nil_iff_forall_not_mem.mpr fun other hmem => ?_
    have hring := hrings other (htaken.merged_eq ▸ List.mem_append_left _ hmem)
    exact List.filter_eq_nil_iff.mp hempty other hmem (decide_eq_true hring)
  have hrefused : Intake.accepted? record = none := by
    rw [Intake.accepted?, hdecode]
  rw [htaken.merged_eq, hearlier, List.nil_append, List.filterMap_cons_none hrefused] at haccepted
  exact heffect ⟨early, haccepted ▸ List.mem_singleton.mpr rfl, by decide⟩

end Feed

end CacheMeter
