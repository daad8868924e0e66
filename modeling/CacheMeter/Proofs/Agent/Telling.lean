import Mathlib
import CacheMeter.Proofs.Agent.Delivery
import CacheMeter.Proofs.Intake.Batching

/-!
# What a session tells

A session polls when a poll falls due, and in between its counts are reported and begin anew.
None of this can be seen in the slots that it hands on, or in the rosters that come with them:
they are those of one pass over all records that came out of its rings, and what the window
holds in the end.  As long as the sums of that pass fit their words, so do those of every poll.

Main results:

- Definition `Network.history`: one pass over everything that came out of the rings.
- Theorem `Shift.Told.pollOnce`: a poll goes on with that pass.
- Theorem `Shift.Told.fits`: no poll breaks off while the pass can be counted.
- Theorem `Site.Telling.sleep`: a chance that a session gets through goes on with it too.
- Theorem `Site.Telling.stop`: what handlers have been told when it was stopped.
-/

namespace CacheMeter

open Merge

/-! ## Counts do not matter -/

namespace Intake

/-- Two passes that differ at most in what they counted. -/
structure Pass.SameSlots (first second : Pass) : Prop where
  window : second.intake.window = first.intake.window
  roster : second.intake.roster = first.intake.roster
  emitted : second.emitted = first.emitted

/-- A record does the same to the slots whatever was counted before. -/
theorem Pass.SameSlots.digest {first second : Pass} (h : SameSlots first second)
    (record : UInt32 × Bytes) : SameSlots (first.digest record) (second.digest record) := by
  rw [Pass.digest_eq, Pass.digest_eq]
  cases Message.decodeRecord record.1 record.2 with
  | error cause => exact ⟨h.window, h.roster, h.emitted⟩
  | ok message =>
    cases message with
    | measurement m =>
      dsimp only
      split_ifs
      · constructor <;> simp only [takeIn, count, h.window, h.roster, h.emitted]
      · exact ⟨h.window, h.roster, h.emitted⟩
    | lost notice => exact ⟨h.window, h.roster, h.emitted⟩
    | rmidAlloc | rmidFree =>
      constructor <;> simp only [enroll, count, h.window, h.roster, h.emitted]

/-- What records do to the slots does not depend on what was counted before. -/
theorem sameSlots_digested {first second : Intake} (hwindow : second.window = first.window)
    (hroster : second.roster = first.roster) (records : List MergedRecord) :
    Pass.SameSlots (first.digested records) (second.digested records) := by
  suffices hfrom : ∀ before after : Pass, Pass.SameSlots before after →
      Pass.SameSlots (before.digestAll (records.map content))
        (after.digestAll (records.map content)) from hfrom _ _ ⟨hwindow, hroster, rfl⟩
  induction records with
  | nil => exact fun _ _ hsame => hsame
  | cons record rest ih => exact fun before after hsame => ih _ _ (hsame.digest (content record))

end Intake

/-- One pass over everything that came out of the rings, with an empty window to begin with. -/
def Merge.Network.history (net : Network) (shape : Window.Shape) : Intake.Pass :=
  Intake.digested { window := { shape := shape } } net.merged

/-- When records come out of the rings, the pass goes on with them. -/
theorem Merge.Network.history_of_merged {net later : Network} {records : List MergedRecord}
    (hmerged : later.merged = net.merged ++ records) (shape : Window.Shape) :
    later.history shape =
      (net.history shape).andThen ((net.history shape).intake.digested records) := by
  rw [history, hmerged, Intake.digested_append]
  rfl

/-- What one pass over records counts and has added up fits words.  Whatever is not counted here
is bounded by the records themselves. -/
structure Intake.Countable (handlers : List Handler) (shape : Window.Shape)
    (records : List (UInt32 × Bytes)) : Prop where
  records_lt : records.length < 2 ^ 64
  lost_lt : (records.map lostIn).sum < 2 ^ 64
  slots_lt :
    (Pass.digestAll { intake := { window := { shape := shape } } } records).emitted.length < 2 ^ 64
  logged : .log ∈ handlers → ∀ emission ∈
    (Pass.digestAll { intake := { window := { shape := shape } } } records).emitted,
      LogLine.Bounded emission.slot

/-- The beginning of what can be counted can. -/
theorem Intake.Countable.of_prefix {handlers : List Handler} {shape : Window.Shape}
    {first records : List (UInt32 × Bytes)} (h : Countable handlers shape records)
    (hbegins : first <+: records) : Countable handlers shape first := by
  obtain ⟨more, rfl⟩ := hbegins
  obtain ⟨hrecords, hlost, hslots, hlogged⟩ := h
  rw [Pass.digestAll_append] at hslots hlogged
  rw [List.map_append, List.sum_append] at hlost
  simp only [Pass.andThen, List.length_append, List.mem_append] at hrecords hslots hlogged
  exact ⟨by omega, by omega, by omega,
    fun hlog emission hmem => hlogged hlog emission (.inl hmem)⟩

/-! ## A session at work -/

namespace Shift

variable {shape : Window.Shape} {shift other : Shift} {events : List AgentEvent}

/-- Handlers were told what the pass emitted, and the session is where the pass is.  Of what came
out of the rings, some messages may have been counted since the last report. -/
structure Told (shape : Window.Shape) (shift : Shift) (events : List AgentEvent) : Prop where
  handed : HandedOn shift.session.handlers (shift.net.history shape).emitted events
  window : shift.session.window = (shift.net.history shape).intake.window
  roster : shift.session.roster = (shift.net.history shape).intake.roster
  messages_le : shift.agent.tally.snapshot.1.total ≤ shift.net.merged.length

/-- What was told depends on the session, the counts, and what came out of the network. -/
theorem Told.congr (h : shift.Told shape events) (hsession : other.session = shift.session)
    (htally : other.agent.tally = shift.agent.tally)
    (hmerged : other.net.merged = shift.net.merged) : other.Told shape events := by
  have hhistory : other.net.history shape = shift.net.history shape := by
    rw [Network.history, hmerged, Network.history]
  refine ⟨?_, ?_, ?_, ?_⟩
  · rw [hsession, hhistory]
    exact h.handed
  · rw [hsession, hhistory]
    exact h.window
  · rw [hsession, hhistory]
    exact h.roster
  · rw [htally, hmerged]
    exact h.messages_le

/-- What a poll by the session comes to. -/
def outcome (shift : Shift) : Intake.Outcome :=
  shift.feed.intake.poll shift.session.readers shift.agent.memory

/-- The records that a poll by the session takes out. -/
def batch (shift : Shift) : List MergedRecord :=
  (Merger.batch shift.session.readers shift.agent.memory).records

/-- They come out of the network too. -/
theorem Tied.merged_served (h : shift.Tied) :
    shift.net.served.merged = shift.net.merged ++ shift.batch := by
  have hreaders : shift.net.merger.readers = shift.session.readers := by rw [h.merger_eq]
  by_cases hrings : shift.session.readers = #[]
  · obtain ⟨-, -, hmerged⟩ := Network.polled_of_isEmpty (hreaders.trans hrings)
    rw [batch, hrings, Intake.records_batch_noReaders, List.append_nil]
    exact hmerged
  · have hmerged := (h.net.polled_batch (hreaders.symm ▸ hrings)).2.2
    rw [hreaders, ← h.memory_eq] at hmerged
    exact hmerged

/-- A poll does with its records what they do. -/
theorem intake_outcome (shift : Shift) :
    shift.outcome.intake = (shift.feed.intake.digested shift.batch).intake := by
  by_cases hrings : shift.session.readers = #[]
  · rw [outcome, batch, hrings, Intake.records_batch_noReaders]
    exact (Feed.poll_of_isEmpty shift.feed.intake shift.agent.memory rfl).1
  · exact congrArg Intake.Outcome.intake
      (shift.feed.intake.poll_eq_digested shift.agent.memory hrings)

/-- It hands on what they push out of the window, as it would in the pass. -/
theorem Told.emitted_outcome (htold : shift.Told shape events) :
    shift.outcome.emitted =
      ((shift.net.history shape).intake.digested shift.batch).emitted := by
  rw [outcome, Intake.emitted_poll]
  exact (Intake.sameSlots_digested htold.window htold.roster shift.batch).emitted

/-- A poll goes on with the pass. -/
theorem Told.pollOnce (htold : shift.Told shape events) (h : shift.Tied) :
    (shift.after (shift.agent.pollOnce shift.session) 1).Told shape
      (events ++ (shift.agent.pollOnce shift.session).2.2) := by
  have hhistory : shift.net.served.history shape =
      (shift.net.history shape).andThen
        ((shift.net.history shape).intake.digested shift.batch) :=
    Network.history_of_merged h.merged_served shape
  have hsame : Intake.Pass.SameSlots ((shift.net.history shape).intake.digested shift.batch)
      (shift.feed.intake.digested shift.batch) :=
    Intake.sameSlots_digested htold.window htold.roster shift.batch
  have hdispatched : HandedOn shift.session.handlers
      ((shift.net.history shape).intake.digested shift.batch).emitted
      (shift.agent.pollOnce shift.session).2.2 := by
    rw [← htold.emitted_outcome]
    exact (handedOn_dispatch _ _).append_logged _
  refine ⟨?_, ?_, ?_, ?_⟩
  · show HandedOn shift.session.handlers (shift.net.served.history shape).emitted _
    rw [hhistory]
    exact htold.handed.append hdispatched
  · show shift.outcome.intake.window = (shift.net.served.history shape).intake.window
    rw [intake_outcome, hhistory]
    exact hsame.window
  · show shift.outcome.intake.roster = (shift.net.served.history shape).intake.roster
    rw [intake_outcome, hhistory]
    exact hsame.roster
  · show shift.outcome.intake.tally.snapshot.1.total ≤ shift.net.served.merged.length
    rw [intake_outcome, h.merged_served, List.length_append]
    exact (Intake.total_digested_le shift.feed.intake shift.batch).trans
      (Nat.add_le_add_right htold.messages_le _)

/-- Reports tell nothing of the slots, and the counts begin anew. -/
theorem Told.reported (htold : shift.Told shape events) :
    shift.reported.Told shape (events ++ shift.agent.reportOnce.2) :=
  ⟨htold.handed.append_logged _, htold.window, htold.roster, Nat.zero_le _⟩

/-- So a session goes on telling with all that falls due. -/
theorem Told.runTicks (htold : shift.Told shape events) (h : shift.Tied) (ticks : List Tick) :
    (shift.after (Agent.runTicks ticks shift.agent shift.session) (ticks.count .poll)).Told shape
      (events ++ (Agent.runTicks ticks shift.agent shift.session).2.2) :=
  (h.runTicks_induction (motive := Told shape) (fun _ _ htied htold => htold.pollOnce htied)
    (fun _ _ htold => htold.reported) ticks events htold).2

/-- A session that hands out the slots it still holds has told what one pass over all records
emits, and then what is left in the window. -/
theorem Told.flush (htold : shift.Told shape events) :
    HandedOn shift.session.handlers
      ((shift.net.history shape).emitted ++ (shift.net.history shape).intake.drain.1)
      (events ++ (shift.agent.flush shift.session).2) := by
  let drained := shift.feed.intake.drain.1
  have hdrained : drained = (shift.net.history shape).intake.drain.1 := by
    simp only [drained, feed, Intake.drain, htold.window, htold.roster]
  have hall := (htold.handed.append (handedOn_dispatch _ drained)).append_logged
    [LogLine.ofFlush drained.length]
  rw [List.append_assoc] at hall
  rw [← hdrained]
  exact hall

/-- To enter a phase is nothing that is told. -/
theorem Told.entered (htold : shift.Told shape events) (chance : Chance) :
    (shift.entered chance).Told shape events :=
  ⟨htold.handed, htold.window, htold.roster, htold.messages_le⟩

/-- With a chance that it gets through, a session goes on telling. -/
theorem Told.chanced (htold : shift.Told shape events) (h : shift.Tied) {chance : Chance}
    (hon : shift.GoesOn chance) (hfits : shift.Fits chance)
    (hlive : shift.agent.cancelled = false) :
    (shift.chanced chance).Told shape (events ++ shift.seen chance) := by
  obtain ⟨hchanced, hseen⟩ := chanced_of_live hon hfits hlive
  rw [hchanced, hseen]
  exact (htold.entered chance).runTicks (h.entered chance) chance.ticks

/-- With its last chance it tells the rest. -/
theorem Told.ended (htold : shift.Told shape events) (h : shift.Tied) {chance : Chance}
    (hon : shift.GoesOn chance) (hfits : shift.Fits chance)
    (hcancelled : shift.agent.cancelled = true) :
    let after := shift.chanced chance
    HandedOn after.session.handlers
      ((after.net.history shape).emitted ++ (after.net.history shape).intake.drain.1)
      (events ++ shift.seen chance) := by
  obtain ⟨hchanced, hseen⟩ := chanced_of_cancelled hon hfits hcancelled
  have hlast := (htold.entered chance).runTicks (h.entered chance) (chance.ticks ++ [.poll])
  rw [hchanced, hseen, ← List.append_assoc]
  exact hlast.flush

/-! ### Sums -/

/-- A poll gets through if what it takes out can be counted with all that came out before. -/
theorem Told.pollFits (htold : shift.Told shape events) (h : shift.Tied)
    (hcount : Intake.Countable shift.session.handlers shape
      (shift.net.served.merged.map Intake.content)) :
    shift.agent.PollFits shift.session := by
  obtain ⟨hall, hlost, hslots, hlogged⟩ := hcount
  have hhistory : (shift.net.served.history shape).emitted =
      (shift.net.history shape).emitted ++ shift.outcome.emitted := by
    rw [htold.emitted_outcome, Network.history_of_merged h.merged_served]
    rfl
  rw [Network.history, Intake.digested] at hhistory
  rw [hhistory] at hslots hlogged
  constructor
  · intro summary hsummary
    have hbalanced := Intake.balanced_poll _ shift.agent.memory hsummary
    have hrecords : summary.records = shift.batch.length :=
      hbalanced.length_eq.trans (List.length_map _)
    have hlostSamples : summary.lostSamples =
        ((shift.batch.map Intake.content).map Intake.lostIn).sum := hbalanced.lostSamples_eq
    have hemitted : summary.slotsEmitted = shift.outcome.emitted.length :=
      hbalanced.slotsEmitted_eq
    have hsplit := hbalanced.records_eq
    have hword : UInt64.size = 2 ^ 64 := rfl
    -- The counts of one poll are part of those of the whole history, which fit.
    rw [List.length_map, h.merged_served, List.length_append] at hall
    rw [h.merged_served, List.map_append, List.map_append, List.sum_append] at hlost
    rw [List.length_append] at hslots
    rw [Intake.Summary.fits_iff]
    omega
  · intro hlog emission hmem
    exact hlogged hlog emission (List.mem_append_right _ hmem)

/-- No tick breaks off if all that can come out of the rings can be counted. -/
theorem Told.ticksFit (htold : shift.Told shape events) (h : shift.Tied)
    (hcount : ∀ count, Intake.Countable shift.session.handlers shape
      ((Network.served^[count] shift.net).merged.map Intake.content)) (ticks : List Tick) :
    Agent.TicksFit ticks shift.agent shift.session := by
  rintro front tick back -
  have hbefore := htold.runTicks h front
  cases tick with
  | poll =>
    have hhandlers : (Agent.runTicks front shift.agent shift.session).2.1.handlers =
        shift.session.handlers := (Agent.frame_runTicks front _ _).1.handlers_eq
    have hnext := hcount (front.count .poll + 1)
    rw [Function.iterate_succ_apply', ← hhandlers] at hnext
    exact hbefore.pollFits (h.runTicks front) hnext
  | report =>
    have hrecords := (hcount (front.count .poll)).records_lt
    rw [List.length_map] at hrecords
    exact hbefore.messages_le.trans_lt hrecords

/-- Nor does a session that gets a chance, if the log can add up what is held at the end. -/
theorem Told.fits (htold : shift.Told shape events) (h : shift.Tied)
    (hcount : ∀ count, Intake.Countable shift.session.handlers shape
      ((Network.served^[count] shift.net).merged.map Intake.content))
    {chance : Chance}
    (hheld : shift.agent.cancelled = true → .log ∈ shift.session.handlers → ∀ slot ∈
      ((Network.served^[chance.ticks.count .poll] shift.net).served.history
        shape).intake.window.slots, LogLine.Bounded slot) :
    shift.Fits chance where
  ticks := (htold.entered chance).ticksFit (h.entered chance) hcount _
  flushed hcancelled hlog := by
    have hwindow := ((htold.entered chance).runTicks (h.entered chance)
      (chance.ticks ++ [.poll])).window
    rw [after, Network.served_count_append] at hwindow
    rw [Chance.due, if_pos hcancelled]
    exact hwindow ▸ hheld hcancelled hlog

end Shift

/-! ## An agent that was never stopped -/

namespace Site

variable {site : Site} {session : Session} {shape : Window.Shape} {handlers : List Handler}
  {command : Command} {chance : Chance}

/-- The session of a site is at work, and has told what the pass over its records emits. -/
structure Telling (shape : Window.Shape) (handlers : List Handler) (session : Session)
    (site : Site) : Prop where
  serving : Serving shape handlers session site
  told : (site.shift session).Told shape site.events
  never_stopped : site.agent.cancelled = false

/-- Nothing has come out of the rings of a session that begins. -/
theorem Sound.telling_start (h : site.Sound) {started : Agent}
    (hstart : site.agent.start = .ok started) (hnever : site.agent.cancelled = false)
    (hcounts : site.agent.tally = .zero) :
    ∃ shape session, site.agent.settings.aggregation.shape = .ok shape ∧
      session.phase = .waiting ∧
      Telling shape (if site.agent.handlers.isEmpty then [.log] else site.agent.handlers)
        session (site.step .start) := by
  obtain ⟨shape, session, hshape, -, hwaiting, hserving⟩ := h.serving_start hstart
  obtain ⟨-, shape', readers, hshape', -, -, rfl⟩ := Agent.start_eq_ok hstart
  obtain rfl := Except.ok.inj (hshape.symm.trans hshape')
  refine ⟨shape, session, hshape, hwaiting, hserving, ?_, ?_⟩
  · have hsession := hserving.session_eq
    rw [Site.step, hstart] at hsession ⊢
    obtain rfl := Option.some.inj hsession
    have hnone : site.agent.tally.snapshot.1.total = 0 := by
      rw [hcounts]
      rfl
    exact ⟨handedOn_logged _ [], rfl, rfl, hnone.le⟩
  · rw [(site.settings_step .start).2, hnever]
    rfl

/-- A session without a chance tells nothing. -/
theorem Telling.quiet (h : Telling shape handlers session site)
    (hnone : command.chance? = none) : Telling shape handlers session (site.step command) := by
  have hserving := h.serving.quiet hnone
  have hnever : (site.step command).agent.cancelled = false := by
    rw [(site.settings_step command).2, h.never_stopped]
    cases command with
    | stop last exclusive => exact absurd hnone (Option.some_ne_none last)
    | onSlot | start | sleep | produce => rfl
  refine ⟨hserving, ?_, hnever⟩
  cases command with
  | onSlot name => exact h.told.congr rfl rfl rfl
  | start =>
    rw [step_start_of_session h.serving.session_eq]
    exact h.told
  | stop last exclusive => exact absurd hnone (Option.some_ne_none last)
  | sleep chance? =>
    obtain rfl : chance? = none := hnone
    exact h.told
  | produce ring action =>
    rw [Site.step]
    split_ifs
    · exact h.told
    · exact h.told.congr rfl rfl (Network.merged_produce _ _ _)

/-- With a chance that it gets through, it goes on telling. -/
theorem Telling.sleep (h : Telling shape handlers session site)
    (hon : (site.shift session).GoesOn chance) (hfits : (site.shift session).Fits chance) :
    ((site.shift session).chanced chance).session.phase = .running ∧
      Telling shape handlers ((site.shift session).chanced chance).session
        (site.step (.sleep (some chance))) := by
  obtain ⟨hphase, hserving⟩ := h.serving.goesOn hon hfits h.never_stopped
  have htold := h.told.chanced h.serving.tied hon hfits h.never_stopped
  refine ⟨hphase, hserving, ?_, ?_⟩
  · rw [step_sleep_of_session h.serving.session_eq]
    exact htold.congr rfl rfl rfl
  · rw [(site.settings_step _).2, h.never_stopped]
    rfl

/-- When it is stopped, the handlers have been told what one pass over all records emits, and
then what the window still held. -/
theorem Telling.stop (h : Telling shape handlers session site)
    (hon : (site.cancelled.shift session).GoesOn chance)
    (hfits : (site.cancelled.shift session).Fits chance) (exclusive : Bool) :
    let net := (Network.served^[chance.ticks.count .poll] site.net).served
    (site.agent.stopChecked chance exclusive).2.2 = none ∧
      (site.step (.stop chance exclusive)).net = net ∧
      HandedOn handlers ((net.history shape).emitted ++ (net.history shape).intake.drain.1)
        (site.step (.stop chance exclusive)).events := by
  intro net
  have htold : (site.cancelled.shift session).Told shape site.events := h.told.congr rfl rfl rfl
  have hfed : (site.cancelled.shift session).Fed shape site.events := h.serving.fed
  obtain ⟨-, hphase, hnet⟩ := hfed.ended h.serving.tied_cancelled hon hfits rfl
  have hhanded := htold.ended h.serving.tied_cancelled hon hfits rfl
  have hhandlers : ((site.cancelled.shift session).chanced chance).session.handlers = handlers :=
    (site.cancelled.agent.frame_outcome session chance).handlers_eq.trans h.serving.handlers_eq
  have hsucceeds : ((site.cancelled.shift session).chanced chance).session.phase ≠ .failed :=
    hphase ▸ Phase.noConfusion
  obtain ⟨hfault, hstep⟩ := step_stop_of_not_failed h.serving.session_eq exclusive hsucceeds
  dsimp only at hhanded
  rw [hhandlers, hnet] at hhanded
  rw [hstep]
  exact ⟨hfault, hnet, hhanded⟩

end Site

end CacheMeter
