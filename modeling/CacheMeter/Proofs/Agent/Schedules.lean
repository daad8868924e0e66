import Mathlib
import CacheMeter.Proofs.Agent.Publishing
import CacheMeter.Proofs.Agent.Telling
import CacheMeter.Proofs.Ring.Imprint

/-!
# Schedules do not show

When an agent polls and reports, how long it sleeps, and how the records are cut into batches
before it is started and after, all of it decides which poll takes out which record.  What the
handlers have been told when the agent has been stopped is the same for all schedules that
publish the same records: the slots that one pass over the records emits, and then those that
are left in the window, with the rosters of their time.  The session must be able to begin when
it gets its first chance, and its sums must not outgrow their words.

Main results:

- Structure `Schedule`: all that is done to an agent up to its first stop.
- Theorem `Schedule.published_eq`: what is published is up to the producer alone.
- Theorem `Schedule.told`: what handlers are told follows from the records published.
- Theorem `Schedule.schedule_independent`: it is the same under any two schedules that publish
  the same.
- Theorem `Schedule.not_told_endless`: a report interval that is accepted, and under which
  nothing is told at all.
-/

namespace CacheMeter

open Merge

/-- What one pass over records emits, in order and with an empty window to begin with, and then
what is left in the window. -/
def Intake.onePass (shape : Window.Shape) (records : List (UInt32 × Bytes)) : List Emission :=
  let pass := Pass.digestAll { intake := { window := { shape := shape } } } records
  pass.emitted ++ pass.intake.drain.1

/-- Records as they read back that were written to a ring one after the other. -/
def Merge.Lane.readBack (lane : Lane) (records : List (UInt32 × Bytes)) :
    List (UInt32 × Bytes) :=
  lane.view.echo lane.view.readPos.toNat records lane.region

/-- What records read back as does not depend on later ones. -/
theorem Merge.Lane.readBack_prefix (lane : Lane) {first records : List (UInt32 × Bytes)}
    (hbegins : first <+: records) : lane.readBack first <+: lane.readBack records := by
  obtain ⟨more, rfl⟩ := hbegins
  rw [readBack, readBack, Ring.View.echo_append]
  exact List.prefix_append _ _

/-- What is done to an agent and its producers up to the first stop: before the agent is started
and while its session lasts, with the chances that the session gets.  The settings are accepted. -/
structure Schedule where
  settings : Settings
  before : List Command := []
  during : List Command
  /-- The last chance of the session, when the agent is stopped. -/
  last : Chance
  /-- Whether nobody else holds the rings then. -/
  exclusive : Bool := false
  accepted : settings.check = .ok ()
  early : ∀ command ∈ before, command ≠ .start ∧ command.isStop = false
  unstopped : ∀ command ∈ during, command.isStop = false

namespace Schedule

variable (schedule : Schedule) (lane : Lane)

/-- When the agent is started. -/
def ready : Site :=
  (Site.idle schedule.settings [lane]).run schedule.before

/-- When the agent is about to be stopped. -/
def ending : Site :=
  (schedule.ready lane).run (.start :: schedule.during)

/-- When the stop has returned. -/
def stopped : Site :=
  (schedule.ending lane).step (.stop schedule.last schedule.exclusive)

/-- The records published by the time of the stop, in order. -/
def published : List (UInt32 × Bytes) :=
  ((schedule.ending lane).net.channel 0).journal.output

/-- What the producer of the ring does, in order. -/
def produced : List Ring.Action :=
  (schedule.before ++ .start :: schedule.during).flatMap (Command.produced 0)

/-- The names of the handlers registered before the agent is started. -/
def registered : List String :=
  schedule.before.filterMap Command.registered?

/-- The handlers of the session. -/
def handlers : List Handler :=
  if schedule.registered.isEmpty then [.log] else schedule.registered.map .named

/-- The first report comes before the machine's clock runs out, by what the clock reads when the
session first gets a chance. -/
def InTime : Prop :=
  Site.firstReading schedule.during schedule.last + schedule.settings.statsInterval.nanoseconds <
    UInt64.size / 2 * Duration.nanosPerSecond

/-- What the session adds up fits words: the records, the samples that they report lost, the slots
that it hands on, and if nobody but the log gets them what the log adds up for each. -/
structure Counted : Prop where
  records_lt : (schedule.published lane).length < 2 ^ 64
  lost_lt : ((lane.readBack (schedule.published lane)).map Intake.lostIn).sum < 2 ^ 64
  slots_lt : ∀ shape, schedule.settings.aggregation.shape = .ok shape →
    (Intake.onePass shape (lane.readBack (schedule.published lane))).length < 2 ^ 64
  logged : schedule.registered = [] → ∀ shape, schedule.settings.aggregation.shape = .ok shape →
    ∀ emission ∈ Intake.onePass shape (lane.readBack (schedule.published lane)),
      LogLine.Bounded emission.slot

/-- Start and stop succeed, and in between the handlers are told certain slots, one after the
other. -/
structure Told (emissions : List Emission) : Prop where
  starts : ∃ started, (schedule.ready lane).agent.start = .ok started
  stops : ((schedule.ending lane).agent.stopChecked schedule.last schedule.exclusive).2.2 = none
  handed : HandedOn schedule.handlers emissions (schedule.stopped lane).events
  /-- A handler that was registered once is told each of them once. -/
  once : ∀ name, schedule.registered.count name = 1 →
    deliveredTo name (schedule.stopped lane).events = emissions

variable {schedule lane}

/-- A name belongs to as many handlers of the session as were registered by it. -/
theorem count_handlers (name : String) :
    schedule.handlers.count (.named name) = schedule.registered.count name := by
  have hinjective : Function.Injective Handler.named := fun _ _ => Handler.named.inj
  rw [handlers]
  split_ifs with hnone
  · rw [List.isEmpty_iff.mp hnone]
    rfl
  · exact List.count_map_of_injective _ _ hinjective name

/-- The log is only told if nobody else is. -/
theorem registered_of_log_mem (hlog : .log ∈ schedule.handlers) : schedule.registered = [] := by
  rw [handlers] at hlog
  split_ifs at hlog with hnone
  · exact List.isEmpty_iff.mp hnone
  · exact absurd hlog (by simp)

/-- What fits words in the end does so all along. -/
theorem Counted.countable (h : schedule.Counted lane) {shape : Window.Shape}
    (hshape : schedule.settings.aggregation.shape = .ok shape) :
    Intake.Countable schedule.handlers shape (lane.readBack (schedule.published lane)) where
  records_lt := (Ring.View.length_echo ..).trans_lt h.records_lt
  lost_lt := h.lost_lt
  slots_lt := by
    have hall := h.slots_lt shape hshape
    rw [Intake.onePass, List.length_append] at hall
    exact (Nat.le_add_right _ _).trans_lt hall
  logged hlog emission hmem :=
    h.logged (registered_of_log_mem hlog) shape hshape emission (List.mem_append_left _ hmem)

/-- What the handlers are handed is what they are told. -/
theorem told_of_handed {emissions : List Emission}
    (hstarts : ∃ started, (schedule.ready lane).agent.start = .ok started)
    (hstops : ((schedule.ending lane).agent.stopChecked schedule.last
      schedule.exclusive).2.2 = none)
    (hhanded : HandedOn schedule.handlers emissions (schedule.stopped lane).events) :
    schedule.Told lane emissions where
  starts := hstarts
  stops := hstops
  handed := hhanded
  once name honce := by
    rw [hhanded.delivered, count_handlers, honce]
    exact List.flatMap_singleton' emissions

/-! ## The ring -/

/-- A single ring is the one that the lane stands for. -/
theorem channel_idle (settings : Settings) :
    (Site.idle settings [lane]).net.channel 0 = lane.channel :=
  Network.sound_empty.channel_added lane rfl 0

/-- An agent over a single unused ring reads that of its network. -/
theorem sound_alone (settings : Settings) (hunused : lane.actions = []) :
    (Site.idle settings [lane]).Sound ∧
      (Site.idle settings [lane]).net.merger.readers.size = 1 := by
  have hall : ∀ other ∈ [lane], other.actions = [] := by simpa using hunused
  exact ⟨Site.sound_idle settings hall, Site.size_idle settings hall⟩

/-- Nothing has been read of it. -/
theorem early_idle (settings : Settings) (hunused : lane.actions = []) :
    Site.Early (Site.idle settings [lane]) := by
  obtain ⟨hsound, hsize⟩ := sound_alone settings hunused
  refine ⟨hsound, rfl, rfl, rfl, rfl, fun ring hlt => ?_⟩
  rw [hsize] at hlt
  obtain rfl := Nat.lt_one_iff.mp hlt
  rw [channel_idle, Lane.channel, hunused]
  rfl

/-- The handlers of the session are those that were registered before. -/
theorem handlers_ready (hunused : lane.actions = []) :
    (if (schedule.ready lane).agent.handlers.isEmpty then [Handler.log]
      else (schedule.ready lane).agent.handlers) = schedule.handlers := by
  have hregistered : (schedule.ready lane).agent.handlers = schedule.registered.map .named :=
    (early_idle schedule.settings hunused).handlers_run schedule.early
  rw [hregistered, handlers, List.isEmpty_map]

/-- Until the agent is started no ring is added. -/
theorem size_ready (hunused : lane.actions = []) :
    (schedule.ready lane).net.merger.readers.size = 1 := by
  obtain ⟨hsound, hsize⟩ := sound_alone schedule.settings hunused
  exact (hsound.run schedule.before).2.2.trans hsize

/-- What is published does not depend on when the agent polls, as long as the producer does not
look for released space. -/
theorem published_eq (hunused : lane.actions = [])
    (hblind : ∀ action ∈ schedule.produced, action.isReclaim = false) :
    schedule.published lane = (lane.channel.run schedule.produced).journal.output := by
  obtain ⟨hidle, hsize⟩ := sound_alone schedule.settings hunused
  have hstop : ∀ command ∈ schedule.before ++ .start :: schedule.during,
      command.isStop = false := by
    rw [List.forall_mem_append, List.forall_mem_cons]
    exact ⟨fun command hmem => (schedule.early command hmem).2, rfl, schedule.unstopped⟩
  have hsame := hidle.sameOutput_run (hsize ▸ Nat.one_pos) rfl hstop hblind
    (Ring.Channel.SameOutput.refl _)
  rw [channel_idle] at hsame
  have hending : schedule.ending lane =
      (Site.idle schedule.settings [lane]).run (schedule.before ++ .start :: schedule.during) := by
    simp only [ending, ready, Site.run, List.foldl_append]
  rw [published, hending, Ring.Journal.output, hsame.written, hsame.published]
  rfl

/-- The ring went through steps of its two sides from the time it was bound. -/
theorem echoes_run (hunused : lane.actions = []) (commands : List Command) :
    let site := (Site.idle schedule.settings [lane]).run commands
    Ring.Channel.Sound lane.view (site.net.channel 0) ∧
      Ring.Channel.Echoes lane.view lane.region (site.net.channel 0) := by
  intro site
  obtain ⟨hidle, hsize⟩ := sound_alone schedule.settings hunused
  have hchannel : (Site.idle schedule.settings [lane]).net.channel 0 =
      Ring.Channel.opened lane.region lane.view := by
    rw [channel_idle, Lane.channel, hunused]
    rfl
  have hopened := Ring.Channel.sound_opened lane.attach lane.idle
  obtain ⟨actions, hrun⟩ := hidle.channel_run (hsize ▸ Nat.one_pos) commands
  rw [hrun, hchannel]
  exact ⟨hopened.run actions,
    (Ring.Channel.echoes_opened lane.view lane.region).run hopened actions⟩

/-! ## A session at work -/

/-- What came out of a single ring since nothing had been read of it is what was read. -/
theorem content_of_popped {net : Network} (hsound : net.Sound)
    (hsize : net.merger.readers.size = 1) (horigin : net.origins.getD 0 0 = 0)
    {records : List (UInt32 × Bytes)}
    (hpopped : (net.channel 0).journal.popped = records.map .ok) :
    net.merged.map Intake.content = records := by
  have hcontent := hsound.map_content hsize
  rw [horigin, List.drop_zero, hpopped] at hcontent
  have hinjective : Function.Injective
      (Except.ok : UInt32 × Bytes → Except Ring.Refusal (UInt32 × Bytes)) :=
    fun _ _ => Except.ok.inj
  -- What is read may be refused, what came out was not: compared as readings they are equal.
  refine List.map_injective_iff.mpr hinjective ?_
  rw [List.map_map]
  exact hcontent

/-- The session is at work, and all that was read of its ring came out of it. -/
structure Working (lane : Lane) (shape : Window.Shape) (handlers : List Handler)
    (session : Session) (site : Site) : Prop where
  telling : Site.Telling shape handlers session site
  size_eq : site.net.merger.readers.size = 1
  origin_eq : site.net.origins.getD 0 0 = 0
  ring : Ring.Channel.Sound lane.view (site.net.channel 0)
  echoes : Ring.Channel.Echoes lane.view lane.region (site.net.channel 0)

section Work

variable {site : Site} {session : Session} {shape : Window.Shape} {handlers : List Handler}

/-- Its network is sound. -/
theorem Working.sound (h : Working lane shape handlers session site) : site.net.Sound :=
  h.telling.serving.sound.net

/-- There is a ring. -/
theorem Working.size_pos (h : Working lane shape handlers session site) :
    0 < site.net.merger.readers.size :=
  h.size_eq.symm ▸ Nat.one_pos

/-- However often its rings are polled, what comes out are the records published first, as they
read back. -/
theorem Working.map_content (h : Working lane shape handlers session site) (count : Nat) :
    let net := Network.served^[count] site.net
    net.merged.map Intake.content =
        (lane.readBack (site.net.channel 0).journal.output).take
          (net.channel 0).journal.popped.length ∧
      (net.channel 0).journal.popped = (net.merged.map Intake.content).map .ok := by
  intro net
  have honly := h.sound.onlyRead_iterate_served count
  obtain ⟨actions, hreading, hchannel⟩ := honly.channel 0 h.size_pos
  obtain ⟨hwritten, hpublished⟩ := (site.net.channel 0).written_run_reading hreading
  have hring := h.ring.run actions
  have hechoes := h.echoes.run h.ring actions
  rw [← hchannel] at hring hechoes hwritten hpublished
  have hpopped := hechoes.popped_eq hring
  have hle := hring.ordered.popped_le.trans hring.ordered.visible_le
  have hfirst : (net.channel 0).journal.written.take (net.channel 0).journal.popped.length =
      (site.net.channel 0).journal.output.take (net.channel 0).journal.popped.length := by
    rw [Ring.Journal.output, List.take_take, hwritten, Nat.min_eq_left (hpublished ▸ hle)]
  rw [hfirst, ← Ring.View.echo_take] at hpopped
  have hcontent := content_of_popped (h.sound.iterate_served count) (honly.size_eq.trans h.size_eq)
    ((congrArg (fun origins => origins.getD 0 0) honly.origins_eq).trans h.origin_eq) hpopped
  exact ⟨hcontent, by rw [hcontent]; exact hpopped⟩

/-- After one poll at least, these are all that were published. -/
theorem Working.map_content_served (h : Working lane shape handlers session site) (count : Nat) :
    let records := lane.readBack (site.net.channel 0).journal.output
    (Network.served^[count] site.net).served.merged.map Intake.content = records ∧
      List.Forall₂ Ring.Record.ReadsBack (site.net.channel 0).journal.output
        (records.map .ok) := by
  intro records
  obtain ⟨hcontent, hpopped⟩ := h.map_content (count + 1)
  have hread := (h.sound.delivered_iterate h.size_pos count).1.readsBack
  rw [Function.iterate_succ_apply'] at hcontent hpopped
  have hall : records.take
      ((Network.served^[count] site.net).served.channel 0).journal.popped.length = records := by
    rw [← hread.length_eq]
    exact List.take_of_length_le (Ring.View.length_echo ..).le
  rw [hall] at hcontent
  rw [hcontent] at hpopped
  rw [hpopped] at hread
  exact ⟨hcontent, hread⟩

/-- Whatever is done, a session that is still at work reads its ring as before. -/
theorem Working.next (h : Working lane shape handlers session site) {command : Command}
    {session' : Session} (htelling : Site.Telling shape handlers session' (site.step command)) :
    Working lane shape handlers session' (site.step command) := by
  have hsound := h.telling.serving.sound
  obtain ⟨actions, hrun⟩ := hsound.channel_run h.size_pos [command]
  have hchannel : (site.step command).net.channel 0 = _ := hrun
  exact
    { telling := htelling
      size_eq := (hsound.size_step command).trans h.size_eq
      origin_eq := (congrArg (fun origins => origins.getD 0 0)
        (hsound.origins_step h.telling.serving.session_eq command)).trans h.origin_eq
      ring := hchannel ▸ h.ring.run actions
      echoes := hchannel ▸ h.echoes.run h.ring actions }

/-- What comes out by any poll can be counted if all that is published in the end can. -/
theorem Working.countable (h : Working lane shape handlers session site)
    {records : List (UInt32 × Bytes)}
    (hbegins : (site.net.channel 0).journal.output <+: records)
    (hcount : Intake.Countable handlers shape (lane.readBack records)) (count : Nat) :
    Intake.Countable session.handlers shape
      ((Network.served^[count] site.net).merged.map Intake.content) := by
  rw [h.telling.serving.handlers_eq, (h.map_content count).1]
  exact hcount.of_prefix ((List.take_prefix _ _).trans (lane.readBack_prefix hbegins))

/-- A session at work gets through every chance before the stop, if it can begin and all that is
published in the end can be counted. -/
theorem Working.run (h : Working lane shape handlers session site) {commands : List Command}
    (hstop : ∀ command ∈ commands, command.isStop = false) {last : Chance}
    (hbegins : session.phase = .waiting →
      site.agent.settings.canBegin (Site.firstReading commands last) = true)
    (hcount : Intake.Countable handlers shape
      (lane.readBack ((site.run commands).net.channel 0).journal.output)) :
    ∃ session', Working lane shape handlers session' (site.run commands) ∧
      (session'.phase = .waiting →
        (site.run commands).agent.settings.canBegin last.reading = true) := by
  induction commands generalizing site session with
  | nil => exact ⟨session, h, hbegins⟩
  | cons command rest ih =>
    rw [List.forall_mem_cons] at hstop
    have hsettings := (site.settings_step command).1
    cases hchance : command.chance? with
    | none =>
      refine ih (h.next (h.telling.quiet hchance)) hstop.2 (fun hwaiting => ?_) hcount
      have hfirst := hbegins hwaiting
      rwa [Site.firstReading, List.filterMap_cons_none hchance, ← hsettings] at hfirst
    | some chance =>
      obtain rfl := command.eq_sleep_of_chance hstop.1 hchance
      -- Whatever is published later only adds to what can be read by this chance.
      have hon : (site.shift session).GoesOn chance :=
        (h.telling.serving.goesOn_toward_iff (.sleep (some chance))).mpr hbegins
      have hfits : (site.shift session).Fits chance := by
        refine h.telling.told.fits h.telling.serving.tied
          (h.countable (h.telling.serving.sound.output_run h.size_pos _) hcount) ?_
        intro hcancelled
        exact absurd (h.telling.never_stopped.symm.trans hcancelled) Bool.false_ne_true
      obtain ⟨hrunning, htelling⟩ := h.telling.sleep hon hfits
      refine ih (h.next htelling) hstop.2 (fun hwaiting => ?_) hcount
      exact absurd (hrunning.symm.trans hwaiting) Phase.noConfusion

/-- And it gets through its last chance, if the log can add up what it holds then. -/
theorem Working.stop (h : Working lane shape handlers session site) {last : Chance}
    (hbegins : session.phase = .waiting → site.agent.settings.canBegin last.reading = true)
    (hcount : Intake.Countable handlers shape
      (lane.readBack (site.net.channel 0).journal.output))
    (hlogged : .log ∈ handlers → ∀ emission ∈
      Intake.onePass shape (lane.readBack (site.net.channel 0).journal.output),
        LogLine.Bounded emission.slot) (exclusive : Bool) :
    (site.agent.stopChecked last exclusive).2.2 = none ∧
      HandedOn handlers
        (Intake.onePass shape (lane.readBack (site.net.channel 0).journal.output))
        (site.step (.stop last exclusive)).events := by
  have hserving := h.telling.serving
  have hcontent := (h.map_content_served (last.ticks.count .poll)).1
  have hhistory : (Network.served^[last.ticks.count .poll] site.net).served.history shape = _ :=
    congrArg (Intake.Pass.digestAll { intake := { window := { shape := shape } } }) hcontent
  have hon : (site.cancelled.shift session).GoesOn last :=
    (hserving.goesOn_toward_iff (.stop last exclusive)).mpr hbegins
  have htold : (site.cancelled.shift session).Told shape site.events :=
    h.telling.told.congr rfl rfl rfl
  have hfits : (site.cancelled.shift session).Fits last := by
    refine htold.fits hserving.tied_cancelled (h.countable List.prefix_rfl hcount) ?_
    intro _ hlog slot hslot
    rw [show (site.cancelled.shift session).net = site.net from rfl, hhistory] at hslot
    exact hlogged (hserving.handlers_eq ▸ hlog) _
      (List.mem_append_right _ (List.mem_map.mpr ⟨slot, hslot, rfl⟩))
  obtain ⟨hstops, -, hhanded⟩ := h.telling.stop hon hfits exclusive
  rw [hhistory] at hhanded
  exact ⟨hstops, hhanded⟩

end Work

/-! ## What is told -/

/-- A session begins under any schedule, with nothing read of its ring. -/
theorem exists_working (schedule : Schedule) (hunused : lane.actions = []) :
    ∃ shape session, schedule.settings.aggregation.shape = .ok shape ∧
      (∃ started, (schedule.ready lane).agent.start = .ok started) ∧
      Working lane shape schedule.handlers session ((schedule.ready lane).step .start) := by
  have hready : Site.Early (schedule.ready lane) :=
    (early_idle schedule.settings hunused).run schedule.early
  have hsettings : (schedule.ready lane).agent.settings = schedule.settings :=
    ((sound_alone schedule.settings hunused).1.run schedule.before).2.1
  obtain ⟨started, hstart⟩ := hready.start_succeeds (hsettings.symm ▸ schedule.accepted)
  obtain ⟨shape, session, hshape, -, hbegun⟩ :=
    hready.sound.telling_start hstart hready.never_stopped hready.uncounted
  rw [handlers_ready hunused] at hbegun
  have hsize : (schedule.ready lane).net.merger.readers.size = 1 := size_ready hunused
  obtain ⟨hring, hechoes⟩ := schedule.echoes_run hunused (schedule.before ++ [.start])
  rw [Site.run, List.foldl_append] at hring hechoes
  exact ⟨shape, session, hsettings ▸ hshape, ⟨started, hstart⟩,
    { telling := hbegun
      size_eq := (hready.sound.size_step .start).trans hsize
      origin_eq := hready.origins_start hstart (hsize ▸ Nat.one_pos)
      ring := hring
      echoes := hechoes }⟩

/-- Under any schedule whose first report the machine's clock reaches and whose sums fit their
words, start and stop succeed, and the handlers are told what one pass over the records published
emits, and then what it leaves in the window. -/
theorem told (schedule : Schedule) (hunused : lane.actions = []) (hclock : schedule.InTime)
    (hcounted : schedule.Counted lane) :
    ∃ shape, schedule.settings.aggregation.shape = .ok shape ∧
      List.Forall₂ Ring.Record.ReadsBack (schedule.published lane)
        ((lane.readBack (schedule.published lane)).map .ok) ∧
      schedule.Told lane
        (Intake.onePass shape (lane.readBack (schedule.published lane))) := by
  obtain ⟨shape, session, hshape, hstarts, hbegun⟩ := schedule.exists_working hunused
  obtain ⟨_, haccepted⟩ := Settings.accepted_of_check schedule.accepted
  have hsettings : ((schedule.ready lane).step .start).agent.settings = schedule.settings :=
    ((schedule.ready lane).settings_step .start).1.trans
      ((sound_alone schedule.settings hunused).1.run schedule.before).2.1
  have hcountable := hcounted.countable hshape
  obtain ⟨session', hworking, hlast⟩ := hbegun.run schedule.unstopped
    (fun _ => hsettings.symm ▸ haccepted.canBegin hclock) hcountable
  obtain ⟨hstops, hhanded⟩ := hworking.stop hlast hcountable
    (fun hlog => hcounted.logged (registered_of_log_mem hlog) shape hshape) schedule.exclusive
  exact ⟨shape, hshape, (hworking.map_content_served 0).2, told_of_handed hstarts hstops hhanded⟩

/-- Schedules do not show.  Whatever the intervals at which an agent polls and reports, however
it sleeps and whatever chances its session gets, and however the same records are cut into
batches before it is started and after, its handlers are told the same by the time its first stop
has returned: what one pass over the records emits, in order, and then what is left in the
window.  The machine's clock must reach the first report, and the sums must fit their words. -/
theorem schedule_independent (hunused : lane.actions = []) (first second : Schedule)
    (hclock : first.InTime) (hclock' : second.InTime)
    (hcounted : first.Counted lane) (hcounted' : second.Counted lane)
    (haggregation : second.settings.aggregation = first.settings.aggregation)
    (hpublished : second.published lane = first.published lane) :
    ∃ shape, first.settings.aggregation.shape = .ok shape ∧
      List.Forall₂ Ring.Record.ReadsBack (first.published lane)
        ((lane.readBack (first.published lane)).map .ok) ∧
      first.Told lane (Intake.onePass shape (lane.readBack (first.published lane))) ∧
      second.Told lane (Intake.onePass shape (lane.readBack (first.published lane))) ∧
      ∀ name, second.registered.count name = first.registered.count name →
        deliveredTo name (second.stopped lane).events =
          deliveredTo name (first.stopped lane).events := by
  obtain ⟨shape, hshape, hread, htold⟩ := first.told hunused hclock hcounted
  obtain ⟨shape', hshape', -, htold'⟩ := second.told hunused hclock' hcounted'
  rw [haggregation, hshape] at hshape'
  obtain rfl := Except.ok.inj hshape'
  rw [hpublished] at htold'
  refine ⟨shape, hshape, hread, htold, htold', fun name hcount => ?_⟩
  rw [htold.handed.delivered, htold'.handed.delivered, count_handlers, count_handlers, hcount]

/-! ## Three schedules -/

/-- Three slots of ten nanoseconds each. -/
def decades : Settings.Aggregation where
  slotLength := ⟨10⟩
  slotCount := 3

/-- A measurement is written to the first ring. -/
def written (m : Measurement) : Command :=
  .produce 0 (.write (Message.encodeMeasurement m) sampleRecordType)

/-- Two measurements are published one by one, with a poll after each, and a report between. -/
def eager : Schedule where
  settings := { aggregation := decades, pollInterval := .ofMillis 2 }
  before := [.onSlot "slots"]
  during :=
    [.sleep (some { reading := 1000000000, ticks := [.poll, .poll] }), written Feed.early,
      .produce 0 .finishWrite,
      .sleep (some { reading := 1005000000, ticks := [.poll, .report] }), written Feed.late,
      .produce 0 .finishWrite, .sleep (some { reading := 1008000000, ticks := [.poll, .poll] })]
  last := { reading := 1011000000 }
  accepted := by decide
  early := by simp [Command.isStop]
  unstopped := by simp [Command.isStop, written]

/-- Both are published at once, before the agent is started, and it is stopped without any
sleep. -/
def idle : Schedule where
  settings := { aggregation := decades, pollInterval := .ofMillis 700 }
  before :=
    [written Feed.early, .onSlot "slots", written Feed.late, .produce 0 .finishWrite]
  during := []
  last := { reading := 3000000000 }
  accepted := by decide
  early := by simp [Command.isStop, written]
  unstopped := by simp

/-- What is published under the first can be counted. -/
theorem counted_eager : eager.Counted Feed.narrow where
  records_lt := by decide +kernel
  lost_lt := by decide +kernel
  slots_lt shape hshape := by
    obtain rfl := Except.ok.inj (hshape.symm.trans
      (rfl : decades.shape = .ok { slotLength := 10, slotCount := 3, slotOffset := 0 }))
    decide +kernel
  logged hnone := absurd hnone (by decide)

/-- The handler is told the same under both. -/
theorem schedule_independent_idle :
    Feed.narrow.actions = [] ∧ eager.InTime ∧ idle.InTime ∧
      eager.Counted Feed.narrow ∧ idle.Counted Feed.narrow ∧
      idle.settings.aggregation = eager.settings.aggregation ∧
      idle.published Feed.narrow = eager.published Feed.narrow ∧
      (∃ emissions, eager.Told Feed.narrow emissions ∧ idle.Told Feed.narrow emissions) ∧
      (deliveredTo "slots" (idle.stopped Feed.narrow).events).map
          (fun emission => emission.slot.startTime) =
        [18446744073709551596, 18446744073709551606, 0, 10, 20] := by
  have hpublished : idle.published Feed.narrow = eager.published Feed.narrow := by decide +kernel
  have hclock : eager.InTime := by
    unfold InTime
    decide
  have hclock' : idle.InTime := by
    unfold InTime
    decide
  have hunused : Feed.narrow.actions = [] := rfl
  have hcounted' : idle.Counted Feed.narrow :=
    { records_lt := hpublished ▸ counted_eager.records_lt
      lost_lt := hpublished ▸ counted_eager.lost_lt
      slots_lt := hpublished ▸ counted_eager.slots_lt
      logged := fun hnone => absurd hnone (by decide) }
  obtain ⟨shape, -, -, htold, htold', -⟩ :=
    schedule_independent hunused eager idle hclock hclock' counted_eager hcounted' rfl hpublished
  exact ⟨hunused, hclock, hclock', counted_eager, hcounted', rfl, hpublished, ⟨_, htold, htold'⟩,
    by decide +kernel⟩

/-- The same again, with a report interval of `2 ^ 63` seconds. -/
def endless : Schedule :=
  { idle with
    settings := { idle.settings with statsInterval := .ofParts 9223372036854775808 0 }
    accepted := by decide }

/-- The interval is accepted, but no clock can reach the first report: the session fails when it
begins to run, and what was published is told to nobody. -/
theorem not_told_endless :
    endless.settings.check = .ok () ∧ ¬ endless.InTime ∧
      endless.settings.aggregation = idle.settings.aggregation ∧
      endless.published Feed.narrow = idle.published Feed.narrow ∧
      (∃ started, (endless.ready Feed.narrow).agent.start = .ok started) ∧
      ((endless.ending Feed.narrow).agent.stopChecked endless.last false).2.2 =
        some .pollTask ∧
      deliveredTo "slots" (endless.stopped Feed.narrow).events = [] ∧
      deliveredTo "slots" (idle.stopped Feed.narrow).events ≠ [] := by
  refine ⟨endless.accepted, ?_, rfl, ?_, ?_, ?_, ?_, ?_⟩
  · unfold InTime
    decide
  · decide +kernel
  · exact (early_idle endless.settings rfl).run endless.early |>.start_succeeds (by decide +kernel)
  · decide +kernel
  · decide +kernel
  · decide +kernel

end Schedule

end CacheMeter
