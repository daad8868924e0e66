import Mathlib
import CacheMeter.Proofs.Agent.Site

/-!
# Delivery by an agent

A session polls its rings one last time when it ends, and then hands on the slots that it
still holds.  It ends when it is stopped, so that everything that was published by then is
delivered, whatever its producers did and whatever chances it got before.  But an agent that
was stopped stays cancelled: a session begun later ends at its first chance to run, and what is
published after that stays in the rings.

A session fails if it cannot begin when it gets its first chance, or if a sum that it makes
outgrows its word.  Then the stop says so.

Main results:

- Theorem `Site.Serving.goesOn`: a session at work hands on all that leaves its window.
- Theorem `Site.Spent.step`: what a session has delivered when it ended stays delivered.
- Theorem `Site.Serving.stopped_run`: a stop succeeds exactly if the session could begin and all
  of its sums fit.
- Theorem `Site.stop_delivers`: what was published while a session listened is delivered
  when it has been stopped.
-/

namespace CacheMeter.Site

open Merge

variable {site last : Site} {session : Session} {shape : Window.Shape}
  {handlers : List Handler} {command : Command} {chance : Chance}

/-! ## What a session needs -/

/-- The site when the chance in a command comes: by then an agent that is to stop knows it. -/
def toward (site : Site) (command : Command) : Site :=
  if command.isStop then site.cancelled else site

/-- All sums that the session makes with the chance in a command fit their words. -/
def SumsFit (site : Site) (command : Command) : Prop :=
  ∀ chance ∈ command.chance?, ∀ session ∈ site.agent.session,
    ((site.toward command).shift session).GoesOn chance →
      ((site.toward command).shift session).Fits chance

/-- All sums that the session makes in the course of some commands fit their words. -/
def AllSumsFit (site : Site) : List Command → Prop
  | [] => True
  | command :: rest => site.SumsFit command ∧ (site.step command).AllSumsFit rest

/-- What the machine's clock reads when a session begins that was started: at its first chance
before the stop, or at its last. -/
def firstReading (commands : List Command) (last : Chance) : Nat :=
  ((commands.filterMap Command.chance?).headD last).reading

/-- What a session needs in the course of some commands: to be able to begin with its first chance
if it has not, and that all of its sums fit. -/
structure Provided (site : Site) (session : Session) (commands : List Command) : Prop where
  begins : session.phase = .waiting →
    ∀ chance ∈ (commands.filterMap Command.chance?).head?,
      site.agent.settings.canBegin chance.reading = true
  sums : site.AllSumsFit commands

/-- With a stop there is a first chance. -/
theorem begins_iff (settings : Settings) (commands : List Command) (last : Chance)
    (exclusive : Bool) :
    (∀ chance ∈ ((commands ++ [Command.stop last exclusive]).filterMap Command.chance?).head?,
        settings.canBegin chance.reading = true) ↔
      settings.canBegin (firstReading commands last) = true := by
  rw [firstReading, List.filterMap_append]
  cases commands.filterMap Command.chance? <;> simp [Command.chance?]

/-- Sums that fit all along fit in both parts. -/
theorem allSumsFit_append (site : Site) (first second : List Command) :
    site.AllSumsFit (first ++ second) ↔
      site.AllSumsFit first ∧ (site.run first).AllSumsFit second := by
  induction first generalizing site with
  | nil => exact (true_and _).to_iff.symm
  | cons command rest ih =>
    rw [List.cons_append, AllSumsFit, AllSumsFit, ih, and_assoc]
    rfl

/-- Without a chance nothing is added up. -/
theorem sumsFit_of_no_chance (site : Site) (hnone : command.chance? = none) :
    site.SumsFit command := by
  intro chance hchance
  rw [hnone] at hchance
  exact absurd hchance (Option.not_mem_none chance)

/-! ## A session at work -/

/-- The session has not ended, and all that left its window was handed on. -/
structure Serving (shape : Window.Shape) (handlers : List Handler) (session : Session)
    (site : Site) : Prop where
  sound : site.Sound
  session_eq : site.agent.session = some session
  handlers_eq : session.handlers = handlers
  live : session.phase = .waiting ∨ session.phase = .running
  fed : (site.shift session).Fed shape site.events
  /-- Under an agent that was stopped before, it had no chance to run yet. -/
  waiting : site.agent.cancelled = true → session.phase = .waiting

/-- A session begins with an empty window, and nothing has come out of its rings. -/
theorem Sound.serving_start (h : site.Sound) {started : Agent}
    (hstart : site.agent.start = .ok started) :
    ∃ shape session, site.agent.settings.aggregation.shape = .ok shape ∧ shape.check = .ok () ∧
      session.phase = .waiting ∧
      Serving shape (if site.agent.handlers.isEmpty then [.log] else site.agent.handlers)
        session (site.step .start) := by
  have hsound := h.start
  rw [Site.step, hstart] at hsound ⊢
  obtain ⟨-, shape, readers, hshape, hcheck, -, rfl⟩ := Agent.start_eq_ok hstart
  exact
    ⟨shape, _, hshape, hcheck, rfl,
      { sound := hsound
        session_eq := rfl
        handlers_eq := rfl
        live := .inl rfl
        fed := ⟨[], handedOn_logged _ [], rfl, rfl⟩
        waiting := fun _ => rfl }⟩

/-- Being started again is refused. -/
theorem step_start_of_session (hsession : site.agent.session = some session) :
    site.step .start = site := by
  have hrefused : site.agent.start = .error .alreadyStarted :=
    Agent.start_twice (by rw [hsession]; rfl)
  rw [Site.step, hrefused]

/-- Producers have no say in what is taken out of their rings. -/
theorem accepted_produce (net : Network) (ring : Nat) (action : Ring.Action) :
    (net.step (.produce ring action)).accepted = net.accepted := by
  rw [Network.accepted, Network.merged_produce]
  rfl

/-- A session at work has not failed. -/
theorem Serving.phase_ne (h : Serving shape handlers session site) :
    session.phase ≠ .failed := by
  rcases h.live with hphase | hphase <;> rw [hphase] <;> decide

/-- It reads the rings of the network. -/
theorem Serving.tied (h : Serving shape handlers session site) : (site.shift session).Tied :=
  h.sound.tied h.session_eq h.phase_ne

/-- An agent that is told to stop has its session at work. -/
theorem Serving.tied_cancelled (h : Serving shape handlers session site) :
    (site.cancelled.shift session).Tied :=
  h.sound.cancelled.tied h.session_eq h.phase_ne

/-- A session at work stays as it is while it gets no chance. -/
theorem Serving.quiet (h : Serving shape handlers session site)
    (hnone : command.chance? = none) : Serving shape handlers session (site.step command) := by
  have hsound := h.sound.step command
  cases command with
  | onSlot name => exact ⟨hsound, h.session_eq, h.handlers_eq, h.live, h.fed, h.waiting⟩
  | start => exact (step_start_of_session h.session_eq).symm ▸ h
  | stop last exclusive => exact absurd hnone (Option.some_ne_none last)
  | sleep chance? =>
    obtain rfl : chance? = none := hnone
    exact h
  | produce ring action =>
    rw [Site.step] at hsound ⊢
    split_ifs at hsound ⊢
    · exact h
    · exact ⟨hsound, h.session_eq, h.handlers_eq, h.live,
        h.fed.congr rfl (accepted_produce _ _ _), h.waiting⟩

/-- With a chance that it gets through, a session at work stays so, unless the agent was stopped
before. -/
theorem Serving.goesOn (h : Serving shape handlers session site)
    (hon : (site.shift session).GoesOn chance) (hfits : (site.shift session).Fits chance)
    (hlive : site.agent.cancelled = false) :
    ((site.shift session).chanced chance).session.phase = .running ∧
      Serving shape handlers ((site.shift session).chanced chance).session
        (site.step (.sleep (some chance))) := by
  have hsound := h.sound.sleep (some chance)
  have hframe := site.agent.frame_outcome session chance
  obtain ⟨hfed, hphase⟩ := h.fed.chanced h.tied hon hfits hlive
  rw [step_sleep_of_session h.session_eq] at hsound ⊢
  exact ⟨hphase,
    { sound := hsound
      session_eq := rfl
      handlers_eq := hframe.handlers_eq.trans h.handlers_eq
      live := .inr hphase
      fed := hfed
      waiting := fun hcancelled =>
        absurd (hframe.cancelled_eq.symm.trans hcancelled) (by simp [hlive]) }⟩

/-! ## A session that has ended -/

/-- After `last`, the rings were polled once more, and the session handed on what it still
held. -/
structure Spent (shape : Window.Shape) (handlers : List Handler) (last site : Site) : Prop where
  sound : site.Sound
  delivered : ∀ ring < site.net.merger.readers.size, Network.Delivered last.net site.net ring
  handed : ∃ emissions, HandedOn handlers emissions site.events ∧
    Intake.slotsOf emissions =
      (Window.ingestAll { shape := shape } site.net.accepted).1 ++
        (Window.ingestAll { shape := shape } site.net.accepted).2.slots

/-- The session is still there, but is in a phase in which it does nothing. -/
def Resting (site : Site) (phase : Phase) : Prop :=
  ∃ session, site.agent.session = some session ∧ session.phase = phase

/-- In such a phase it does not go on. -/
theorem not_goesOn_of_over (site : Site)
    (hphase : session.phase = .finished ∨ session.phase = .failed) (chance : Chance) :
    ¬ (site.shift session).GoesOn chance := by
  rw [Shift.goesOn_iff]
  rcases hphase with hphase | hphase <;> simp [shift, hphase]

/-- Nor does it change its phase. -/
theorem entered_of_over (site : Site)
    (hphase : session.phase = .finished ∨ session.phase = .failed) (chance : Chance) :
    (site.shift session).entered chance = site.shift session := by
  obtain ⟨readers, window, roster, handlers, phase⟩ := session
  obtain rfl | rfl := hphase <;> rfl

/-- A session that is over makes no sums. -/
theorem Resting.sumsFit {phase : Phase} (h : site.Resting phase)
    (hphase : phase = .finished ∨ phase = .failed) (command : Command) :
    site.SumsFit command := by
  obtain ⟨session, hsession, rfl⟩ := h
  rintro chance - other hother hon
  obtain rfl := Option.some.inj (hsession.symm.trans hother)
  exact absurd hon ((site.toward command).not_goesOn_of_over hphase chance)

/-- Sleeping does nothing to a session that is over. -/
theorem step_sleep_of_resting {phase : Phase} (h : site.Resting phase)
    (hphase : phase = .finished ∨ phase = .failed) (chance? : Option Chance) :
    site.step (.sleep chance?) = site := by
  obtain ⟨session, hsession, rfl⟩ := h
  cases chance? with
  | none => rfl
  | some chance =>
    obtain ⟨hchanced, hseen⟩ :=
      Shift.chanced_of_not_goesOn (site.not_goesOn_of_over hphase chance)
    rw [step_sleep_of_session hsession, hchanced, hseen, site.entered_of_over hphase,
      List.append_nil]
    obtain ⟨⟨settings, memory, names, tally, cancelled, found⟩, net, events, closed⟩ := site
    obtain rfl : found = some session := hsession
    rfl

/-- A session that is over stays so until it is stopped. -/
theorem Resting.step {phase : Phase} (h : site.Resting phase)
    (hphase : phase = .finished ∨ phase = .failed) (hstop : command.isStop = false) :
    (site.step command).Resting phase := by
  have hsession := h
  obtain ⟨session, hsession, hsame⟩ := hsession
  cases command with
  | onSlot name => exact ⟨session, hsession, hsame⟩
  | start => rwa [step_start_of_session hsession]
  | stop last exclusive => exact absurd hstop Bool.noConfusion
  | sleep chance? => rwa [step_sleep_of_resting h hphase]
  | produce ring action =>
    rw [Site.step]
    split_ifs
    · exact h
    · exact ⟨session, hsession, hsame⟩

/-- And makes no sums until then. -/
theorem Resting.run {phase : Phase} (h : site.Resting phase)
    (hphase : phase = .finished ∨ phase = .failed) {commands : List Command}
    (hstop : ∀ command ∈ commands, command.isStop = false) :
    (site.run commands).Resting phase ∧ site.AllSumsFit commands := by
  induction commands generalizing site with
  | nil => exact ⟨h, trivial⟩
  | cons command rest ih =>
    rw [List.forall_mem_cons] at hstop
    obtain ⟨hlast, hall⟩ := ih (h.step hphase hstop.1) hstop.2
    exact ⟨hlast, h.sumsFit hphase command, hall⟩

/-- What a session has delivered when it ended stays delivered, until the next is started. -/
theorem Spent.step (h : Spent shape handlers last site) (hfinished : site.Resting .finished)
    (hstop : command.isStop = false) : Spent shape handlers last (site.step command) := by
  have hsound := h.sound.step command
  cases command with
  | onSlot name => exact ⟨hsound, h.delivered, h.handed⟩
  | start =>
    obtain ⟨session, hsession, -⟩ := hfinished
    rwa [step_start_of_session hsession]
  | stop last exclusive => exact absurd hstop Bool.noConfusion
  | sleep chance? =>
    -- Records that came after the session ended are not read, however often it gets a chance.
    rwa [step_sleep_of_resting hfinished (.inl rfl)]
  | produce ring action =>
    rw [Site.step] at hsound ⊢
    split_ifs at hsound ⊢
    · exact h
    · refine ⟨hsound, ?_, ?_⟩
      · intro other hlt
        have hlt' : other < site.net.merger.readers.size := by
          rwa [← merger_produce site.net ring action]
        exact (h.delivered other hlt').produce h.sound.net hlt' ring action
      · simp only [accepted_produce]
        exact h.handed

/-- And so it does whatever is done but a stop. -/
theorem Spent.run (h : Spent shape handlers last site) (hfinished : site.Resting .finished)
    {commands : List Command} (hstop : ∀ command ∈ commands, command.isStop = false) :
    Spent shape handlers last (site.run commands) := by
  induction commands generalizing site with
  | nil => exact h
  | cons command rest ih =>
    rw [List.forall_mem_cons] at hstop
    exact ih (h.step hfinished hstop.1) (hfinished.step (.inl rfl) hstop.1) hstop.2

/-- With its last chance, a session at work hands on what it still holds. -/
theorem Serving.ended (h : Serving shape handlers session site)
    (hon : (site.cancelled.shift session).GoesOn chance)
    (hfits : (site.cancelled.shift session).Fits chance) :
    let after := (site.cancelled.shift session).chanced chance
    after.session.phase = .finished ∧
      (∀ ring < site.net.merger.readers.size, Network.Delivered site.net after.net ring ∧
        (after.net.memory.region ring).head = (site.net.memory.region ring).head) ∧
      ∃ emissions, HandedOn handlers emissions
          (site.events ++ (site.cancelled.shift session).seen chance) ∧
        Intake.slotsOf emissions =
          (Window.ingestAll { shape := shape } after.net.accepted).1 ++
            (Window.ingestAll { shape := shape } after.net.accepted).2.slots := by
  intro after
  have hframe := site.cancelled.agent.frame_outcome session chance
  have hfed : (site.cancelled.shift session).Fed shape site.events := h.fed
  obtain ⟨⟨emissions, hhanded, hslots⟩, hphase, hnet⟩ :=
    hfed.ended h.tied_cancelled hon hfits rfl
  have hhandlers : after.session.handlers = handlers := hframe.handlers_eq.trans h.handlers_eq
  refine ⟨hphase, fun ring hlt => ?_, emissions, hhandlers ▸ hhanded, hslots⟩
  have hafter : after.net = (Network.served^[chance.ticks.count .poll] site.net).served := hnet
  rw [hafter]
  exact h.sound.net.delivered_iterate hlt _

/-- Cancelled before its first chance, a session ends with it. -/
theorem Serving.spent_sleep (h : Serving shape handlers session site)
    (hcancelled : site.agent.cancelled = true) (hon : (site.shift session).GoesOn chance)
    (hfits : (site.shift session).Fits chance) :
    Spent shape handlers site (site.step (.sleep (some chance))) ∧
      (site.step (.sleep (some chance))).Resting .finished := by
  have hsame : site.cancelled = site := by
    obtain ⟨⟨settings, memory, names, tally, cancelled, found⟩, net, events, closed⟩ := site
    obtain rfl : cancelled = true := hcancelled
    rfl
  have hsound := h.sound.sleep (some chance)
  obtain ⟨hphase, hdelivered, hhanded⟩ := h.ended (hsame.symm ▸ hon) (hsame.symm ▸ hfits)
  have hsize := h.sound.size_step (.sleep (some chance))
  rw [hsame] at hphase hdelivered hhanded
  rw [step_sleep_of_session h.session_eq] at hsound hsize ⊢
  exact ⟨⟨hsound, fun ring hlt => (hdelivered ring (hsize ▸ hlt)).1, hhanded⟩, _, rfl, hphase⟩

/-! ## The stop -/

/-- After a stop all that was published by `last` has been delivered.  It publishes nothing
itself. -/
structure Stopped (shape : Window.Shape) (handlers : List Handler) (last site : Site)
    (chance : Chance) (exclusive : Bool) : Prop where
  succeeds : (site.agent.stopChecked chance exclusive).2.2 = none
  session_eq : (site.step (.stop chance exclusive)).agent.session = none
  head_eq : ∀ ring < site.net.merger.readers.size,
    ((site.step (.stop chance exclusive)).net.memory.region ring).head =
      (site.net.memory.region ring).head
  spent : Spent shape handlers last (site.step (.stop chance exclusive))

/-- A session at work that gets through its last chance polls once more, hands on what it still
holds and ends. -/
theorem Serving.stop (h : Serving shape handlers session site)
    (hon : (site.cancelled.shift session).GoesOn chance)
    (hfits : (site.cancelled.shift session).Fits chance) (exclusive : Bool) :
    Stopped shape handlers site site chance exclusive := by
  have hsound := h.sound.stop chance exclusive
  have hsize := h.sound.size_step (.stop chance exclusive)
  obtain ⟨hphase, hdelivered, hhanded⟩ := h.ended hon hfits
  have hphase' : ((site.cancelled.shift session).chanced chance).session.phase ≠ .failed :=
    hphase ▸ Phase.noConfusion
  obtain ⟨hfault, hstep⟩ := step_stop_of_not_failed h.session_eq exclusive hphase'
  rw [hstep] at hsound hsize
  refine ⟨hfault, ?_, ?_, ?_⟩
  · rw [hstep]
    simp only [closeUnlessShared_eq]
  · rw [hstep]
    exact fun ring hlt => (hdelivered ring hlt).2
  · rw [hstep]
    exact ⟨hsound, fun ring hlt => (hdelivered ring (hsize ▸ hlt)).1, hhanded⟩

/-- A session that has ended before does nothing more when it is stopped. -/
theorem Spent.stop (h : Spent shape handlers last site) (hfinished : site.Resting .finished)
    (chance : Chance) (exclusive : Bool) : Stopped shape handlers last site chance exclusive := by
  have hsound := h.sound.stop chance exclusive
  obtain ⟨session, hsession, hphase⟩ := hfinished
  obtain ⟨hchanced, hseen⟩ :=
    Shift.chanced_of_not_goesOn (site.cancelled.not_goesOn_of_over (.inl hphase) chance)
  rw [site.cancelled.entered_of_over (.inl hphase)] at hchanced
  have hphase' : ((site.cancelled.shift session).chanced chance).session.phase ≠ .failed := by
    have hsame : (site.cancelled.shift session).session.phase = .finished := hphase
    rw [hchanced, hsame]
    exact Phase.noConfusion
  obtain ⟨hfault, hstep⟩ := step_stop_of_not_failed hsession exclusive hphase'
  rw [hchanced, hseen, List.append_nil] at hstep
  rw [hstep] at hsound
  refine ⟨hfault, ?_, ?_, ?_⟩
  · rw [hstep]
    simp only [closeUnlessShared_eq]
  · rw [hstep]
    exact fun ring hlt => rfl
  · rw [hstep]
    exact ⟨hsound, h.delivered, h.handed⟩

/-- A session that has failed before makes the stop fail. -/
theorem fault_of_failed (hfailed : site.Resting .failed) (chance : Chance) (exclusive : Bool) :
    (site.agent.stopChecked chance exclusive).2.2 = some .pollTask := by
  obtain ⟨session, hsession, hphase⟩ := hfailed
  refine (step_stop_of_failed hsession exclusive ?_).1
  rw [(Shift.chanced_of_not_goesOn (site.cancelled.not_goesOn_of_over (.inr hphase) chance)).1,
    site.cancelled.entered_of_over (.inr hphase)]
  exact hphase

/-- The commands during which a session listens to its rings: all of them, unless the agent
was stopped before the session began; then those before its first chance to run. -/
def heard (cancelled : Bool) (commands : List Command) : List Command :=
  if cancelled then commands.takeWhile fun command => command.chance?.isNone else commands

/-- A session listens to a command unless it ends with the chance in it. -/
theorem heard_cons (cancelled : Bool) (command : Command) (rest : List Command) :
    heard cancelled (command :: rest) =
      if cancelled && command.chance?.isSome then [] else command :: heard cancelled rest := by
  cases cancelled with
  | false => rfl
  | true =>
    rw [heard, if_pos rfl, List.takeWhile_cons, Bool.true_and]
    cases command.chance? <;> rfl

/-- A session at work goes on with a chance if it has begun or can begin with it. -/
theorem Serving.goesOn_toward_iff (h : Serving shape handlers session site) (command : Command) :
    ((site.toward command).shift session).GoesOn chance ↔
      (session.phase = .waiting → site.agent.settings.canBegin chance.reading = true) := by
  have hsettings : (site.toward command).agent.settings = site.agent.settings := by
    rw [toward]
    split_ifs <;> rfl
  rw [Shift.goesOn_iff]
  rcases h.live with hphase | hphase <;> simp [shift, hphase, hsettings]

/-- It needs nothing for a command without a chance. -/
theorem provided_cons_of_none (hnone : command.chance? = none) (rest : List Command) :
    site.Provided session (command :: rest) ↔ (site.step command).Provided session rest := by
  have hsettings := (site.settings_step command).1
  constructor
  · rintro ⟨hbegins, -, hsums⟩
    rw [List.filterMap_cons_none hnone, ← hsettings] at hbegins
    exact ⟨hbegins, hsums⟩
  · rintro ⟨hbegins, hsums⟩
    rw [hsettings] at hbegins
    refine ⟨?_, site.sumsFit_of_no_chance hnone, hsums⟩
    rwa [List.filterMap_cons_none hnone]

/-- With a chance it needs to go on, and its sums to fit. -/
theorem Serving.provided_cons_of_some (h : Serving shape handlers session site)
    (hsome : command.chance? = some chance) (rest : List Command) :
    site.Provided session (command :: rest) ↔
      (((site.toward command).shift session).GoesOn chance ∧
        ((site.toward command).shift session).Fits chance) ∧
        (site.step command).AllSumsFit rest := by
  have hon : ((site.toward command).shift session).GoesOn chance ↔ _ :=
    h.goesOn_toward_iff command
  constructor
  · rintro ⟨hbegins, hsums, hrest⟩
    rw [List.filterMap_cons_some hsome] at hbegins
    have hgoesOn := hon.mpr fun hwaiting => hbegins hwaiting chance rfl
    exact ⟨⟨hgoesOn, hsums chance hsome session h.session_eq hgoesOn⟩, hrest⟩
  · rintro ⟨⟨hgoesOn, hfits⟩, hrest⟩
    refine ⟨fun hwaiting first hfirst => ?_, fun other hother found hfound _ => ?_, hrest⟩
    · rw [List.filterMap_cons_some hsome] at hfirst
      obtain rfl := Option.some.inj hfirst
      exact hon.mp hgoesOn hwaiting
    · obtain rfl := Option.some.inj (hsome.symm.trans hother)
      obtain rfl := Option.some.inj (h.session_eq.symm.trans hfound)
      exact hfits

/-- A session that ends with a chance has delivered by the stop, whatever is done until then. -/
theorem Serving.stopped_of_spent (h : Serving shape handlers session site)
    (hset : site.agent.cancelled = true) {first : Chance}
    (hon : (site.shift session).GoesOn first) (hfits : (site.shift session).Fits first)
    {rest : List Command} (hrest : ∀ command ∈ rest, command.isStop = false) (chance : Chance)
    (exclusive : Bool) :
    let ended := site.step (.sleep (some first))
    ended.AllSumsFit (rest ++ [.stop chance exclusive]) ∧
      Stopped shape handlers site (ended.run rest) chance exclusive := by
  intro ended
  obtain ⟨hspent, hfinished⟩ := h.spent_sleep hset hon hfits
  obtain ⟨hfinished', hsums⟩ := hfinished.run (.inl rfl) hrest
  have hall : ended.AllSumsFit (rest ++ [.stop chance exclusive]) :=
    (allSumsFit_append _ rest [.stop chance exclusive]).mpr
      ⟨hsums, hfinished'.sumsFit (.inl rfl) _, trivial⟩
  exact ⟨hall, (hspent.run hfinished hrest).stop hfinished' chance exclusive⟩

/-- A session that does not get through a chance makes the stop fail, whatever is done until
then. -/
theorem Serving.fault_of_not (h : Serving shape handlers session site) {first : Chance}
    (hnot : ¬ ((site.shift session).GoesOn first ∧ (site.shift session).Fits first))
    {rest : List Command} (hrest : ∀ command ∈ rest, command.isStop = false) (chance : Chance)
    (exclusive : Bool) :
    (((site.step (.sleep (some first))).run rest).agent.stopChecked chance exclusive).2.2 =
      some .pollTask := by
  have hfailed : (site.step (.sleep (some first))).Resting .failed := by
    refine ⟨((site.shift session).chanced first).session, ?_,
      Shift.phase_chanced_of_not h.live hnot⟩
    rw [step_sleep_of_session h.session_eq]
  exact fault_of_failed (hfailed.run (.inr rfl) hrest).1 chance exclusive

/-- Whatever is done before the stop, it succeeds exactly if the session was provided for, and
then it delivers what was published while the session listened. -/
theorem Serving.stopped_run (h : Serving shape handlers session site) {commands : List Command}
    (hstop : ∀ command ∈ commands, command.isStop = false) (chance : Chance) (exclusive : Bool) :
    site.Provided session (commands ++ [.stop chance exclusive]) ∧
        Stopped shape handlers (site.run (heard site.agent.cancelled commands))
          (site.run commands) chance exclusive ∨
      ¬ site.Provided session (commands ++ [.stop chance exclusive]) ∧
        ((site.run commands).agent.stopChecked chance exclusive).2.2 = some .pollTask := by
  induction commands generalizing site session with
  | nil =>
    have hnone : heard site.agent.cancelled [] = [] := ite_self _
    rw [hnone, List.nil_append, h.provided_cons_of_some rfl]
    by_cases hprovided : (site.cancelled.shift session).GoesOn chance ∧
        (site.cancelled.shift session).Fits chance
    · exact .inl ⟨⟨hprovided, trivial⟩, h.stop hprovided.1 hprovided.2 exclusive⟩
    · have hfailed : ((site.cancelled.shift session).chanced chance).session.phase = .failed :=
        Shift.phase_chanced_of_not h.live hprovided
      exact .inr ⟨fun hall => hprovided hall.1,
        (step_stop_of_failed h.session_eq exclusive hfailed).1⟩
  | cons command rest ih =>
    rw [List.forall_mem_cons] at hstop
    obtain ⟨hquiet, hrest⟩ := hstop
    have hcancelled := (site.settings_step command).2
    rw [hquiet, Bool.or_false] at hcancelled
    rw [heard_cons, List.cons_append]
    cases hchance : command.chance? with
    | none =>
      have hnext := ih (h.quiet hchance) hrest
      rw [hcancelled] at hnext
      rw [provided_cons_of_none hchance, Option.isSome_none, Bool.and_false]
      exact hnext
    | some first =>
      obtain rfl := command.eq_sleep_of_chance hquiet hchance
      rw [h.provided_cons_of_some hchance, Option.isSome_some, Bool.and_true]
      by_cases hprovided : (site.shift session).GoesOn first ∧ (site.shift session).Fits first
      · obtain ⟨hon, hfits⟩ := hprovided
        split_ifs with hset
        · -- The session ends with this chance, and hears nothing of what comes after.
          obtain ⟨hsums, hstopped⟩ := h.stopped_of_spent hset hon hfits hrest chance exclusive
          exact .inl ⟨⟨⟨hon, hfits⟩, hsums⟩, hstopped⟩
        · have hlive : site.agent.cancelled = false := by simpa using hset
          obtain ⟨hrunning, hnext⟩ := h.goesOn hon hfits hlive
          rw [hlive] at hcancelled
          -- It has begun by now, so that no later reading of the clock matters.
          rcases ih hnext hrest with ⟨⟨-, hsums⟩, hstopped⟩ | ⟨hnot, hfault⟩
          · rw [hcancelled] at hstopped
            rw [hlive]
            exact .inl ⟨⟨⟨hon, hfits⟩, hsums⟩, hstopped⟩
          · refine .inr ⟨fun hall => hnot ⟨fun hwaiting => ?_, hall.2⟩, hfault⟩
            exact absurd (hrunning.symm.trans hwaiting) Phase.noConfusion
      · exact .inr ⟨fun hall => hprovided hall.1,
          h.fault_of_not hprovided hrest chance exclusive⟩

/-- Before its first chance, a session is provided for if it can begin then and its sums fit. -/
theorem provided_iff_of_waiting (hwaiting : session.phase = .waiting) (commands : List Command)
    (last : Chance) (exclusive : Bool) :
    site.Provided session (commands ++ [.stop last exclusive]) ↔
      site.agent.settings.canBegin (firstReading commands last) = true ∧
        site.AllSumsFit (commands ++ [.stop last exclusive]) := by
  have hbegins := begins_iff site.agent.settings commands last exclusive
  constructor
  · exact fun hprovided => ⟨hbegins.mp (hprovided.begins hwaiting), hprovided.sums⟩
  · exact fun ⟨hfirst, hsums⟩ => ⟨fun _ => hbegins.mpr hfirst, hsums⟩

/-- A session that listened until the stop leaves nothing unread. -/
theorem Stopped.tail_eq_head (h : Stopped shape handlers site site chance exclusive)
    (hsound : site.Sound) {ring : Nat} (hlt : ring < site.net.merger.readers.size) :
    let stopped := site.step (.stop chance exclusive)
    (stopped.net.memory.region ring).tail = (stopped.net.memory.region ring).head := by
  intro stopped
  have hlt' : ring < stopped.net.merger.readers.size := (hsound.size_step _).symm ▸ hlt
  exact (h.spent.delivered ring hlt').tail_eq.trans (h.head_eq ring hlt).symm

/-! ## Any life of an agent -/

/-- What an agent has delivered by the end of a session that listened until `last`. -/
structure Delivers (rings : Nat) (shape : Window.Shape) (handlers : List Handler)
    (last stopped : Site) : Prop where
  /-- The agent still has its rings unless it has closed them. -/
  memory_eq : stopped.agent.memory =
    if stopped.closed then stopped.net.memory.map Ring.Region.close else stopped.net.memory
  /-- Everything that was published has been read and released, … -/
  delivered : ∀ ring < rings, Network.Delivered last.net stopped.net ring
  /-- … what the session read of a ring are the records that were left by those before it, … -/
  mergedOf_eq : ∀ ring < rings, stopped.net.mergedOf ring =
    (stopped.net.channel ring).journal.popped.drop (stopped.net.origins.getD ring 0)
  /-- … and the handlers were handed, in order and nothing else, all slots that the
  measurements among these records opened. -/
  handed : ∃ emissions, HandedOn handlers emissions stopped.events ∧
    Intake.slotsOf emissions =
      (Window.ingestAll { shape := shape } stopped.net.accepted).1 ++
        (Window.ingestAll { shape := shape } stopped.net.accepted).2.slots ∧
    (shape.slotCount.toNat * shape.slotLength.toNat ≤ 2 ^ 62 →
      Window.spans (Intake.slotsOf emissions) =
        Window.spans (({ window := { shape := shape } } : Window.Chronicle).run
          (Window.takings stopped.net.accepted)).opened)

/-- The slots handed on are those that a chronicle of the window opens. -/
theorem Spent.delivers (h : Spent shape handlers last site) (hcheck : shape.check = .ok ()) :
    Delivers site.net.merger.readers.size shape handlers last site := by
  obtain ⟨emissions, hhanded, hslots⟩ := h.handed
  refine
    ⟨h.sound.memory_eq, h.delivered, fun ring hlt => h.sound.net.logged.mergedOf_eq ring hlt,
      emissions, hhanded, hslots, fun hspan => ?_⟩
  have haccounted : Window.Accounted { window := { shape := shape } } :=
    Window.accounted_idle (Window.Shape.bounded_of_check hcheck hspan)
  obtain ⟨hwindow, hevicted⟩ := haccounted.run_takings site.net.accepted
  have hspans := (haccounted.run (Window.takings site.net.accepted)).spans_eq
  rw [hslots, ← hspans, Window.Chronicle.slots, hwindow, hevicted]
  rfl

/-- Whatever was done to an agent before, and whatever is done to it and by its producers from
a start that succeeds to the next stop, the stop succeeds exactly if the session could begin at
its first chance and none of its sums outgrew a word, and otherwise it says that the session has
failed.  When it succeeds, all that was published while the session listened is delivered.  A
session of an agent that was never stopped before listens to the end. -/
theorem stop_delivers {settings : Settings} {lanes : List Lane}
    (hunused : ∀ lane ∈ lanes, lane.actions = []) {before during : List Command} {started : Agent}
    (hstart : ((idle settings lanes).run before).agent.start = .ok started)
    (hstop : ∀ command ∈ during, command.isStop = false) (chance : Chance) (exclusive : Bool) :
    let first := (idle settings lanes).run before
    let listening := heard (before.any Command.isStop) during
    let last := first.run (.start :: listening)
    let site := first.run (.start :: during)
    let stopped := site.step (.stop chance exclusive)
    let fault? := (site.agent.stopChecked chance exclusive).2.2
    (fault? = none ∨ fault? = some .pollTask) ∧
      (fault? = none ↔ settings.canBegin (firstReading during chance) = true ∧
        (first.step .start).AllSumsFit (during ++ [.stop chance exclusive])) ∧
      (fault? = none → stopped.agent.session = none ∧
        (listening = during → ∀ ring < lanes.length,
          (stopped.net.memory.region ring).tail = (stopped.net.memory.region ring).head) ∧
        ∃ shape, settings.aggregation.shape = .ok shape ∧
          Delivers lanes.length shape
            (if first.agent.handlers.isEmpty then [.log] else first.agent.handlers)
            last stopped) := by
  intro first listening last site stopped fault?
  obtain ⟨hsound, hsettings, hsize⟩ := (sound_idle settings hunused).run before
  obtain ⟨shape, session, hshape, hcheck, hwaiting, hserving⟩ := hsound.serving_start hstart
  obtain ⟨hsettings', hcancelled⟩ := first.settings_step .start
  have hcancelled' : (first.step .start).agent.cancelled = before.any Command.isStop := by
    rw [hcancelled, cancelled_run]
    exact Bool.or_false _
  have hprovided : (first.step .start).Provided session (during ++ [.stop chance exclusive]) ↔ _ :=
    provided_iff_of_waiting hwaiting during chance exclusive
  have hstopped := hserving.stopped_run hstop chance exclusive
  rw [hsettings', hsettings] at hprovided
  rw [hprovided, hcancelled'] at hstopped
  rcases hstopped with ⟨hyes, hdone⟩ | ⟨hno, hfault⟩
  · obtain ⟨hlast, -, hrun⟩ := hserving.sound.run during
    have hsite : site.net.merger.readers.size = lanes.length :=
      hrun.trans ((hsound.size_step .start).trans (hsize.trans (size_idle settings hunused)))
    have hrings : stopped.net.merger.readers.size = lanes.length :=
      (hlast.size_step (.stop chance exclusive)).trans hsite
    have hshape' : settings.aggregation.shape = .ok shape := by
      rw [← hshape, hsettings]
      rfl
    refine ⟨.inl hdone.succeeds, iff_of_true hdone.succeeds hyes, fun _ =>
      ⟨hdone.session_eq, fun hall ring hlt => ?_, shape, hshape', ?_⟩⟩
    · rw [show heard (before.any Command.isStop) during = during from hall] at hdone
      exact hdone.tail_eq_head hlast (hsite ▸ hlt)
    · exact hrings ▸ hdone.spent.delivers hcheck
  · have hfailed : fault? ≠ none := by
      rw [show fault? = some .pollTask from hfault]
      exact Option.some_ne_none _
    exact ⟨.inr hfault, iff_of_false hfailed hno, fun hnone => absurd hnone hfailed⟩

/-- What the producer of the first ring does to publish a measurement. -/
def publication : List Command :=
  [.produce 0 (.write (Message.encodeMeasurement Feed.early) sampleRecordType),
    .produce 0 .finishWrite]

/-- A session gets a chance, polls its ring in vain, reports, and polls once more. -/
def vainly : Command :=
  .sleep (some { reading := 1000000000, ticks := [.poll, .report, .poll] })

/-- An agent that has polled its ring in vain delivers what comes just before the stop. -/
theorem stop_delivers_late :
    (∀ lane ∈ [Feed.narrow], lane.actions = []) ∧
      (∀ command ∈ vainly :: publication, command.isStop = false) ∧
      let first := (idle {} [Feed.narrow]).run [.onSlot "slots"]
      let last := first.run (.start :: vainly :: publication)
      let stopped := last.step (.stop { reading := 2000000000 } false)
      ∃ started, first.agent.start = .ok started ∧
        (last.agent.stopChecked { reading := 2000000000 } false).2.2 = none ∧
        ({} : Settings).canBegin 1000000000 = true ∧
        (first.step .start).AllSumsFit
          (vainly :: publication ++ [.stop { reading := 2000000000 } false]) ∧
        (stopped.net.memory.region 0).tail = (stopped.net.memory.region 0).head ∧
        ∃ shape, Delivers 1 shape [.named "slots"] last stopped := by
  have hunused : ∀ lane ∈ [Feed.narrow], lane.actions = [] := by simp [Feed.narrow]
  have hduring : ∀ command ∈ vainly :: publication, command.isStop = false := by
    simp [vainly, publication, Command.isStop]
  have hok : ((idle {} [Feed.narrow]).run [.onSlot "slots"]).agent.start.isOk = true := by
    decide +kernel
  cases hstart : ((idle {} [Feed.narrow]).run [.onSlot "slots"]).agent.start with
  | error fault =>
    rw [hstart] at hok
    exact absurd hok Bool.false_ne_true
  | ok started =>
    obtain ⟨-, hiff, hdelivers⟩ :=
      stop_delivers hunused hstart hduring { reading := 2000000000 } false
    have hfault := (show _ = none by decide +kernel : (((idle {} [Feed.narrow]).run
      [.onSlot "slots"]).run (.start :: vainly :: publication)).agent.stopChecked
        { reading := 2000000000 } false |>.2.2 = none)
    obtain ⟨hbegins, hsums⟩ := hiff.mp hfault
    obtain ⟨-, hconsumed, shape, -, hall⟩ := hdelivers hfault
    exact ⟨hunused, hduring, started, hstart, hfault, hbegins, hsums,
      hconsumed rfl 0 Nat.zero_lt_one, shape, hall⟩

/-- An agent that was stopped is started again, sleeps, and is stopped once more after a
measurement was published. -/
def restarted : Site :=
  (idle {} [Feed.narrow]).run
    ([.onSlot "slots", .start, .stop { reading := 0 } false, .onSlot "slots", .start,
      .sleep (some { reading := 5000000 })] ++ publication)

/-- The measurement stays in its ring, and no slot is handed on. -/
theorem not_delivered_restarted :
    ((idle {} [Feed.narrow]).run
        [.onSlot "slots", .start, .stop { reading := 0 } false,
          .onSlot "slots"]).agent.start.isOk = true ∧
      (restarted.agent.stopChecked { reading := 5000000 } false).2.2 = none ∧
      (restarted.net.channel 0).journal.published = 1 ∧
      let stopped := restarted.step (.stop { reading := 5000000 } false)
      (stopped.agent.memory.region 0).tail ≠ (stopped.agent.memory.region 0).head ∧
        (stopped.net.channel 0).journal.popped = [] ∧ deliveredTo "slots" stopped.events = [] := by
  decide +kernel

end CacheMeter.Site
